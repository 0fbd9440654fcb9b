import ColivingSpec.ContentNode.SyncRequests
import Mathlib.Data.List.Basic

/-!
# Finding sync requests, user by user

The job that finds sync requests goes through its users and their secondaries one by one, reads
the maps other jobs filled as well as they could, and lists what it finds. The module follows
`findSyncRequests.jobProcessor.ts` with all it returns for a user and secondary, and compares a
job with the job that has the entries of that user and secondary alone.
-/

namespace ColivingSpec

open List

namespace SyncRequests

/-- The results a look at a secondary reports, under the source's texts. -/
inductive LookResult where
  | no_sync_already_marked_unhealthy
  | no_sync_sp_id_mismatch
  | no_sync_success_rate_too_low
  | no_sync_error_computing_sync_mode
  | no_sync_secondary_data_matches_primary
  | new_sync_request_enqueued
  | sync_request_already_enqueued
  | no_sync_unexpected_error
  deriving DecidableEq, Repr

/-- What the job says of a user and secondary: the entry of `outcomesBySecondary`, and what it adds
to `syncReqsToEnqueue`, `duplicateSyncReqs` and `errors`. -/
structure Look where
  wallet : Wallet
  secondary : Endpoint
  syncMode : SyncMode
  result : LookResult
  syncReqToEnqueue : Option Job
  duplicateSyncReq : Option Job
  error : Option String
  deriving DecidableEq, Repr

/-- What the database answers when asked for the hash of a wallet's files below a clock. -/
abbrev FilesHashes := Wallet → ℤ → Except String (Option String)

/-- What is decided before a request is made. -/
inductive Decision where
  | skip (result : LookResult) (error : Option String)
  | sync (syncMode : SyncMode)

/-- The answer for the range of the secondary; without a clock nothing is asked. -/
def filesHashFor (filesHashes : FilesHashes) (wallet : Wallet) (secondaryInfo : UserInfo) :
    Except String (Option String) :=
  match secondaryInfo.clock with
  | some secondaryClock => filesHashes wallet (secondaryClock + 1)
  | none => .error "Missing or invalid params"

variable (config : Config)

variable (params : FindSyncRequestsJobParams) (filesHashes : FilesHashes) (waiting : WaitingSyncs)

/-- The checks of one secondary: `findSyncRequests.jobProcessor.ts:216–271`. Reading an entry that is
not there throws, outside of any `try`. -/
def checkSecondary (user : User) (secondaryInfo : Endpoint × ℕ) :
    Except String Decision :=
  match metricsOf params user secondaryInfo.1 with
  | none => .error "Cannot destructure property of undefined"
  | some metrics =>
    if secondaryInfo.1 ∈ params.unhealthyPeers then
      .ok (.skip .no_sync_already_marked_unhealthy none)
    else if config.cNodeEndpointToSpIdMap secondaryInfo.1 ≠ some secondaryInfo.2 then
      .ok (.skip .no_sync_sp_id_mismatch none)
    else if metrics.failureCount ≥ config.minFailedSyncRequestsBeforeReconfig ∧
        metrics.successRate < config.minSecondaryUserSyncSuccessPercent then
      .ok (.skip .no_sync_success_rate_too_low none)
    else
      match userInfoOf params user.primary user.wallet,
        userInfoOf params secondaryInfo.1 user.wallet with
      | .ok primaryUserInfo, .ok secondaryUserInfo =>
        match computeSyncModeForUserAndReplica primaryUserInfo secondaryUserInfo
          (filesHashFor filesHashes user.wallet secondaryUserInfo) with
        | .error message =>
          .ok (.skip .no_sync_error_computing_sync_mode
            (some ("Error computing sync mode for user " ++ user.wallet ++ " and secondary " ++
              secondaryInfo.1 ++ " - " ++ message)))
        | .ok .None => .ok (.skip .no_sync_secondary_data_matches_primary none)
        | .ok syncMode => .ok (.sync syncMode)
      | .error message, _ => .error message
      | _, .error message => .error message

/-- The request for a secondary that needs a sync: `findSyncRequests.jobProcessor.ts:274–303`. -/
def requestSync (wallet : Wallet) (secondary : Endpoint) (syncMode : SyncMode) :
    WaitingSyncs × Look :=
  match getNewOrExistingSyncReq waiting wallet config.thisContentNodeEndpoint secondary .Recurring
    syncMode false with
  | .ok (waiting, .syncReqToEnqueue job) =>
    (waiting, ⟨wallet, secondary, syncMode, .new_sync_request_enqueued, some job, none, none⟩)
  | .ok (waiting, .duplicateSyncReq job) =>
    (waiting, ⟨wallet, secondary, syncMode, .sync_request_already_enqueued, none, some job, none⟩)
  | .error message =>
    (waiting, ⟨wallet, secondary, syncMode, .no_sync_unexpected_error, none, none,
      some ("Error getting new or existing sync request for syncMode " ++ syncMode.value ++
        ", user " ++ wallet ++ " and secondary " ++ secondary ++ " - " ++ message)⟩)

/-- The loop body of `_findSyncsForUser`: `findSyncRequests.jobProcessor.ts:216–304`. -/
def lookAt (user : User) (secondaryInfo : Endpoint × ℕ) :
    Except String (WaitingSyncs × Look) :=
  match checkSecondary config params filesHashes user secondaryInfo with
  | .error message => .error message
  | .ok (.skip result error) =>
    .ok (waiting, ⟨user.wallet, secondaryInfo.1, .None, result, none, none, error⟩)
  | .ok (.sync syncMode) =>
    .ok (requestSync config waiting user.wallet secondaryInfo.1 syncMode)

/-- The loop over users and secondaries; a throw ends it without a result. -/
def lookAll (config : Config) (params : FindSyncRequestsJobParams) (filesHashes : FilesHashes) :
    WaitingSyncs → List (User × Endpoint × ℕ) → Except String (WaitingSyncs × List Look)
  | waiting, [] => .ok (waiting, [])
  | waiting, (user, secondaryInfo) :: rest =>
    match lookAt config params filesHashes waiting user secondaryInfo with
    | .error message => .error message
    | .ok (waiting, look) =>
      match lookAll config params filesHashes waiting rest with
      | .error message => .error message
      | .ok (waiting, looks) => .ok (waiting, look :: looks)

/-- `_findSyncsForUser`: `findSyncRequests.jobProcessor.ts:166–313`. -/
def _findSyncsForUser (user : User) :
    Except String (WaitingSyncs × List Look) :=
  lookAll config params filesHashes waiting ((secondariesInfo config user).map (user, ·))

/-- The loop over the users: `findSyncRequests.jobProcessor.ts:78–132`. -/
def findForUsers (config : Config) (params : FindSyncRequestsJobParams)
    (filesHashes : FilesHashes) :
    WaitingSyncs → List User → Except String (WaitingSyncs × List Look)
  | waiting, [] => .ok (waiting, [])
  | waiting, user :: rest =>
    match _findSyncsForUser config params filesHashes waiting user with
    | .error message => .error message
    | .ok (waiting, looks) =>
      match findForUsers config params filesHashes waiting rest with
      | .error message => .error message
      | .ok (waiting, others) => .ok (waiting, looks ++ others)

/-- The job: `findSyncRequests.jobProcessor.ts:59–155`. -/
def findSyncRequests :
    Except String (WaitingSyncs × List Look) :=
  findForUsers config params filesHashes waiting params.users

variable (config : Config) (waiting : WaitingSyncs) {params : FindSyncRequestsJobParams}
  {user : User} {secondaryInfo : Endpoint × ℕ} {filesHashes : FilesHashes}
  {found : WaitingSyncs × Look}

/-! ### When a job throws -/

/-- The entries the look at a secondary reads are there: its metrics and, unless the secondary is
passed over before, what the primary and the secondary say of the user. -/
def EntriesPresent (config : Config) (params : FindSyncRequestsJobParams) (user : User)
    (secondaryInfo : Endpoint × ℕ) : Prop :=
  ∃ metrics, metricsOf params user secondaryInfo.1 = some metrics ∧
    (secondaryInfo.1 ∉ params.unhealthyPeers →
      config.cNodeEndpointToSpIdMap secondaryInfo.1 = some secondaryInfo.2 →
      ¬ (metrics.failureCount ≥ config.minFailedSyncRequestsBeforeReconfig ∧
        metrics.successRate < config.minSecondaryUserSyncSuccessPercent) →
      ((params.replicaToAllUserInfoMaps user.primary).bind (· user.wallet)).isSome ∧
      ((params.replicaToAllUserInfoMaps secondaryInfo.1).bind (· user.wallet)).isSome)

theorem userInfoOf_eq_ok_iff (params : FindSyncRequestsJobParams) (node : Endpoint)
    (wallet : Wallet) (info : UserInfo) :
    userInfoOf params node wallet = .ok info ↔
      (params.replicaToAllUserInfoMaps node).bind (· wallet) = some info := by
  unfold userInfoOf
  cases (params.replicaToAllUserInfoMaps node).bind (· wallet) with
  | none => simp
  | some found => simp

theorem userInfoOf_of_none {node : Endpoint} {wallet : Wallet}
    (h : (params.replicaToAllUserInfoMaps node).bind (· wallet) = none) :
    userInfoOf params node wallet = .error "Cannot destructure property of undefined" := by
  unfold userInfoOf
  rw [h]

/-- The checks throw exactly when an entry they read is missing. -/
theorem checkSecondary_isOk_iff (params : FindSyncRequestsJobParams) (filesHashes : FilesHashes)
    (user : User) (secondaryInfo : Endpoint × ℕ) :
    (∃ decision, checkSecondary config params filesHashes user secondaryInfo = .ok decision) ↔
      EntriesPresent config params user secondaryInfo := by
  unfold checkSecondary EntriesPresent
  cases hmetrics : metricsOf params user secondaryInfo.1 with
  | none => simp
  | some metrics =>
    simp only [Option.some.injEq, exists_eq_left']
    by_cases hpeer : secondaryInfo.1 ∈ params.unhealthyPeers
    · simp [hpeer]
    by_cases hspId : config.cNodeEndpointToSpIdMap secondaryInfo.1 = some secondaryInfo.2
    swap
    · simp [hpeer, hspId]
    by_cases hrate : metrics.failureCount ≥ config.minFailedSyncRequestsBeforeReconfig ∧
        metrics.successRate < config.minSecondaryUserSyncSuccessPercent
    · simp [hpeer, hspId, hrate]
    simp only [hpeer, hspId, hrate, not_false_eq_true, not_true_eq_false, if_false, ne_eq,
      true_implies]
    cases hprimary : (params.replicaToAllUserInfoMaps user.primary).bind (· user.wallet) with
    | none => simp [userInfoOf_of_none hprimary]
    | some primaryUserInfo =>
      rw [(userInfoOf_eq_ok_iff params user.primary user.wallet primaryUserInfo).mpr hprimary]
      cases hsecondary : (params.replicaToAllUserInfoMaps secondaryInfo.1).bind (· user.wallet) with
      | none => simp [userInfoOf_of_none hsecondary]
      | some secondaryUserInfo =>
        rw [(userInfoOf_eq_ok_iff params _ _ secondaryUserInfo).mpr hsecondary]
        simp only [Option.isSome_some, and_self, iff_true]
        split
        · exact ⟨_, rfl⟩
        · exact ⟨_, rfl⟩
        · exact ⟨_, rfl⟩

theorem lookAt_isOk_iff (params : FindSyncRequestsJobParams) (filesHashes : FilesHashes)
    (waiting : WaitingSyncs) (user : User) (secondaryInfo : Endpoint × ℕ) :
    (∃ found, lookAt config params filesHashes waiting user secondaryInfo = .ok found) ↔
      EntriesPresent config params user secondaryInfo := by
  rw [← checkSecondary_isOk_iff config params filesHashes]
  unfold lookAt
  cases checkSecondary config params filesHashes user secondaryInfo with
  | error message => simp
  | ok decision =>
    cases decision with
    | skip | sync => exact ⟨fun _ ↦ ⟨_, rfl⟩, fun _ ↦ ⟨_, rfl⟩⟩

/-- A job throws as soon as one look throws. -/
theorem lookAll_isOk_iff (params : FindSyncRequestsJobParams) (filesHashes : FilesHashes)
    (waiting : WaitingSyncs) (pairs : List (User × Endpoint × ℕ)) :
    (∃ found, lookAll config params filesHashes waiting pairs = .ok found) ↔
      ∀ pair ∈ pairs, EntriesPresent config params pair.1 pair.2 := by
  induction pairs generalizing waiting with
  | nil => simp [lookAll]
  | cons pair rest ih =>
    rw [forall_mem_cons, ← lookAt_isOk_iff config params filesHashes waiting, lookAll]
    cases lookAt config params filesHashes waiting pair.1 pair.2 with
    | error message => simp
    | ok found =>
      rw [← ih found.1]
      simp only
      cases lookAll config params filesHashes found.1 rest with
      | error message => simp
      | ok others => simp

theorem lookAll_append (params : FindSyncRequestsJobParams) (filesHashes : FilesHashes)
    (waiting : WaitingSyncs) (pairs others : List (User × Endpoint × ℕ)) :
    lookAll config params filesHashes waiting (pairs ++ others) =
      match lookAll config params filesHashes waiting pairs with
      | .error message => .error message
      | .ok (waiting, looks) =>
        match lookAll config params filesHashes waiting others with
        | .error message => .error message
        | .ok (waiting, more) => .ok (waiting, looks ++ more) := by
  induction pairs generalizing waiting with
  | nil =>
    simp only [nil_append, lookAll]
    cases lookAll config params filesHashes waiting others with
    | error message => rfl
    | ok found => rfl
  | cons pair rest ih =>
    rw [cons_append, lookAll, lookAll]
    cases lookAt config params filesHashes waiting pair.1 pair.2 with
    | error message => rfl
    | ok found =>
      simp only [ih]
      cases lookAll config params filesHashes found.1 rest with
      | error message => rfl
      | ok looks =>
        simp only
        cases lookAll config params filesHashes looks.1 others with
        | error message => rfl
        | ok more => rfl

/-- The secondaries of all users, in the order the job looks at them. -/
def pairsOf (config : Config) (users : List User) : List (User × Endpoint × ℕ) :=
  users.flatMap fun user ↦ (secondariesInfo config user).map (user, ·)

/-- The two loops are one over all pairs. -/
theorem findForUsers_eq (params : FindSyncRequestsJobParams) (filesHashes : FilesHashes)
    (waiting : WaitingSyncs) (users : List User) :
    findForUsers config params filesHashes waiting users =
      lookAll config params filesHashes waiting (pairsOf config users) := by
  induction users generalizing waiting with
  | nil => rfl
  | cons user rest ih =>
    rw [pairsOf, flatMap_cons, lookAll_append, findForUsers, _findSyncsForUser]
    simp only [ih, pairsOf]

/-! ### What one look leaves alone -/

variable (wallet : Wallet) (secondary : Endpoint)

/-- The key of a recurring sync. -/
abbrev recurringKey : String :=
  _getSyncKey .Recurring wallet secondary

/-- Wallets without a colon make keys that differ for different pairs. -/
theorem recurringKey_injective {wallet wallet' : Wallet} {secondary secondary' : Endpoint}
    (hwallet : ':' ∉ wallet.toList) (hwallet' : ':' ∉ wallet'.toList)
    (h : recurringKey wallet secondary = recurringKey wallet' secondary') :
    wallet = wallet' ∧ secondary = secondary' := by
  have hlist := congrArg String.toList h
  simp only [recurringKey, _getSyncKey, String.toList_append, append_assoc] at hlist
  have hkeys := append_cancel_left (append_cancel_left hlist)
  have hsep : "::".toList = [':', ':'] := by decide
  rcases append_eq_append_iff.mp hkeys with ⟨gap, hgap, hrest⟩ | ⟨gap, hgap, hrest⟩
  · cases gap with
    | nil =>
      rw [append_nil] at hgap
      exact ⟨(String.toList_inj.mp hgap).symm, String.toList_inj.mp (append_cancel_left hrest)⟩
    | cons first gap =>
      obtain ⟨rfl, -⟩ := cons.inj hrest
      exact absurd (hgap ▸ mem_append_right _ mem_cons_self) hwallet'
  · cases gap with
    | nil =>
      rw [append_nil] at hgap
      exact ⟨String.toList_inj.mp hgap, (String.toList_inj.mp (append_cancel_left hrest)).symm⟩
    | cons first gap =>
      obtain ⟨rfl, -⟩ := cons.inj hrest
      exact absurd (hgap ▸ mem_append_right _ mem_cons_self) hwallet

variable (syncMode : SyncMode)

theorem requestSync_names :
    (requestSync config waiting wallet secondary syncMode).2.wallet = wallet ∧
      (requestSync config waiting wallet secondary syncMode).2.secondary = secondary := by
  unfold requestSync
  split <;> exact ⟨rfl, rfl⟩

/-- A request writes under its own key alone. -/
theorem requestSync_of_ne {key : String} (h : key ≠ recurringKey wallet secondary) :
    (requestSync config waiting wallet secondary syncMode).1 key = waiting key := by
  unfold requestSync getNewOrExistingSyncReq
  by_cases hmissing : wallet = "" ∨ config.thisContentNodeEndpoint = "" ∨ secondary = ""
  · simp only [if_pos hmissing]
  · simp only [if_neg hmissing]
    cases getDuplicateSyncJobInfo waiting .Recurring wallet secondary with
    | some job => rfl
    | none => exact Function.update_of_ne h _ _

/-- A request reads under its own key alone. -/
theorem requestSync_congr {waiting waiting' : WaitingSyncs} (wallet : Wallet) (secondary : Endpoint)
    (syncMode : SyncMode)
    (h : waiting (recurringKey wallet secondary) = waiting' (recurringKey wallet secondary)) :
    (requestSync config waiting wallet secondary syncMode).2 =
        (requestSync config waiting' wallet secondary syncMode).2 ∧
      (requestSync config waiting wallet secondary syncMode).1 (recurringKey wallet secondary) =
        (requestSync config waiting' wallet secondary syncMode).1
          (recurringKey wallet secondary) := by
  unfold requestSync getNewOrExistingSyncReq
  by_cases hmissing : wallet = "" ∨ config.thisContentNodeEndpoint = "" ∨ secondary = ""
  · simp only [if_pos hmissing]
    exact ⟨trivial, h⟩
  · simp only [if_neg hmissing]
    have hduplicate : getDuplicateSyncJobInfo waiting .Recurring wallet secondary =
        getDuplicateSyncJobInfo waiting' .Recurring wallet secondary := h
    rw [hduplicate]
    cases getDuplicateSyncJobInfo waiting' .Recurring wallet secondary with
    | some job => exact ⟨rfl, h⟩
    | none =>
      refine ⟨rfl, ?_⟩
      simp only [recordSync, recurringKey, Function.update_self]

theorem lookAt_names {config : Config} {waiting : WaitingSyncs}
    (h : lookAt config params filesHashes waiting user secondaryInfo = .ok found) :
    found.2.wallet = user.wallet ∧ found.2.secondary = secondaryInfo.1 := by
  unfold lookAt at h
  split at h
  · cases h
  · cases h
    exact ⟨rfl, rfl⟩
  · cases h
    exact requestSync_names _ _ _ _ _

theorem lookAt_of_ne {config : Config} {waiting : WaitingSyncs}
    (h : lookAt config params filesHashes waiting user secondaryInfo = .ok found) {key : String}
    (hkey : key ≠ recurringKey user.wallet secondaryInfo.1) : found.1 key = waiting key := by
  unfold lookAt at h
  split at h
  · cases h
  · cases h
    rfl
  · cases h
    exact requestSync_of_ne _ _ _ _ _ hkey

/-- Two looks at one secondary agree when its key is recorded alike. -/
theorem lookAt_congr {config : Config} {waiting waiting' : WaitingSyncs}
    (h : lookAt config params filesHashes waiting user secondaryInfo = .ok found)
    (hkey : waiting (recurringKey user.wallet secondaryInfo.1) =
      waiting' (recurringKey user.wallet secondaryInfo.1)) :
    ∃ found', lookAt config params filesHashes waiting' user secondaryInfo = .ok found' ∧
      found'.2 = found.2 ∧ found.1 (recurringKey user.wallet secondaryInfo.1) =
        found'.1 (recurringKey user.wallet secondaryInfo.1) := by
  unfold lookAt at h ⊢
  split at h
  · cases h
  · cases h
    exact ⟨_, rfl, rfl, hkey⟩
  · next syncMode _ =>
    cases h
    obtain ⟨hlook, hafter⟩ := requestSync_congr config user.wallet secondaryInfo.1 syncMode hkey
    exact ⟨_, rfl, hlook.symm, hafter⟩

/-! ### A job and its users -/

/-- The pair is of the wallet and the secondary. -/
def isPair (pair : User × Endpoint × ℕ) : Bool :=
  decide (pair.1.wallet = wallet ∧ pair.2.1 = secondary)

/-- The look is at the wallet and the secondary. -/
def Look.isFor (look : Look) : Bool :=
  decide (look.wallet = wallet ∧ look.secondary = secondary)

/-- The looks of a run at one pair are those of the run over that pair alone. -/
theorem lookAll_filter {config : Config} {wallet : Wallet} {secondary : Endpoint}
    {pairs : List (User × Endpoint × ℕ)} (hcolon : ':' ∉ wallet.toList)
    (hcolons : ∀ pair ∈ pairs, ':' ∉ pair.1.wallet.toList) {waiting waiting' : WaitingSyncs}
    (hkey : waiting (recurringKey wallet secondary) = waiting' (recurringKey wallet secondary))
    {found : WaitingSyncs × List Look}
    (h : lookAll config params filesHashes waiting pairs = .ok found) :
    ∃ after, lookAll config params filesHashes waiting' (pairs.filter (isPair wallet secondary)) =
      .ok (after, found.2.filter (Look.isFor wallet secondary)) := by
  induction pairs generalizing waiting waiting' found with
  | nil =>
    cases h
    exact ⟨waiting', rfl⟩
  | cons pair rest ih =>
    rw [forall_mem_cons] at hcolons
    rw [lookAll] at h
    split at h
    · cases h
    · next middle look hlook =>
      split at h
      · cases h
      · next last looks hlooks =>
        cases h
        obtain ⟨hwallet, hsecondary⟩ := lookAt_names hlook
        by_cases hpair : pair.1.wallet = wallet ∧ pair.2.1 = secondary
        · have hfor : Look.isFor wallet secondary look = true :=
            decide_eq_true ⟨hwallet.trans hpair.1, hsecondary.trans hpair.2⟩
          have hpairKey : waiting (recurringKey pair.1.wallet pair.2.1) =
              waiting' (recurringKey pair.1.wallet pair.2.1) := by rw [hpair.1, hpair.2, hkey]
          obtain ⟨found', hfound', hsame, hafter⟩ := lookAt_congr hlook hpairKey
          rw [hpair.1, hpair.2] at hafter
          obtain ⟨after, hrest⟩ := ih hcolons.2 hafter hlooks
          have hisPair : isPair wallet secondary pair = true := decide_eq_true hpair
          refine ⟨after, ?_⟩
          rw [filter_cons_of_pos hisPair, lookAll, hfound']
          simp only [hrest, hsame, filter_cons_of_pos hfor]
        · have hfor : ¬ Look.isFor wallet secondary look = true := by
            intro htrue
            have hnames := of_decide_eq_true htrue
            exact hpair ⟨hwallet.symm.trans hnames.1, hsecondary.symm.trans hnames.2⟩
          have hne : recurringKey wallet secondary ≠ recurringKey pair.1.wallet pair.2.1 := by
            intro heq
            obtain ⟨hw, hs⟩ := recurringKey_injective hcolon hcolons.1 heq
            exact hpair ⟨hw.symm, hs.symm⟩
          have hmiddle := (lookAt_of_ne hlook hne).trans hkey
          obtain ⟨after, hrest⟩ := ih hcolons.2 hmiddle hlooks
          refine ⟨after, ?_⟩
          have hisPair : ¬ isPair wallet secondary pair = true := fun h ↦ hpair (of_decide_eq_true h)
          rw [filter_cons_of_neg hisPair]
          simp only [hrest, filter_cons_of_neg hfor]

/-! ### The entries of one pair -/

/-- The user with one secondary alone. -/
def User.only (user : User) (secondary : Endpoint) : User :=
  { user with
    secondary1 := if user.secondary1 = secondary then secondary else ""
    secondary2 := if user.secondary2 = secondary then secondary else "" }

/-- The job's data with the entries of one wallet and one of its secondaries alone: the others are
not there. What the nodes are, and which are unhealthy, stays. -/
def FindSyncRequestsJobParams.only (params : FindSyncRequestsJobParams) (config : Config)
    (wallet : Wallet) (secondary : Endpoint) : FindSyncRequestsJobParams where
  users := (params.users.filter (·.wallet = wallet)).map (·.only secondary)
  unhealthyPeers := params.unhealthyPeers
  replicaToAllUserInfoMaps node :=
    if node = secondary ∨ node = config.thisContentNodeEndpoint then
      (params.replicaToAllUserInfoMaps node).map fun infos wallet' ↦
        if wallet' = wallet then infos wallet' else none
    else none
  userSecondarySyncMetricsMap wallet' :=
    if wallet' = wallet then
      (params.userSecondarySyncMetricsMap wallet').map fun metrics secondary' ↦
        if secondary' = secondary then metrics secondary' else none
    else none

/-- The answers of the database for one wallet alone. -/
def onlyHashes (filesHashes : FilesHashes) (wallet : Wallet) : FilesHashes :=
  fun wallet' clockMax ↦
    if wallet' = wallet then filesHashes wallet' clockMax else .error "not available"

theorem mem_secondariesInfo {config : Config} (h : secondaryInfo ∈ secondariesInfo config user) :
    user.primary = config.thisContentNodeEndpoint ∧
      (secondaryInfo.1 = user.secondary1 ∨ secondaryInfo.1 = user.secondary2) := by
  unfold secondariesInfo at h
  split at h
  · cases h
  · next hprimary =>
    rw [not_not] at hprimary
    refine ⟨hprimary, ?_⟩
    have hmem := (mem_filter.mp h).1
    simp only [mem_cons, not_mem_nil, or_false] at hmem
    rcases hmem with rfl | rfl
    · exact .inl rfl
    · exact .inr rfl

theorem secondariesInfo_only (user : User) (secondary : Endpoint) :
    secondariesInfo config (user.only secondary) =
      (secondariesInfo config user).filter fun info ↦ decide (info.1 = secondary) := by
  unfold secondariesInfo User.only
  by_cases hprimary : user.primary = config.thisContentNodeEndpoint
  · simp only [hprimary, ne_eq, not_true_eq_false, if_false]
    by_cases hempty : secondary = ""
    · subst hempty
      by_cases h1 : user.secondary1 = "" <;> by_cases h2 : user.secondary2 = "" <;> simp [h1, h2]
    · by_cases h1 : user.secondary1 = secondary <;> by_cases h2 : user.secondary2 = secondary
      · simp [h1, h2, hempty]
      · by_cases h2' : user.secondary2 = "" <;> simp [h1, h2, h2', hempty]
      · by_cases h1' : user.secondary1 = "" <;> simp [h1, h2, h1', hempty]
      · by_cases h1' : user.secondary1 = "" <;> by_cases h2' : user.secondary2 = "" <;>
          simp [h1, h2, h1', h2']
  · simp [hprimary]

/-- The pairs of the job that has one pair's entries alone. -/
theorem pairsOf_only (users : List User) (wallet : Wallet) (secondary : Endpoint) :
    pairsOf config ((users.filter (·.wallet = wallet)).map (·.only secondary)) =
      ((pairsOf config users).filter (isPair wallet secondary)).map
        fun pair ↦ (pair.1.only secondary, pair.2) := by
  induction users with
  | nil => rfl
  | cons user rest ih =>
    unfold pairsOf at ih ⊢
    rw [flatMap_cons, filter_append, map_append, ← ih]
    by_cases hwallet : user.wallet = wallet
    · simp only [filter_cons, hwallet, decide_true, if_true, map_cons, flatMap_cons]
      congr 1
      rw [secondariesInfo_only, filter_map, map_map]
      refine congrArg (map _) (filter_congr ?_)
      intro info _
      simp only [isPair, Function.comp_apply, hwallet, true_and]
    · simp only [filter_cons, hwallet, decide_false, Bool.false_eq_true, if_false]
      have hnone : ((secondariesInfo config user).map (user, ·)).filter (isPair wallet secondary) =
          [] := by
        rw [filter_eq_nil_iff]
        intro pair hpair
        obtain ⟨info, -, rfl⟩ := mem_map.mp hpair
        simp [isPair, hwallet]
      rw [hnone]
      rfl

/-- The checks of a pair read the entries of the pair alone. -/
theorem checkSecondary_only {config : Config} (h : secondaryInfo ∈ secondariesInfo config user) :
    checkSecondary config (params.only config user.wallet secondaryInfo.1)
        (onlyHashes filesHashes user.wallet) (user.only secondaryInfo.1) secondaryInfo =
      checkSecondary config params filesHashes user secondaryInfo := by
  obtain ⟨hprimary, hsecondary⟩ := mem_secondariesInfo h
  have hmetrics : metricsOf (params.only config user.wallet secondaryInfo.1)
      (user.only secondaryInfo.1) secondaryInfo.1 = metricsOf params user secondaryInfo.1 := by
    unfold metricsOf FindSyncRequestsJobParams.only User.only
    simp only [if_true]
    cases params.userSecondarySyncMetricsMap user.wallet with
    | some metrics => simp
    | none =>
      rcases hsecondary with hfirst | hsecond
      · simp [← hfirst]
      · simp [← hsecond]
  have hinfo : ∀ node, node = secondaryInfo.1 ∨ node = config.thisContentNodeEndpoint →
      userInfoOf (params.only config user.wallet secondaryInfo.1) node user.wallet =
        userInfoOf params node user.wallet := by
    intro node hnode
    unfold userInfoOf FindSyncRequestsJobParams.only
    simp only [if_pos hnode]
    cases params.replicaToAllUserInfoMaps node with
    | none => rfl
    | some infos => simp
  have hhashes : ∀ info, filesHashFor (onlyHashes filesHashes user.wallet) user.wallet info =
      filesHashFor filesHashes user.wallet info := by
    intro info
    unfold filesHashFor onlyHashes
    simp only [if_true]
  unfold checkSecondary
  rw [hmetrics]
  have hwallet : (user.only secondaryInfo.1).wallet = user.wallet := rfl
  have hprimary' : (user.only secondaryInfo.1).primary = user.primary := rfl
  rw [hwallet, hprimary', hinfo user.primary (.inr hprimary), hinfo secondaryInfo.1 (.inl rfl)]
  simp only [hhashes]
  rfl

theorem lookAll_only {config : Config} {wallet : Wallet} {secondary : Endpoint}
    (pairs : List (User × Endpoint × ℕ))
    (h : ∀ pair ∈ pairs, pair.2 ∈ secondariesInfo config pair.1 ∧ pair.1.wallet = wallet ∧
      pair.2.1 = secondary) (waiting : WaitingSyncs) :
    lookAll config (params.only config wallet secondary) (onlyHashes filesHashes wallet) waiting
        (pairs.map fun pair ↦ (pair.1.only secondary, pair.2)) =
      lookAll config params filesHashes waiting pairs := by
  induction pairs generalizing waiting with
  | nil => rfl
  | cons pair rest ih =>
    rw [forall_mem_cons] at h
    obtain ⟨⟨hmem, rfl, rfl⟩, hrest⟩ := h
    have hlook : lookAt config (params.only config pair.1.wallet pair.2.1)
        (onlyHashes filesHashes pair.1.wallet) waiting (pair.1.only pair.2.1) pair.2 =
        lookAt config params filesHashes waiting pair.1 pair.2 := by
      unfold lookAt
      rw [checkSecondary_only hmem]
      rfl
    rw [map_cons, lookAll, lookAll, hlook]
    simp only [ih hrest]

/-! ### Isolation -/

/-- What a job says of a wallet and a secondary; a job that throws says nothing. -/
def looksFor (found : Except String (WaitingSyncs × List Look)) (wallet : Wallet)
    (secondary : Endpoint) : List Look :=
  match found with
  | .ok found => found.2.filter (Look.isFor wallet secondary)
  | .error _ => []

/-- The job returns, and says of each wallet and secondary what it says when the entries of that
pair are all there is. -/
def Isolated (config : Config) (params : FindSyncRequestsJobParams) (filesHashes : FilesHashes)
    (waiting : WaitingSyncs) : Prop :=
  (∃ found, findSyncRequests config params filesHashes waiting = .ok found) ∧
    ∀ wallet secondary,
      looksFor (findSyncRequests config params filesHashes waiting) wallet secondary =
        looksFor (findSyncRequests config (params.only config wallet secondary)
          (onlyHashes filesHashes wallet) waiting) wallet secondary

theorem mem_pairsOf {config : Config} {users : List User} {pair : User × Endpoint × ℕ} :
    pair ∈ pairsOf config users ↔ pair.1 ∈ users ∧ pair.2 ∈ secondariesInfo config pair.1 := by
  unfold pairsOf
  simp only [mem_flatMap, mem_map]
  constructor
  · rintro ⟨user, huser, info, hinfo, rfl⟩
    exact ⟨huser, hinfo⟩
  · rintro ⟨huser, hinfo⟩
    exact ⟨pair.1, huser, pair.2, hinfo, rfl⟩

theorem lookAll_wallet {config : Config} {waiting : WaitingSyncs}
    {pairs : List (User × Endpoint × ℕ)} {found : WaitingSyncs × List Look}
    (h : lookAll config params filesHashes waiting pairs = .ok found) :
    ∀ look ∈ found.2, ∃ pair ∈ pairs, look.wallet = pair.1.wallet := by
  induction pairs generalizing waiting found with
  | nil =>
    cases h
    exact fun look hlook ↦ absurd hlook not_mem_nil
  | cons pair rest ih =>
    rw [lookAll] at h
    split at h
    · cases h
    · next middle look hlook =>
      split at h
      · cases h
      · next last looks hlooks =>
        cases h
        rw [forall_mem_cons]
        constructor
        · exact ⟨pair, mem_cons_self, (lookAt_names hlook).1⟩
        · intro other hother
          obtain ⟨pair', hpair', hwallet⟩ := ih hlooks other hother
          exact ⟨pair', mem_cons_of_mem _ hpair', hwallet⟩

/-- **Isolation**: over users whose wallets hold no colon, the job treats each pair by itself
exactly where every entry it reads is there. -/
theorem findSyncRequests_isolated_iff (config : Config) (params : FindSyncRequestsJobParams)
    (filesHashes : FilesHashes) (waiting : WaitingSyncs)
    (hcolons : ∀ user ∈ params.users, ':' ∉ user.wallet.toList) :
    Isolated config params filesHashes waiting ↔
      ∀ user ∈ params.users, ∀ secondaryInfo ∈ secondariesInfo config user,
        EntriesPresent config params user secondaryInfo := by
  have hpresent : (∃ found, findSyncRequests config params filesHashes waiting = .ok found) ↔
      ∀ user ∈ params.users, ∀ secondaryInfo ∈ secondariesInfo config user,
        EntriesPresent config params user secondaryInfo := by
    unfold findSyncRequests
    rw [findForUsers_eq, lookAll_isOk_iff]
    constructor
    · intro h user huser info hinfo
      exact h (user, info) (mem_pairsOf.mpr ⟨huser, hinfo⟩)
    · intro h pair hpair
      obtain ⟨huser, hinfo⟩ := mem_pairsOf.mp hpair
      exact h pair.1 huser pair.2 hinfo
  rw [← hpresent]
  refine ⟨fun h ↦ h.1, fun h ↦ ⟨h, ?_⟩⟩
  obtain ⟨found, hfound⟩ := h
  intro wallet secondary
  rw [hfound]
  unfold findSyncRequests at hfound ⊢
  rw [findForUsers_eq] at hfound
  have honly : (params.only config wallet secondary).users =
      (params.users.filter (·.wallet = wallet)).map (·.only secondary) := rfl
  have hpairs : ∀ pair ∈ (pairsOf config params.users).filter (isPair wallet secondary),
      pair.2 ∈ secondariesInfo config pair.1 ∧ pair.1.wallet = wallet ∧ pair.2.1 = secondary := by
    intro pair hpair
    obtain ⟨hmem, hpair⟩ := List.mem_filter.mp hpair
    exact ⟨(mem_pairsOf.mp hmem).2, of_decide_eq_true hpair⟩
  rw [findForUsers_eq, honly, pairsOf_only, lookAll_only _ hpairs]
  by_cases huser : ∃ user ∈ params.users, user.wallet = wallet
  · obtain ⟨user, huser, rfl⟩ := huser
    have hpairColons : ∀ pair ∈ pairsOf config params.users, ':' ∉ pair.1.wallet.toList :=
      fun pair hpair ↦ hcolons pair.1 (mem_pairsOf.mp hpair).1
    obtain ⟨after, hafter⟩ := lookAll_filter (hcolons user huser) hpairColons rfl hfound
    rw [hafter]
    simp only [looksFor, List.filter_filter, Bool.and_self]
  · have hnone : (pairsOf config params.users).filter (isPair wallet secondary) = [] := by
      rw [List.filter_eq_nil_iff]
      intro pair hpair htrue
      exact huser ⟨pair.1, (mem_pairsOf.mp hpair).1, (of_decide_eq_true htrue).1⟩
    have hlooks : found.2.filter (Look.isFor wallet secondary) = [] := by
      rw [List.filter_eq_nil_iff]
      intro look hlook htrue
      obtain ⟨pair, hpair, hwallet⟩ := lookAll_wallet hfound look hlook
      exact huser ⟨pair.1, (mem_pairsOf.mp hpair).1,
        hwallet.symm.trans (of_decide_eq_true htrue).1⟩
    rw [hnone]
    exact hlooks

/-- A node that is the primary of two users, both with the secondary `s1`. -/
def twoWallets (infos : Endpoint → Option (Wallet → Option UserInfo)) : FindSyncRequestsJobParams where
  users := [⟨"0xa", "p", "s1", "", 2, 0⟩, ⟨"0xb", "p", "s1", "", 2, 0⟩]
  unhealthyPeers := []
  replicaToAllUserInfoMaps := infos
  userSecondarySyncMetricsMap := fun _ ↦ none

/-- Its configuration. -/
def nodeConfig : Config := ⟨"p", 1 / 2, 3, fun _ ↦ some 2⟩

/-- All entries are there. -/
theorem findSyncRequests_isolated_present :
    Isolated nodeConfig (twoWallets fun _ ↦ some fun _ ↦ some ⟨some 1, some none⟩)
      (fun _ _ ↦ .ok none) fun _ ↦ none := by
  refine (findSyncRequests_isolated_iff nodeConfig _ _ _ (by decide)).mpr ?_
  intro user huser secondaryInfo hinfo
  obtain ⟨-, hsecondary⟩ := mem_secondariesInfo hinfo
  refine ⟨⟨1, 0⟩, ?_, fun _ _ _ ↦ ⟨rfl, rfl⟩⟩
  exact if_pos hsecondary

/-- The primary did not answer for its first user: the second user's sync is not found either. -/
theorem findSyncRequests_not_isolated :
    ¬ ∀ (config : Config) (params : FindSyncRequestsJobParams) (filesHashes : FilesHashes)
      (waiting : WaitingSyncs), (∀ user ∈ params.users, ':' ∉ user.wallet.toList) →
        Isolated config params filesHashes waiting := by
  intro hisolated
  have h := hisolated nodeConfig
    (twoWallets fun node ↦ some fun wallet ↦
      if node = "p" ∧ wallet = "0xa" then none else some ⟨some 1, some none⟩)
    (fun _ _ ↦ .ok none) (fun _ ↦ none) (by decide)
  obtain ⟨found, hfound⟩ := h.1
  cases hfound

end SyncRequests

end ColivingSpec
