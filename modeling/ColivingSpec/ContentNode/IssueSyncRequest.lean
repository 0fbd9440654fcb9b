import ColivingSpec.ContentNode.SecondarySyncHealthTracker
import Mathlib.Data.List.Chain

/-!
# Issuing a sync request

A job sends its sync request to the secondary, watches the secondary's clock, records how the
sync went, and asks for a retry when the request could not be sent or the secondary did not catch
up. The module follows `issueSyncRequest.jobProcessor.ts` with all the ways a job ends, and the
chain of retries one request gives rise to. What other services answer is an argument.
-/

namespace ColivingSpec

namespace IssueSyncRequest

open SyncRequests SecondarySyncHealthTracker List

/-- The configuration the job reads: `issueSyncRequest.jobProcessor.ts:39–50`. -/
structure Config where
  secondaryUserSyncDailyFailureCountThreshold : ℕ
  mergePrimaryAndSecondaryEnabled : Bool

/-- What the job is answered: the count of failures, the error of a merge, the response of the
secondary to the request, the primary's clock, and each poll of the secondary's clock until the
monitoring time is over. -/
structure Answers where
  secondaryUserSyncFailureCountForToday : Except String ℕ
  primarySyncFromSecondary : Option String
  axios : Except String Unit
  primaryClockValue : Except String ℤ
  secondaryClockValues : List (Except String ℤ)

/-- The results a job reports, under the source's texts. -/
inductive Result where
  | failure_missing_wallet
  | success
  | failure_secondary_failure_count_threshold_met
  | success_mode_disabled
  | failure_primary_sync_from_secondary
  | failure_issue_sync_request
  | success_secondary_caught_up
  | success_secondary_partially_caught_up
  | failure_secondary_failed_to_progress
  deriving DecidableEq, Repr

/-- `HandleIssueSyncReqResult`: `issueSyncRequest.jobProcessor.ts:59–63`, with the outcome the
job recorded. -/
structure HandleIssueSyncReqResult where
  result : Result
  error : Option String
  syncReqToEnqueue : Option SyncRequests.Job
  recorded : Option Call
  deriving DecidableEq, Repr

/-- `attemptNumber = 1`: the number of a job that has none,
`issueSyncRequest.jobProcessor.ts:85`. -/
def attemptNumber (job : SyncRequests.Job) : ℕ := job.attemptNumber.getD 1

/-! ### Monitoring the secondary -/

/-- The clocks seen while the secondary is polled. -/
structure Monitoring where
  secondaryCaughtUpToPrimary : Bool
  initialSecondaryClock : Option ℤ
  finalSecondaryClock : Option ℤ

/-- The polling loop: `issueSyncRequest.jobProcessor.ts:328–370`. A poll that fails is passed
over. -/
def poll (syncMode : SyncMode) (primaryClockValue : ℤ) :
    List (Except String ℤ) → Monitoring → Monitoring
  | [], seen => seen
  | .error _ :: rest, seen => poll syncMode primaryClockValue rest seen
  | .ok secondaryClockValue :: rest, seen =>
    let initialSecondaryClock :=
      if syncMode = .MergePrimaryAndSecondary then -1
      else seen.initialSecondaryClock.getD secondaryClockValue
    if secondaryClockValue ≥ primaryClockValue then
      ⟨true, some initialSecondaryClock, some secondaryClockValue⟩
    else
      poll syncMode primaryClockValue rest
        ⟨seen.secondaryCaughtUpToPrimary, some initialSecondaryClock, some secondaryClockValue⟩

/-- `finalSecondaryClock > initialSecondaryClock`; two nulls are not greater. -/
def Monitoring.progressed (seen : Monitoring) : Bool :=
  match seen.initialSecondaryClock, seen.finalSecondaryClock with
  | some initial, some final => initial < final
  | _, _ => false

/-- `_additionalSyncIsRequired`: `issueSyncRequest.jobProcessor.ts:310–427`. -/
def _additionalSyncIsRequired (primaryClockValue : ℤ) (job : SyncRequests.Job) (userWallet : Wallet)
    (secondaryClockValues : List (Except String ℤ)) : HandleIssueSyncReqResult :=
  let seen := poll job.syncMode primaryClockValue secondaryClockValues ⟨false, none, none⟩
  let record (outcome : SecondarySyncHealthTracker.Outcome) : Option Call :=
    some ⟨outcome, job.syncRequestParameters.baseURL, userWallet, job.syncType.value⟩
  let syncReqToEnqueue : SyncRequests.Job :=
    { job with
      syncMode := .SyncSecondaryFromPrimary
      attemptNumber := some (attemptNumber job + 1) }
  if seen.secondaryCaughtUpToPrimary then
    ⟨.success_secondary_caught_up, none, none, record .SUCCESS⟩
  else if seen.progressed then
    ⟨.success_secondary_partially_caught_up, none, some syncReqToEnqueue, record .SUCCESS⟩
  else ⟨.failure_secondary_failed_to_progress, none, some syncReqToEnqueue, record .FAILURE⟩

/-! ### The job -/

variable (job : SyncRequests.Job) (config : Config)

/-- `logMsgString`: `issueSyncRequest.jobProcessor.ts:166`. -/
def logMsgString (userWallet : Wallet) : String :=
  "_handleIssueSyncRequest() (" ++ job.syncType.value ++ ")(" ++ job.syncMode.value ++
    ") User " ++ userWallet ++ " | Secondary: " ++ job.syncRequestParameters.baseURL

/-- The error of a merge that ends the job, `issueSyncRequest.jobProcessor.ts:204–221`: a mode
that is disabled, or what `primarySyncFromSecondary` returns. -/
def mergeFirst (job : SyncRequests.Job) (answers : Answers) : Option HandleIssueSyncReqResult :=
  if job.syncMode = .MergePrimaryAndSecondary then
    if config.mergePrimaryAndSecondaryEnabled = false then
      some ⟨.success_mode_disabled, none, none, none⟩
    else
      match answers.primarySyncFromSecondary with
      | some error => some ⟨.failure_primary_sync_from_secondary, some error, none, none⟩
      | none => none
  else none

/-- The request is sent, after a merge with `forceResync`, and the secondary monitored:
`issueSyncRequest.jobProcessor.ts:229–273`. -/
def send (userWallet : Wallet) (answers : Answers) : Except String HandleIssueSyncReqResult :=
  match answers.axios with
  | .error message =>
    .ok ⟨.failure_issue_sync_request,
      some (logMsgString job userWallet ++ " || Error issuing sync request: " ++ message),
      some { job with
        syncMode := .SyncSecondaryFromPrimary
        attemptNumber := some (attemptNumber job) },
      none⟩
  | .ok () =>
    match answers.primaryClockValue with
    | .error message => .error message
    | .ok primaryClockValue =>
      .ok (_additionalSyncIsRequired primaryClockValue job userWallet answers.secondaryClockValues)

/-- `_handleIssueSyncRequest`: `issueSyncRequest.jobProcessor.ts:145–273`. -/
def _handleIssueSyncRequest (job : SyncRequests.Job) (answers : Answers) :
    Except String HandleIssueSyncReqResult :=
  match job.syncRequestParameters.wallet with
  | [] => .ok ⟨.failure_missing_wallet, none, none, none⟩
  | userWallet :: _ =>
    if job.syncMode = .None then .ok ⟨.success, none, none, none⟩
    else
      match answers.secondaryUserSyncFailureCountForToday with
      | .error message => .error message
      | .ok secondaryUserSyncFailureCountForToday =>
        if secondaryUserSyncFailureCountForToday >
            config.secondaryUserSyncDailyFailureCountThreshold then
          .ok ⟨.failure_secondary_failure_count_threshold_met,
            some (logMsgString job userWallet ++ " || Secondary has already met " ++
              "SecondaryUserSyncDailyFailureCountThreshold (" ++
              toString config.secondaryUserSyncDailyFailureCountThreshold ++
              "). Will not issue further syncRequests today."),
            none, none⟩
        else
          match mergeFirst config job answers with
          | some result => .ok result
          | none => send job userWallet answers

/-- The queues a retry can go to: `stateMachineConstants.ts`, `QUEUE_NAMES`. -/
inductive QueueName where
  | MANUAL_SYNC
  | RECURRING_SYNC
  deriving DecidableEq, Repr

/-- `queueName`: `issueSyncRequest.jobProcessor.ts:117–120`. -/
def queueName : SyncType → QueueName
  | .Manual => .MANUAL_SYNC
  | .Recurring => .RECURRING_SYNC

/-- `{ attemptNumber: number, ...request }`: what the request says itself is written last. -/
def spread (number : ℕ) (request : SyncRequests.Job) : SyncRequests.Job :=
  { request with attemptNumber := some (request.attemptNumber.getD number) }

/-- `jobsToEnqueue` of a job that handled its request so:
`issueSyncRequest.jobProcessor.ts:109–130`. -/
def jobsToEnqueue (handled : HandleIssueSyncReqResult) : Option (QueueName × SyncRequests.Job) :=
  match handled.syncReqToEnqueue with
  | some syncReqToEnqueue =>
    if attemptNumber job < maxRetries syncReqToEnqueue.syncType then
      some (queueName syncReqToEnqueue.syncType, spread (attemptNumber job + 1) syncReqToEnqueue)
    else none
  | none => none

/-- The job processor: `issueSyncRequest.jobProcessor.ts:80–143`. -/
def issueSyncRequest (job : SyncRequests.Job) (answers : Answers) :
    Except String (Option (QueueName × SyncRequests.Job)) :=
  (_handleIssueSyncRequest config job answers).map (jobsToEnqueue job)

/-! ### What a job asks for -/

/-- The request reached the secondary. -/
def Answers.sent (answers : Answers) : Bool := answers.axios.isOk

variable {config : Config} {job : SyncRequests.Job} {answers : Answers}
  {handled : HandleIssueSyncReqResult} {userWallet : Wallet}

/-- A merge that ends the job asks for nothing. -/
theorem mergeFirst_syncReqToEnqueue (h : mergeFirst config job answers = some handled) :
    handled.syncReqToEnqueue = none := by
  unfold mergeFirst at h
  split at h
  · split at h
    · cases h
      rfl
    · split at h
      · cases h
        rfl
      · cases h
  · cases h

/-- What is asked for once the request went out: an attempt whose request was sent counts, one
whose request could not be sent does not. -/
theorem send_syncReqToEnqueue {request : SyncRequests.Job}
    (h : send job userWallet answers = .ok handled)
    (hrequest : handled.syncReqToEnqueue = some request) :
    request.syncType = job.syncType ∧
      request.attemptNumber = some (attemptNumber job + if answers.sent then 1 else 0) := by
  unfold send at h
  split at h
  · next message haxios =>
    have hsent : answers.sent = false := by
      rw [Answers.sent, haxios]
      rfl
    cases h
    cases hrequest
    exact ⟨rfl, by rw [hsent]; rfl⟩
  · next haxios =>
    have hsent : answers.sent = true := by
      rw [Answers.sent, haxios]
      rfl
    split at h
    · cases h
    · cases h
      unfold _additionalSyncIsRequired at hrequest
      simp only at hrequest
      split at hrequest
      · cases hrequest
      · split at hrequest
        · cases hrequest
          exact ⟨rfl, by rw [hsent]; rfl⟩
        · cases hrequest
          exact ⟨rfl, by rw [hsent]; rfl⟩

theorem _handleIssueSyncRequest_syncReqToEnqueue {request : SyncRequests.Job}
    (h : _handleIssueSyncRequest config job answers = .ok handled)
    (hrequest : handled.syncReqToEnqueue = some request) :
    request.syncType = job.syncType ∧
      request.attemptNumber = some (attemptNumber job + if answers.sent then 1 else 0) := by
  unfold _handleIssueSyncRequest at h
  split at h
  · cases h
    cases hrequest
  split at h
  · cases h
    cases hrequest
  split at h
  · cases h
  split at h
  · cases h
    cases hrequest
  split at h
  · next hmerge =>
    cases h
    rw [mergeFirst_syncReqToEnqueue hmerge] at hrequest
    cases hrequest
  · exact send_syncReqToEnqueue h hrequest

/-- A retry is asked for below the limit, and its number is that of the request: the number the
job gives it is written over. -/
theorem issueSyncRequest_retry {queue : QueueName} {next : SyncRequests.Job}
    (h : issueSyncRequest config job answers = .ok (some (queue, next))) :
    attemptNumber job < maxRetries job.syncType ∧ next.syncType = job.syncType ∧
      attemptNumber next = attemptNumber job + if answers.sent then 1 else 0 := by
  unfold issueSyncRequest at h
  cases hhandled : _handleIssueSyncRequest config job answers with
  | error message =>
    rw [hhandled] at h
    cases h
  | ok handled =>
    rw [hhandled] at h
    have hjobs := Except.ok.inj h
    unfold jobsToEnqueue at hjobs
    split at hjobs
    · next request hrequest =>
      obtain ⟨htype, hnumber⟩ := _handleIssueSyncRequest_syncReqToEnqueue hhandled hrequest
      split at hjobs
      · next hlt =>
        cases hjobs
        refine ⟨htype ▸ hlt, htype, ?_⟩
        simp only [attemptNumber, spread, hnumber, Option.getD_some]
      · cases hjobs
    · cases hjobs

/-! ### Chains of retries -/

/-- A job and what it was answered. -/
structure Attempt where
  job : SyncRequests.Job
  answers : Answers

/-- The second attempt runs the retry that the first one asked for. -/
def RetriedAs (config : Config) (first second : Attempt) : Prop :=
  ∃ queue, issueSyncRequest config first.job first.answers = .ok (some (queue, second.job))

/-- The attempts one request gave rise to: each but the first is the retry of the one before. -/
def IsRun (config : Config) (run : List Attempt) : Prop := run.IsChain (RetriedAs config)

/-- The number of the attempt increases from each to the next. -/
def Increasing (run : List Attempt) : Prop :=
  run.IsChain fun first second ↦ attemptNumber first.job < attemptNumber second.job

theorem RetriedAs.lt_iff {first second : Attempt} (h : RetriedAs config first second) :
    attemptNumber first.job < attemptNumber second.job ↔ first.answers.sent = true := by
  obtain ⟨queue, hjob⟩ := h
  obtain ⟨-, -, hnumber⟩ := issueSyncRequest_retry hjob
  rw [hnumber]
  cases first.answers.sent <;> simp

/-- The numbers increase exactly when each request that was retried had been sent. -/
theorem increasing_iff {run : List Attempt} (hrun : IsRun config run) :
    Increasing run ↔ ∀ attempt ∈ run.dropLast, attempt.answers.sent = true := by
  induction run with
  | nil => simp [Increasing]
  | cons first rest ih =>
    cases rest with
    | nil => simp [Increasing]
    | cons second rest =>
      obtain ⟨hretried, hrest⟩ := isChain_cons_cons.mp hrun
      unfold Increasing at ih ⊢
      rw [isChain_cons_cons, ih hrest, hretried.lt_iff, dropLast_cons_cons]
      rw [forall_mem_cons]

/-- Increasing numbers stop the retries at the limit. -/
theorem length_le_of_increasing {first : Attempt} {rest : List Attempt}
    (hrun : IsRun config (first :: rest)) (hincreasing : Increasing (first :: rest)) :
    rest.length ≤ maxRetries first.job.syncType - attemptNumber first.job := by
  induction rest generalizing first with
  | nil => exact Nat.zero_le _
  | cons second rest ih =>
    obtain ⟨⟨queue, hjob⟩, hrest⟩ := isChain_cons_cons.mp hrun
    obtain ⟨hlt, hincreasing⟩ := isChain_cons_cons.mp hincreasing
    obtain ⟨hbelow, htype, -⟩ := issueSyncRequest_retry hjob
    have hlength := ih hrest hincreasing
    rw [htype] at hlength
    rw [length_cons]
    omega

/-- **Retries**: along the attempts of an original request, the numbers increase exactly when
each request that was retried had been sent, and then there are at most the configured number of
attempts. -/
theorem retries_bounded (config : Config) (original : Attempt) (retries : List Attempt)
    (horiginal : original.job.attemptNumber = none)
    (hrun : IsRun config (original :: retries)) :
    (Increasing (original :: retries) ↔
      ∀ attempt ∈ (original :: retries).dropLast, attempt.answers.sent = true) ∧
    ((∀ attempt ∈ (original :: retries).dropLast, attempt.answers.sent = true) →
      (original :: retries).length ≤ maxRetries original.job.syncType) := by
  have hiff := increasing_iff hrun
  refine ⟨hiff, ?_⟩
  intro hsent
  have hlength := length_le_of_increasing hrun (hiff.mpr hsent)
  have hone : attemptNumber original.job = 1 := by rw [attemptNumber, horiginal]; rfl
  have hmax : 1 ≤ maxRetries original.job.syncType := by
    cases original.job.syncType <;> decide
  rw [List.length_cons]
  omega

/-- A request sent on the second attempt after the secondary did not progress on the first. -/
theorem retries_bounded_twice :
    let answers : Answers := ⟨.ok 0, none, .ok (), .ok 5, [.ok 3]⟩
    let job : SyncRequests.Job :=
      ⟨.Recurring, .SyncSecondaryFromPrimary, ⟨"s1", ["w"], "p", false⟩, none⟩
    let retried : SyncRequests.Job :=
      ⟨.Recurring, .SyncSecondaryFromPrimary, ⟨"s1", ["w"], "p", false⟩, some 2⟩
    ([⟨job, answers⟩, ⟨retried, answers⟩] : List Attempt).length ≤ 2 := by
  intro answers job retried
  have hrun : IsRun ⟨10, false⟩ [⟨job, answers⟩, ⟨retried, answers⟩] :=
    List.isChain_pair.mpr ⟨.RECURRING_SYNC, rfl⟩
  refine (retries_bounded ⟨10, false⟩ ⟨job, answers⟩ [⟨retried, answers⟩] rfl hrun).2 ?_
  intro attempt hattempt
  rw [List.mem_singleton.mp hattempt]
  rfl

/-- The answers of a secondary that does not take the request. -/
def refused : Answers := ⟨.ok 0, none, .error "connect ECONNREFUSED", .ok 5, []⟩

/-- A request that can never be sent is retried without end. -/
theorem retries_without_end (bound : ℕ) :
    IsRun ⟨10, false⟩
      (⟨⟨.Recurring, .SyncSecondaryFromPrimary, ⟨"s1", ["w"], "p", false⟩, none⟩, refused⟩ ::
        replicate bound
          ⟨⟨.Recurring, .SyncSecondaryFromPrimary, ⟨"s1", ["w"], "p", false⟩, some 1⟩, refused⟩) := by
  induction bound with
  | zero => exact isChain_singleton _
  | succ bound ih =>
    refine isChain_cons_cons.mpr ⟨⟨.RECURRING_SYNC, rfl⟩, ?_⟩
    cases bound with
    | zero => exact isChain_singleton _
    | succ bound =>
      exact isChain_cons_cons.mpr ⟨⟨.RECURRING_SYNC, rfl⟩, (isChain_cons_cons.mp ih).2⟩

/-- Three attempts of one request, whose limit is two. -/
theorem retries_exceed :
    ¬ ∀ (config : Config) (original : Attempt) (retries : List Attempt),
      original.job.attemptNumber = none → IsRun config (original :: retries) →
        (original :: retries).length ≤ maxRetries original.job.syncType := by
  intro hbounded
  have hlength := hbounded _ _ _ rfl (retries_without_end 2)
  revert hlength
  decide

/-! ### The threshold of failures -/

/-- The job is refused for the failures of the day. -/
def Refused (handled : Except String HandleIssueSyncReqResult) : Prop :=
  ∃ result, handled = .ok result ∧ result.result = .failure_secondary_failure_count_threshold_met

theorem not_refused_mergeFirst (h : mergeFirst config job answers = some handled) :
    handled.result ≠ .failure_secondary_failure_count_threshold_met := by
  unfold mergeFirst at h
  split at h
  · split at h
    · cases h
      decide
    · split at h
      · cases h
        simp only [ne_eq, reduceCtorEq, not_false_eq_true]
      · cases h
  · cases h

theorem not_refused_send :
    ¬ Refused (send job userWallet answers) := by
  rintro ⟨handled, h, hresult⟩
  unfold send at h
  split at h
  · cases h
    cases hresult
  · split at h
    · cases h
    · cases h
      unfold _additionalSyncIsRequired at hresult
      simp only at hresult
      split at hresult
      · cases hresult
      · split at hresult <;> cases hresult

/-- A job that sends requests is refused when the count it is told is above the threshold. -/
theorem refused_iff {count : ℕ} (hwallet : job.syncRequestParameters.wallet.head? = some userWallet)
    (hmode : job.syncMode ≠ .None)
    (hcount : answers.secondaryUserSyncFailureCountForToday = .ok count) :
    Refused (_handleIssueSyncRequest config job answers) ↔
      config.secondaryUserSyncDailyFailureCountThreshold < count := by
  obtain ⟨more, hwallets⟩ := head?_eq_some_iff.mp hwallet
  unfold _handleIssueSyncRequest
  simp only [hwallets, hcount, if_neg hmode]
  by_cases hgt : count > config.secondaryUserSyncDailyFailureCountThreshold
  · rw [if_pos hgt]
    exact ⟨fun _ ↦ hgt, fun _ ↦ ⟨_, rfl, rfl⟩⟩
  · rw [if_neg hgt]
    refine ⟨?_, fun hlt ↦ absurd hlt hgt⟩
    intro hrefused
    split at hrefused
    · next hmerge =>
      obtain ⟨result, hresult, hmet⟩ := hrefused
      cases hresult
      exact absurd hmet (not_refused_mergeFirst hmerge)
    · exact absurd hrefused not_refused_send

/-- **The count of failures** is read right exactly where none was recorded, and the threshold
holds back the jobs it should exactly as long as it was not passed. -/
theorem failureCountForToday_iff (glob : String → String → Bool) (today : String) (redis : Redis)
    (calls : List Call) (secondary wallet syncType : String) :
    (getSecondaryUserSyncFailureCountForToday glob today (recordAll today redis calls) secondary
        wallet syncType = failuresOf calls secondary wallet syncType ↔
      failuresOf calls secondary wallet syncType = 0) ∧
    ∀ (config : Config) (job : SyncRequests.Job) (answers : Answers),
      job.syncRequestParameters.baseURL = secondary →
      job.syncRequestParameters.wallet.head? = some wallet → job.syncType.value = syncType →
      job.syncMode ≠ .None →
      answers.secondaryUserSyncFailureCountForToday =
        .ok (getSecondaryUserSyncFailureCountForToday glob today (recordAll today redis calls)
          secondary wallet syncType) →
      ((Refused (_handleIssueSyncRequest config job answers) ↔
          config.secondaryUserSyncDailyFailureCountThreshold <
            failuresOf calls secondary wallet syncType) ↔
        failuresOf calls secondary wallet syncType ≤
          config.secondaryUserSyncDailyFailureCountThreshold) := by
  rw [getSecondaryUserSyncFailureCountForToday_eq_zero]
  refine ⟨eq_comm, ?_⟩
  intro config job answers hsecondary hwallet htype hmode hcount
  rw [refused_iff hwallet hmode hcount]
  omega

/-- A job of a triple that never failed, with the count it is told. -/
theorem failureCountForToday_iff_none :
    (Refused (_handleIssueSyncRequest ⟨10, false⟩
        ⟨.Recurring, .SyncSecondaryFromPrimary, ⟨"s1", ["w"], "p", false⟩, none⟩ refused) ↔
      10 < failuresOf [⟨.SUCCESS, "s1", "w", "RECURRING"⟩] "s1" "w" "RECURRING") ↔
    failuresOf [⟨.SUCCESS, "s1", "w", "RECURRING"⟩] "s1" "w" "RECURRING" ≤ 10 :=
  (failureCountForToday_iff (fun _ _ ↦ true) "2022-11-01" Lib.Dict.empty
    [⟨.SUCCESS, "s1", "w", "RECURRING"⟩] "s1" "w" "RECURRING").2 ⟨10, false⟩ _ refused rfl rfl rfl
    (by decide) (by rw [getSecondaryUserSyncFailureCountForToday_eq_zero]; rfl)

/-- One failure, read as none. -/
theorem failureCountForToday_lost :
    ¬ ∀ (glob : String → String → Bool) (today : String) (redis : Redis) (calls : List Call)
      (secondary wallet syncType : String),
      getSecondaryUserSyncFailureCountForToday glob today (recordAll today redis calls) secondary
        wallet syncType = failuresOf calls secondary wallet syncType := by
  intro hcounts
  have hone := hcounts (fun _ _ ↦ true) "2022-11-01" Lib.Dict.empty
    [⟨.FAILURE, "s1", "w", "RECURRING"⟩] "s1" "w" "RECURRING"
  revert hone
  decide

end IssueSyncRequest

end ColivingSpec
