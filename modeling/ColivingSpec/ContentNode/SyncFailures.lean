import ColivingSpec.ContentNode.SyncImports

/-!
# What a failed sync leaves

A sync that fails leaves the wallet's rows as they were unless it has deleted them before the
response came, has committed a bundle before the one that is refused, or repairs the clock of the
wallet's user after the transaction threw.
-/

namespace ColivingSpec

open Lib List

variable (ctx : SyncContext) (wallet : Wallet) (localMaxClockVal : ℤ)

/-- The bundle has nothing new. -/
structure UpToDate (e : FetchedCNodeUser) : Prop where
  walletPublicKey : e.walletPublicKey = some wallet
  clockRecords : e.clockRecords.isSome = true
  clock : e.clock = localMaxClockVal

/-- The bundle goes on from the local clock. -/
structure NewData (e : FetchedCNodeUser) (records : List ClockRecord) : Prop where
  walletPublicKey : e.walletPublicKey = some wallet
  clockRecords : e.clockRecords = some records
  clocks : checkClocks localMaxClockVal e.clock (records.map ClockRecord.clock) = none

/-- The bundle is written. -/
def Imports (node : Secondary) (e : FetchedCNodeUser) (node' : Secondary) : Prop :=
  ∃ clockRecords db cnodeUserUUID rows, NewData wallet localMaxClockVal e clockRecords ∧
    Commits ctx node wallet e clockRecords db cnodeUserUUID rows ∧
    node' = { node.resetFailureCount wallet with db := db.withRows rows }

/-- The transaction for the bundle throws. -/
def Throws (node : Secondary) (e : FetchedCNodeUser) : Prop :=
  (∃ clockRecords, NewData wallet localMaxClockVal e clockRecords) ∧
    ¬ LeavesOpen ctx node wallet e ∧ ¬ ∃ node', Imports ctx wallet localMaxClockVal node e node'

/-- The user that is repaired after a transaction threw is not the wallet's, or has the clock of
its last clock record. -/
def RepairHarmless (db : Database) (userUUID : UUID) : Prop :=
  ∀ user ∈ db.cnodeUsers, user.walletPublicKey = wallet → user.cnodeUserUUID = userUUID →
    ∀ maxClock, db.maxClock userUUID = some maxClock → user.clock = maxClock

/-- All bundles are up to date or written. -/
inductive Accepted : Secondary → List FetchedCNodeUser → Prop
  | nil {node} : Accepted node []
  | upToDate {node e rest} : UpToDate wallet localMaxClockVal e → Accepted node rest →
    Accepted node (e :: rest)
  | imported {node node' e rest} : Imports ctx wallet localMaxClockVal node e node' →
    Accepted node' rest → Accepted node (e :: rest)

/-- All bundles are accepted, or nothing is written before the first one that is not, nor in its
repair. -/
inductive Clean : Secondary → List FetchedCNodeUser → Prop
  | nil {node} : Clean node []
  | upToDate {node e rest} : UpToDate wallet localMaxClockVal e → Clean node rest →
    Clean node (e :: rest)
  | imported {node node' e rest} : Imports ctx wallet localMaxClockVal node e node' →
    Accepted ctx wallet localMaxClockVal node' rest → Clean node (e :: rest)
  | refused {node e rest} : ¬ UpToDate wallet localMaxClockVal e →
    (¬ ∃ node', Imports ctx wallet localMaxClockVal node e node') →
    (Throws ctx wallet localMaxClockVal node e →
      RepairHarmless wallet node.db e.cnodeUserUUID) →
    Clean node (e :: rest)

/-- Deleting the user's rows is refused nowhere: nothing else refers to the files, and the user
has no content lists. -/
structure Deletable (db : Database) (uuid : UUID) : Prop where
  digitalContentFiles : Database.filesUnreferenced
    { db with colivingUsers := db.colivingUsers.filter (·.cnodeUserUUID ≠ uuid) }
    (fun file ↦ file.cnodeUserUUID = uuid ∧ file.digitalContentBlockchainId.isSome) = true
  files : Database.filesUnreferenced
    { db with
      colivingUsers := db.colivingUsers.filter (·.cnodeUserUUID ≠ uuid)
      files := db.files.filter fun file ↦
        !decide (file.cnodeUserUUID = uuid ∧ file.digitalContentBlockchainId.isSome)
      digitalContents := db.digitalContents.filter (·.cnodeUserUUID ≠ uuid) }
    (fun file ↦ file.cnodeUserUUID = uuid) = true
  contentLists : ∀ list ∈ db.contentLists, list.cnodeUserUUID ≠ uuid

/-- The wallet has a user whose rows can be deleted. -/
def Wipeable (db : Database) : Prop :=
  ∃ user, db.findCNodeUser wallet = some user ∧ Deletable db user.cnodeUserUUID

/-- The calls that leave the rows alone when they fail. If `forceResync` deletes the rows, all
bundles are accepted; else the bundles are clean. -/
def FailsCleanly (node : Secondary) (response : ℤ → ExportResponse) (forceResync : Bool) : Prop :=
  ctx.lockAcquired = true →
    (forceResync = true ∧ Wipeable wallet node.db → ∃ fetched,
      response (-1) = .cnodeUsers fetched ∧ Accepted ctx wallet (-1)
        { node with db := node.db.deleteAllCNodeUserDataFromDB wallet } fetched) ∧
    (¬ (forceResync = true ∧ Wipeable wallet node.db) → ∀ fetched,
      response (beforeFetch node.db wallet forceResync).2 = .cnodeUsers fetched →
        Clean ctx wallet (beforeFetch node.db wallet forceResync).2 node fetched)

/-! ### One bundle -/

variable {ctx wallet localMaxClockVal} {node node' : Secondary} {e : FetchedCNodeUser}

theorem checkClocks_eq_success {clock : ℤ} {clocks : List ℤ} :
    checkClocks localMaxClockVal clock clocks = some .success ↔ clock = localMaxClockVal := by
  unfold checkClocks
  split
  · next hlt =>
    refine iff_of_false (by decide) ?_
    omega
  · split
    · next heq => exact iff_of_true rfl heq
    · next hne =>
      refine iff_of_false ?_ hne
      split
      · decide
      · split
        · decide
        · exact fun h ↦ nomatch h

theorem UpToDate.sync (h : UpToDate wallet localMaxClockVal e) :
    syncFetchedCNodeUser ctx wallet localMaxClockVal node e = (node, none) := by
  obtain ⟨clockRecords, hrecords⟩ := Option.isSome_iff_exists.mp h.clockRecords
  rw [syncFetchedCNodeUser, if_neg (not_not.mpr h.walletPublicKey), hrecords]
  simp only [checkClocks_eq_success.mpr h.clock]

variable {clockRecords : List ClockRecord} (fetched : List FetchedCNodeUser) {db db' : Database}

theorem NewData.sync (h : NewData wallet localMaxClockVal e clockRecords)
    {transactionEnd : TransactionEnd}
    (hend : syncTransaction ctx node wallet e clockRecords = (node', transactionEnd)) :
    syncFetchedCNodeUser ctx wallet localMaxClockVal node e
      = match transactionEnd with
        | .committed db => ({ node' with db := db }, none)
        | .leftOpen result => (node', some result)
        | .threw _ =>
          ({ node' with db := node'.db.fixInconsistentUser e.cnodeUserUUID },
            some .failure_db_transaction) := by
  rw [syncFetchedCNodeUser, if_neg (not_not.mpr h.walletPublicKey), h.clockRecords]
  simp only [h.clocks, hend]
  cases transactionEnd with
  | committed db => rfl
  | leftOpen result => rfl
  | threw message => rfl

theorem NewData.not_upToDate (h : NewData wallet localMaxClockVal e clockRecords) :
    ¬ UpToDate wallet localMaxClockVal e := by
  intro hsame
  have := h.clocks
  rw [checkClocks_eq_success.mpr hsame.clock] at this
  cases this

/-- How the call goes on after a bundle, and what it has written. -/
theorem syncFetchedCNodeUser_cases (ctx : SyncContext) (wallet : Wallet) (localMaxClockVal : ℤ)
    (node : Secondary) (e : FetchedCNodeUser) :
    (UpToDate wallet localMaxClockVal e ∧
      syncFetchedCNodeUser ctx wallet localMaxClockVal node e = (node, none)) ∨
    (∃ node', Imports ctx wallet localMaxClockVal node e node' ∧
      syncFetchedCNodeUser ctx wallet localMaxClockVal node e = (node', none)) ∨
    (¬ UpToDate wallet localMaxClockVal e ∧
      (¬ ∃ node', Imports ctx wallet localMaxClockVal node e node') ∧
      ∃ node' result, result ≠ .success ∧
        syncFetchedCNodeUser ctx wallet localMaxClockVal node e = (node', some result) ∧
        (Throws ctx wallet localMaxClockVal node e ∧
            node'.db = node.db.fixInconsistentUser e.cnodeUserUUID ∨
          ¬ Throws ctx wallet localMaxClockVal node e ∧ node'.db = node.db)) := by
  by_cases hnew : ∃ clockRecords, NewData wallet localMaxClockVal e clockRecords
  · obtain ⟨clockRecords, hnew⟩ := hnew
    have himports : ∀ {node'}, Imports ctx wallet localMaxClockVal node e node' →
        ∃ db cnodeUserUUID rows, Commits ctx node wallet e clockRecords db cnodeUserUUID rows := by
      rintro node' ⟨records, db, cnodeUserUUID, rows, hnew', hcommits, -⟩
      cases hnew'.clockRecords.symm.trans hnew.clockRecords
      exact ⟨db, cnodeUserUUID, rows, hcommits⟩
    have hcases := syncTransaction_cases ctx wallet e node clockRecords
    rcases hend : syncTransaction ctx node wallet e clockRecords with ⟨node', transactionEnd⟩
    rw [hend] at hcases
    obtain ⟨hdb, hcommits | ⟨hopen, result, hresult, rfl⟩ | ⟨hclosed, hnone, message, rfl⟩⟩ := hcases
    · obtain ⟨db, cnodeUserUUID, rows, hcommits, heq⟩ := hcommits
      cases heq
      exact .inr (.inl ⟨_, ⟨clockRecords, db, cnodeUserUUID, rows, hnew, hcommits, rfl⟩,
        hnew.sync hend⟩)
    · have hnot : ¬ ∃ node', Imports ctx wallet localMaxClockVal node e node' := by
        rintro ⟨node', h⟩
        obtain ⟨_, _, _, hcommits⟩ := himports h
        exact hcommits.not_leavesOpen hopen
      exact .inr (.inr ⟨hnew.not_upToDate, hnot, node', result, hresult, hnew.sync hend,
        .inr ⟨fun h ↦ h.2.1 hopen, hdb⟩⟩)
    · have hnot : ¬ ∃ node', Imports ctx wallet localMaxClockVal node e node' := by
        rintro ⟨node', h⟩
        exact hnone (himports h)
      refine .inr (.inr ⟨hnew.not_upToDate, hnot, _, _, ?_, hnew.sync hend,
        .inl ⟨⟨⟨clockRecords, hnew⟩, hclosed, hnot⟩, ?_⟩⟩)
      · decide
      · show node'.db.fixInconsistentUser e.cnodeUserUUID = _
        rw [hdb]
  · have hnot : ¬ ∃ node', Imports ctx wallet localMaxClockVal node e node' := by
      rintro ⟨node', clockRecords, _, _, _, h, -⟩
      exact hnew ⟨clockRecords, h⟩
    have hthrows : ¬ Throws ctx wallet localMaxClockVal node e := fun h ↦ hnew h.1
    by_cases hwallet : e.walletPublicKey = some wallet
    · cases hrecords : e.clockRecords with
      | none =>
        refine .inr (.inr ⟨fun h ↦ ?_, hnot, node, .failure_sync_secondary_from_primary, by decide,
          ?_, .inr ⟨hthrows, rfl⟩⟩)
        · have := h.clockRecords
          rw [hrecords] at this
          cases this
        · rw [syncFetchedCNodeUser, if_neg (not_not.mpr hwallet), hrecords]
      | some clockRecords =>
        cases hcheck : checkClocks localMaxClockVal e.clock
            (clockRecords.map ClockRecord.clock) with
        | none => exact absurd ⟨clockRecords, hwallet, hrecords, hcheck⟩ hnew
        | some result =>
          by_cases hsuccess : result = .success
          · rw [hsuccess] at hcheck
            have hsame : UpToDate wallet localMaxClockVal e :=
              ⟨hwallet, by rw [hrecords]; rfl, checkClocks_eq_success.mp hcheck⟩
            exact .inl ⟨hsame, hsame.sync⟩
          · refine .inr (.inr ⟨fun h ↦ hsuccess ?_, hnot, node, result, hsuccess, ?_,
              .inr ⟨hthrows, rfl⟩⟩)
            · rw [checkClocks_eq_success.mpr h.clock] at hcheck
              exact (Option.some.inj hcheck).symm
            · rw [syncFetchedCNodeUser, if_neg (not_not.mpr hwallet), hrecords]
              simp only [hcheck]
    · refine .inr (.inr ⟨fun h ↦ hwallet h.walletPublicKey, hnot, node, .failure_malformed_export,
        by decide, ?_, .inr ⟨hthrows, rfl⟩⟩)
      rw [syncFetchedCNodeUser, if_pos hwallet]

theorem Imports.sync (h : Imports ctx wallet localMaxClockVal node e node') :
    syncFetchedCNodeUser ctx wallet localMaxClockVal node e = (node', none) := by
  obtain ⟨clockRecords, db, cnodeUserUUID, rows, hnew, hcommits, rfl⟩ := h
  exact hnew.sync hcommits.syncTransaction

theorem Imports.not_upToDate (h : Imports ctx wallet localMaxClockVal node e node') :
    ¬ UpToDate wallet localMaxClockVal e := by
  obtain ⟨_, _, _, _, hnew, -, -⟩ := h
  exact hnew.not_upToDate

theorem Imports.unique {node1 node2 : Secondary}
    (h1 : Imports ctx wallet localMaxClockVal node e node1)
    (h2 : Imports ctx wallet localMaxClockVal node e node2) : node1 = node2 := by
  have heq := h1.sync.symm.trans h2.sync
  exact congrArg Prod.fst heq

/-! ### The bundles of a response -/

variable (ctx wallet localMaxClockVal) in
/-- A call succeeds exactly when all bundles are accepted. -/
theorem syncFetchedCNodeUsers_eq_success :
    ∀ node : Secondary,
      (syncFetchedCNodeUsers ctx wallet localMaxClockVal node fetched).2 = .success ↔
        Accepted ctx wallet localMaxClockVal node fetched := by
  induction fetched with
  | nil => exact fun node ↦ iff_of_true rfl .nil
  | cons e rest ih =>
    intro node
    rw [syncFetchedCNodeUsers]
    obtain ⟨hsame, heq⟩ | ⟨node', himports, heq⟩ | ⟨hsame, hnone, node', result, hresult, heq, -⟩ :=
      syncFetchedCNodeUser_cases ctx wallet localMaxClockVal node e
    · rw [heq]
      refine (ih node).trans ⟨.upToDate hsame, fun h ↦ ?_⟩
      cases h with
      | upToDate _ hrest => exact hrest
      | imported himports _ => exact absurd hsame himports.not_upToDate
    · rw [heq]
      refine (ih node').trans ⟨.imported himports, fun h ↦ ?_⟩
      cases h with
      | upToDate hsame _ => exact absurd hsame himports.not_upToDate
      | imported himports' hrest =>
        rw [himports.unique himports']
        exact hrest
    · rw [heq]
      refine iff_of_false hresult fun h ↦ ?_
      cases h with
      | upToDate h _ => exact hsame h
      | imported h _ => exact hnone ⟨_, h⟩

variable (ctx wallet) in
/-- A user with the wallet was written in this call. -/
def Touched (db : Database) : Prop :=
  ∃ user ∈ db.cnodeUsers, user.walletPublicKey = wallet ∧ user.updatedAt = ctx.now

theorem SavesUser.touched {cnodeUserUUID : UUID} (h : SavesUser ctx db wallet e db' cnodeUserUUID) :
    Touched ctx wallet db' := by
  cases h with
  | @updated user hfind _ =>
    have hwallet : user.walletPublicKey = wallet := by simpa using find?_some hfind
    exact ⟨_, mem_map.mpr ⟨_, mem_of_find?_eq_some hfind, if_pos hwallet⟩, hwallet, rfl⟩
  | created => exact ⟨_, mem_append_right _ (mem_singleton_self _), rfl, rfl⟩

theorem Imports.touched (h : Imports ctx wallet localMaxClockVal node e node') :
    Touched ctx wallet node'.db := by
  obtain ⟨_, db, _, rows, -, hcommits, rfl⟩ := h
  exact hcommits.user.touched

theorem Touched.fixInconsistentUser (h : Touched ctx wallet db) (uuid : UUID) :
    Touched ctx wallet (db.fixInconsistentUser uuid) := by
  unfold Database.fixInconsistentUser
  split
  · exact h
  · obtain ⟨user, huser, hwallet, hnow⟩ := h
    refine ⟨_, mem_map.mpr ⟨user, huser, rfl⟩, ?_, ?_⟩
    · split
      · exact hwallet
      · exact hwallet
    · split
      · exact hnow
      · exact hnow

/-- The users of `db'` are those of `db`, and the wallet's if one is created. -/
def KeepsUsers (newUUID : UUID) (wallet : Wallet) (db db' : Database) : Prop :=
  ∀ user ∈ db'.cnodeUsers,
    user.cnodeUserUUID = newUUID ∧ user.walletPublicKey = wallet ∨
      ∃ other ∈ db.cnodeUsers, other.cnodeUserUUID = user.cnodeUserUUID ∧
        other.walletPublicKey = user.walletPublicKey

theorem KeepsUsers.refl (newUUID : UUID) (wallet : Wallet) (db : Database) :
    KeepsUsers newUUID wallet db db :=
  fun user huser ↦ .inr ⟨user, huser, rfl, rfl⟩

theorem KeepsUsers.trans {newUUID : UUID} {db'' : Database} (h : KeepsUsers newUUID wallet db db')
    (h' : KeepsUsers newUUID wallet db' db'') :
    KeepsUsers newUUID wallet db db'' := by
  intro user huser
  rcases h' user huser with hnew | ⟨other, hother, huuid, hwallet⟩
  · exact .inl hnew
  · rw [← huuid, ← hwallet]
    exact h other hother

theorem SavesUser.keepsUsers {cnodeUserUUID : UUID}
    (h : SavesUser ctx db wallet e db' cnodeUserUUID) :
    KeepsUsers ctx.newUUID wallet db db' := by
  intro user huser
  cases h with
  | updated _ _ =>
    obtain ⟨other, hother, rfl⟩ := mem_map.mp huser
    refine .inr ⟨other, hother, ?_⟩
    split
    · exact ⟨rfl, rfl⟩
    · exact ⟨rfl, rfl⟩
  | created =>
    rcases mem_append.mp huser with hold | hnew
    · exact KeepsUsers.refl _ _ db user hold
    · rw [mem_singleton.mp hnew]
      exact .inl ⟨rfl, rfl⟩

theorem keepsUsers_fixInconsistentUser (newUUID : UUID) (wallet : Wallet) (db : Database)
    (uuid : UUID) : KeepsUsers newUUID wallet db (db.fixInconsistentUser uuid) := by
  unfold Database.fixInconsistentUser
  split
  · exact KeepsUsers.refl newUUID wallet db
  · intro user huser
    obtain ⟨other, hother, rfl⟩ := mem_map.mp huser
    refine .inr ⟨other, hother, ?_⟩
    split
    · exact ⟨rfl, rfl⟩
    · exact ⟨rfl, rfl⟩

/-- What a bundle does to the table of users. -/
theorem syncFetchedCNodeUser_users (ctx : SyncContext) (wallet : Wallet) (localMaxClockVal : ℤ)
    (node : Secondary) (e : FetchedCNodeUser) :
    KeepsUsers ctx.newUUID wallet node.db
        (syncFetchedCNodeUser ctx wallet localMaxClockVal node e).1.db ∧
      (Touched ctx wallet node.db → Touched ctx wallet
        (syncFetchedCNodeUser ctx wallet localMaxClockVal node e).1.db) := by
  obtain ⟨-, heq⟩ | ⟨node', himports, heq⟩ | ⟨-, -, node', result, -, heq, ⟨-, hdb⟩ | ⟨-, hdb⟩⟩ :=
    syncFetchedCNodeUser_cases ctx wallet localMaxClockVal node e
  · rw [heq]
    exact ⟨KeepsUsers.refl _ _ _, id⟩
  · rw [heq]
    refine ⟨?_, fun _ ↦ himports.touched⟩
    obtain ⟨_, db, _, rows, -, hcommits, rfl⟩ := himports
    exact hcommits.user.keepsUsers
  · rw [heq]
    rw [hdb]
    exact ⟨keepsUsers_fixInconsistentUser _ _ _ _, fun h ↦ h.fixInconsistentUser _⟩
  · rw [heq]
    rw [hdb]
    exact ⟨KeepsUsers.refl _ _ _, id⟩

variable (ctx wallet localMaxClockVal) in
/-- What a response does to the table of users. -/
theorem syncFetchedCNodeUsers_users :
    ∀ node : Secondary,
      KeepsUsers ctx.newUUID wallet node.db
          (syncFetchedCNodeUsers ctx wallet localMaxClockVal node fetched).1.db ∧
        (Touched ctx wallet node.db → Touched ctx wallet
          (syncFetchedCNodeUsers ctx wallet localMaxClockVal node fetched).1.db) := by
  induction fetched with
  | nil => exact fun node ↦ ⟨KeepsUsers.refl _ _ _, id⟩
  | cons e rest ih =>
    intro node
    have hone := syncFetchedCNodeUser_users ctx wallet localMaxClockVal node e
    rw [syncFetchedCNodeUsers]
    rcases heq : syncFetchedCNodeUser ctx wallet localMaxClockVal node e with
      ⟨node', _ | result⟩
    · rw [heq] at hone
      exact ⟨hone.1.trans (ih node').1, fun h ↦ (ih node').2 (hone.2 h)⟩
    · rw [heq] at hone
      exact hone

/-! ### The wallet's rows -/

theorem ofWallet_fixInconsistentUser (db : Database) (wallet : Wallet) (userUUID uuid : UUID) :
    (db.fixInconsistentUser userUUID).ofWallet wallet uuid = db.ofWallet wallet uuid := by
  unfold Database.fixInconsistentUser
  split
  · rfl
  · unfold Database.ofWallet
    rw [any_map]
    congr 1
    funext user
    simp only [Function.comp_apply]
    split
    · rfl
    · rfl

/-- The repair leaves the rows of a wallet alone exactly when it is harmless. -/
theorem walletRows_fixInconsistentUser {userUUID : UUID} :
    (db.fixInconsistentUser userUUID).walletRows wallet = db.walletRows wallet ↔
      RepairHarmless wallet db userUUID := by
  have hrest : (db.fixInconsistentUser userUUID).walletRows wallet = db.walletRows wallet ↔
      (db.fixInconsistentUser userUUID).cnodeUsers.filter (·.walletPublicKey = wallet)
        = db.cnodeUsers.filter (·.walletPublicKey = wallet) := by
    unfold Database.walletRows
    simp only [ofWallet_fixInconsistentUser, WalletRows.mk.injEq]
    unfold Database.fixInconsistentUser
    split
    · simp
    · simp
  rw [hrest]
  unfold Database.fixInconsistentUser RepairHarmless
  cases hmax : db.maxClock userUUID with
  | none => simp
  | some maxClock =>
    rw [filter_map]
    have hcomp : ((fun user : CNodeUser ↦ decide (user.walletPublicKey = wallet)) ∘
        fun user : CNodeUser ↦ if user.cnodeUserUUID = userUUID then
          { user with clock := maxClock } else user)
        = fun user : CNodeUser ↦ decide (user.walletPublicKey = wallet) := by
      funext user
      simp only [Function.comp_apply]
      split
      · rfl
      · rfl
    rw [hcomp]
    nth_rewrite 2 [← map_id (db.cnodeUsers.filter _)]
    rw [map_inj_left]
    constructor
    · intro h user huser hwallet huuid other hother
      cases hother
      have := h user (mem_filter.mpr ⟨huser, decide_eq_true hwallet⟩)
      rw [if_pos huuid] at this
      exact (congrArg CNodeUser.clock this).symm
    · intro h user huser
      obtain ⟨huser, hwallet⟩ := mem_filter.mp huser
      split
      · next huuid =>
        rw [← h user huser (of_decide_eq_true hwallet) huuid maxClock rfl]
        rfl
      · rfl

/-- A call that has written the wallet's user has changed its rows. -/
theorem Touched.walletRows_ne (h : Touched ctx wallet db')
    (hnow : ∀ user ∈ db.cnodeUsers, user.updatedAt ≠ ctx.now) :
    db'.walletRows wallet ≠ db.walletRows wallet := by
  intro heq
  obtain ⟨user, huser, hwallet, hupdated⟩ := h
  have hmem : user ∈ (db'.walletRows wallet).cnodeUsers :=
    mem_filter.mpr ⟨huser, decide_eq_true hwallet⟩
  rw [heq] at hmem
  exact hnow user (mem_of_mem_filter hmem) hupdated

/-- The bundles leave the wallet's rows alone, if the call fails, exactly when they are clean. -/
theorem syncFetchedCNodeUsers_unchanged_iff
    (hnow : ∀ user ∈ node.db.cnodeUsers, user.updatedAt ≠ ctx.now) :
    ((syncFetchedCNodeUsers ctx wallet localMaxClockVal node fetched).2 ≠ .success →
      (syncFetchedCNodeUsers ctx wallet localMaxClockVal node fetched).1.db.walletRows wallet
        = node.db.walletRows wallet) ↔ Clean ctx wallet localMaxClockVal node fetched := by
  induction fetched with
  | nil => exact iff_of_true (fun h ↦ absurd rfl h) .nil
  | cons e rest ih =>
    rw [syncFetchedCNodeUsers]
    obtain ⟨hsame, heq⟩ | ⟨node', himports, heq⟩ |
        ⟨hsame, hnone, node', result, hresult, heq, hdb⟩ :=
      syncFetchedCNodeUser_cases ctx wallet localMaxClockVal node e
    · rw [heq]
      refine ih.trans ⟨.upToDate hsame, fun h ↦ ?_⟩
      cases h with
      | upToDate _ hrest => exact hrest
      | imported himports _ => exact absurd hsame himports.not_upToDate
      | refused hnot _ _ => exact absurd hsame hnot
    · rw [heq]
      -- The user is written, so the rows are as before only if nothing fails.
      have htouched :=
        (syncFetchedCNodeUsers_users ctx wallet localMaxClockVal rest node').2 himports.touched
      have hsuccess := syncFetchedCNodeUsers_eq_success ctx wallet localMaxClockVal rest node'
      constructor
      · intro h
        apply Clean.imported himports
        apply hsuccess.mp
        by_contra hfailed
        exact htouched.walletRows_ne hnow (h hfailed)
      · intro h hfailed
        cases h with
        | upToDate hsame _ => exact absurd hsame himports.not_upToDate
        | imported himports' hrest =>
          rw [← himports.unique himports'] at hrest
          exact absurd (hsuccess.mpr hrest) hfailed
        | refused _ hnone _ => exact absurd ⟨node', himports⟩ hnone
    · rw [heq]
      have hunchanged : node'.db.walletRows wallet = node.db.walletRows wallet ↔
          (Throws ctx wallet localMaxClockVal node e →
            RepairHarmless wallet node.db e.cnodeUserUUID) := by
        rcases hdb with ⟨hthrows, hdb⟩ | ⟨hthrows, hdb⟩
        · rw [hdb, walletRows_fixInconsistentUser]
          exact ⟨fun h _ ↦ h, fun h ↦ h hthrows⟩
        · rw [hdb]
          exact iff_of_true rfl fun h ↦ absurd h hthrows
      constructor
      · intro h
        exact .refused hsame hnone (hunchanged.mp (h hresult))
      · intro h _
        cases h with
        | upToDate hsame' _ => exact absurd hsame' hsame
        | imported himports _ => exact absurd ⟨_, himports⟩ hnone
        | refused _ _ hharmless => exact hunchanged.mpr hharmless

/-! ### The deletion -/

/-- Deleting a user's rows succeeds exactly when it is refused nowhere, and deletes the user. -/
theorem deleteAllCNodeUserData_cases (db : Database) (uuid : UUID) :
    (Deletable db uuid ∧ ∃ db', db.deleteAllCNodeUserData uuid = .ok db' ∧
      db'.cnodeUsers = db.cnodeUsers.filter (·.cnodeUserUUID ≠ uuid)) ∨
    (¬ Deletable db uuid ∧ ∃ message, db.deleteAllCNodeUserData uuid = .error message) := by
  by_cases hdeletable : Deletable db uuid
  · have hlists : db.contentLists.all (·.cnodeUserUUID ≠ uuid) = true := by
      simpa using hdeletable.contentLists
    refine .inl ⟨hdeletable, ?_⟩
    exact ⟨_, bind_eq_ok.mpr ⟨_, require_bind_eq_ok.mpr
        ⟨hdeletable.digitalContentFiles, rfl⟩, bind_eq_ok.mpr
      ⟨_, require_bind_eq_ok.mpr ⟨hdeletable.files, rfl⟩,
        require_bind_eq_ok.mpr ⟨hlists, rfl⟩⟩⟩, rfl⟩
  · refine .inr ⟨hdeletable, ?_⟩
    cases hdelete : db.deleteAllCNodeUserData uuid with
    | error message => exact ⟨message, rfl⟩
    | ok db' =>
      unfold Database.deleteAllCNodeUserData Database.destroyFiles at hdelete
      obtain ⟨db1, h1, hdelete⟩ := bind_eq_ok.mp hdelete
      rw [require_bind_eq_ok, pure_eq_ok] at h1
      obtain ⟨hcontents, rfl⟩ := h1
      obtain ⟨db2, h2, hdelete⟩ := bind_eq_ok.mp hdelete
      rw [require_bind_eq_ok, pure_eq_ok] at h2
      obtain ⟨hfiles, rfl⟩ := h2
      rw [require_bind_eq_ok] at hdelete
      exact absurd ⟨hcontents, hfiles, by simpa using hdelete.1⟩ hdeletable

/-- What is there when the response comes: without the wallet's user, or as it was. -/
theorem beforeFetch_cases (db : Database) (wallet : Wallet) (forceResync : Bool) :
    (forceResync = true ∧ Wipeable wallet db ∧
      ∃ user ∈ db.cnodeUsers, user.walletPublicKey = wallet ∧
        ∀ other ∈ (db.deleteAllCNodeUserDataFromDB wallet).cnodeUsers,
          other.cnodeUserUUID ≠ user.cnodeUserUUID) ∨
    (¬ (forceResync = true ∧ Wipeable wallet db) ∧
      (beforeFetch db wallet forceResync).1 = db) := by
  cases forceResync with
  | false => exact .inr ⟨fun h ↦ Bool.false_ne_true h.1, rfl⟩
  | true =>
    rw [beforeFetch, if_pos rfl]
    unfold Database.deleteAllCNodeUserDataFromDB
    cases hfind : db.findCNodeUser wallet with
    | none =>
      refine .inr ⟨?_, rfl⟩
      rintro ⟨-, user, hsome, -⟩
      rw [hfind] at hsome
      cases hsome
    | some user =>
      obtain ⟨hdeletable, db', hdelete, husers⟩ | ⟨hnot, message, hdelete⟩ :=
        deleteAllCNodeUserData_cases db user.cnodeUserUUID
      · refine .inl ⟨rfl, ⟨user, hfind, hdeletable⟩, user, mem_of_find?_eq_some hfind,
          by simpa using find?_some hfind, ?_⟩
        intro other hother
        simp only [hdelete, husers] at hother
        simpa using (mem_filter.mp hother).2
      · refine .inr ⟨?_, ?_⟩
        · rintro ⟨-, user', hsome, hdeletable⟩
          cases hfind.symm.trans hsome
          exact hnot hdeletable
        · simp only [hdelete]

/-- The bundles of a response, if it has any, are all that can be written. -/
theorem syncFromResponse_cases (ctx : SyncContext) (wallet : Wallet) (localMaxClockVal : ℤ)
    (node : Secondary) (response : ExportResponse) :
    (∃ fetched, response = .cnodeUsers fetched) ∨
    ((∀ fetched, response ≠ .cnodeUsers fetched) ∧ ∃ result, result ≠ .success ∧
      syncFromResponse ctx wallet localMaxClockVal node response = (node, result)) := by
  cases response with
  | cnodeUsers fetched => exact .inl ⟨fetched, rfl⟩
  | rejected | status | noBody | noData | noCNodeUsers =>
    refine .inr ⟨fun fetched h ↦ ?_, _, ?_, rfl⟩
    · cases h
    · decide

/-- A response changes the rows of a wallet, if the call fails with it, exactly when its bundles
are not clean. -/
theorem syncFromResponse_unchanged_iff (response : ExportResponse)
    (hnow : ∀ user ∈ node.db.cnodeUsers, user.updatedAt ≠ ctx.now) :
    ((syncFromResponse ctx wallet localMaxClockVal node response).2 ≠ .success →
      (syncFromResponse ctx wallet localMaxClockVal node response).1.db.walletRows wallet
        = node.db.walletRows wallet) ↔
    ∀ fetched, response = .cnodeUsers fetched →
      Clean ctx wallet localMaxClockVal node fetched := by
  obtain ⟨fetched, rfl⟩ | ⟨hnone, result, -, heq⟩ :=
    syncFromResponse_cases ctx wallet localMaxClockVal node response
  · refine (syncFetchedCNodeUsers_unchanged_iff fetched hnow).trans ⟨?_, fun h ↦ h fetched rfl⟩
    intro h other hother
    cases hother
    exact h
  · rw [heq]
    exact iff_of_true (fun _ ↦ rfl) fun fetched h ↦ absurd h (hnone fetched)

theorem handleSyncFromPrimary_eq (hlock : ctx.lockAcquired = true)
    (response : ℤ → ExportResponse) (forceResync : Bool) :
    handleSyncFromPrimary ctx node wallet response forceResync
      = syncFromResponse ctx wallet (beforeFetch node.db wallet forceResync).2
          { node with db := (beforeFetch node.db wallet forceResync).1 }
          (response (beforeFetch node.db wallet forceResync).2) := by
  unfold handleSyncFromPrimary
  rw [hlock]
  rfl

/-- After a user of the wallet is deleted, and as none that is created has its UUID, the rows are
as before only if the call does not fail. -/
theorem syncFromResponse_wiped_iff {user : CNodeUser} {response : ExportResponse}
    (huser : user ∈ db.cnodeUsers) (hwallet : user.walletPublicKey = wallet)
    (hgone : ∀ other ∈ node.db.cnodeUsers, other.cnodeUserUUID ≠ user.cnodeUserUUID)
    (hnew : user.cnodeUserUUID ≠ ctx.newUUID) :
    ((syncFromResponse ctx wallet localMaxClockVal node response).2 ≠ .success →
      (syncFromResponse ctx wallet localMaxClockVal node response).1.db.walletRows wallet
        = db.walletRows wallet) ↔
    ∃ fetched, response = .cnodeUsers fetched ∧
      Accepted ctx wallet localMaxClockVal node fetched := by
  have hchanged : ∀ db' : Database, KeepsUsers ctx.newUUID wallet node.db db' →
      db'.walletRows wallet ≠ db.walletRows wallet := by
    intro db' hkeeps heq
    have hmem : user ∈ (db.walletRows wallet).cnodeUsers :=
      mem_filter.mpr ⟨huser, decide_eq_true hwallet⟩
    rw [← heq] at hmem
    rcases hkeeps user (mem_of_mem_filter hmem) with hcreated | ⟨other, hother, hsame, -⟩
    · exact hnew hcreated.1
    · exact hgone other hother hsame
  obtain ⟨fetched, rfl⟩ | ⟨hnone, result, hresult, heq⟩ :=
    syncFromResponse_cases ctx wallet localMaxClockVal node response
  · have hsuccess := syncFetchedCNodeUsers_eq_success ctx wallet localMaxClockVal fetched node
    have husers := (syncFetchedCNodeUsers_users ctx wallet localMaxClockVal fetched node).1
    constructor
    · intro h
      refine ⟨fetched, rfl, hsuccess.mp ?_⟩
      by_contra hfailed
      exact hchanged _ husers (h hfailed)
    · rintro ⟨other, hother, haccepted⟩ hfailed
      cases hother
      exact absurd (hsuccess.mpr haccepted) hfailed
  · rw [heq]
    refine iff_of_false (fun h ↦ hchanged _ (KeepsUsers.refl _ _ _) (h hresult)) ?_
    rintro ⟨fetched, hfetched, -⟩
    exact hnone fetched hfetched

/-- A call that fails leaves the wallet's rows as they were exactly when it fails cleanly. -/
theorem handleSyncFromPrimary_unchanged_iff (ctx : SyncContext) (node : Secondary) (wallet : Wallet)
    (response : ℤ → ExportResponse) (forceResync : Bool)
    (hnow : ∀ user ∈ node.db.cnodeUsers, user.updatedAt ≠ ctx.now)
    (hnew : ∀ user ∈ node.db.cnodeUsers, user.cnodeUserUUID ≠ ctx.newUUID) :
    ((handleSyncFromPrimary ctx node wallet response forceResync).2 ≠ .success →
      (handleSyncFromPrimary ctx node wallet response forceResync).1.db.walletRows wallet
        = node.db.walletRows wallet) ↔
    FailsCleanly ctx wallet node response forceResync := by
  unfold FailsCleanly
  cases hlock : ctx.lockAcquired with
  | false =>
    unfold handleSyncFromPrimary
    rw [hlock]
    exact iff_of_true (fun _ ↦ rfl) fun h ↦ absurd h Bool.false_ne_true
  | true =>
    rw [handleSyncFromPrimary_eq hlock]
    obtain ⟨hforce, hwipe, user, huser, hwallet, hgone⟩ | ⟨hkept, hsame⟩ :=
      beforeFetch_cases node.db wallet forceResync
    · have hwiped : beforeFetch node.db wallet forceResync
          = (node.db.deleteAllCNodeUserDataFromDB wallet, -1) := if_pos hforce
      rw [hwiped]
      refine (syncFromResponse_wiped_iff huser hwallet hgone (hnew user huser)).trans ?_
      exact ⟨fun h _ ↦ ⟨fun _ ↦ h, fun hkept ↦ absurd ⟨hforce, hwipe⟩ hkept⟩,
        fun h ↦ (h rfl).1 ⟨hforce, hwipe⟩⟩
    · rw [hsame]
      refine (syncFromResponse_unchanged_iff _ hnow).trans ?_
      exact ⟨fun h _ ↦ ⟨fun hwipe ↦ absurd hwipe hkept, fun _ ↦ h⟩, fun h ↦ (h rfl).2 hkept⟩

/-! ### A wallet with one row -/

/-- A user whose clock is 1, with its clock record and a coliving user's metadata file. -/
def oneFile : Database where
  cnodeUsers := [⟨"u", "0xa", none, 7, 1, 100, 100⟩]
  clockRecords := [⟨"u", 1, .File⟩]
  files := [⟨"f", "u", none, "Qm1", none, none, none, "/file_storage/Qm1", some .metadata, 1, false⟩]
  digitalContents := []
  colivingUsers := []
  contentLists := []
  sessionTokens := []

/-- A context in which the lock is acquired and all files can be fetched. -/
def allFetched : SyncContext where
  nodeSyncFileSaveMaxConcurrency := 10
  syncRequestMaxUserFailureCountBeforeSkip := 10
  lockAcquired := true
  saveFileForMultihashToFS _ := true
  now := 200
  newUUID := "v"

/-- With `forceResync` the rows are deleted although the export is not fetched. -/
theorem forced_resync_loses_rows :
    ¬ ((handleSyncFromPrimary allFetched ⟨oneFile, fun _ ↦ none⟩ "0xa" (fun _ ↦ .rejected) true).2
        ≠ .success →
      (handleSyncFromPrimary allFetched ⟨oneFile, fun _ ↦ none⟩ "0xa" (fun _ ↦ .rejected)
        true).1.db.walletRows "0xa" = oneFile.walletRows "0xa") := by
  decide +kernel

/-- The same call without `forceResync` fails cleanly. -/
theorem unforced_resync_keeps_rows :
    (handleSyncFromPrimary allFetched ⟨oneFile, fun _ ↦ none⟩ "0xa" (fun _ ↦ .rejected)
      false).1.db.walletRows "0xa" = oneFile.walletRows "0xa" := by
  apply (handleSyncFromPrimary_unchanged_iff allFetched ⟨oneFile, fun _ ↦ none⟩ "0xa"
    (fun _ ↦ .rejected) false (by decide) (by decide)).mpr
  · exact fun _ ↦ ⟨fun h ↦ absurd h.1 Bool.false_ne_true, fun _ _ h ↦ nomatch h⟩
  · decide

end ColivingSpec
