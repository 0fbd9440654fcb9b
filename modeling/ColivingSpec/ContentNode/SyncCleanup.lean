import ColivingSpec.ContentNode.SyncResources
import ColivingSpec.Lib.Brackets

/-!
# What a sync closes

A call brings its transactions to an end and gives its locks back unless the lock of a later
wallet is not acquired, or the call returns between the opening of a transaction and its end:
more than one row has the wallet, or too few failures have been counted.
-/

namespace ColivingSpec

open Lib List Option

/-- The transaction that an action is about. -/
def SyncAction.transaction : SyncAction → Option SyncTransaction
  | .acquired _ => none
  | .released _ => none
  | .began transaction => some transaction
  | .committed transaction => some transaction
  | .rolledBack transaction => some transaction

/-- The wallet whose lock an action is about. -/
def SyncAction.lock : SyncAction → Option Wallet
  | .acquired wallet => some wallet
  | .released wallet => some wallet
  | .began _ => none
  | .committed _ => none
  | .rolledBack _ => none

variable (log : List SyncAction)

/-- Each transaction that begins is then committed or rolled back, once. -/
def ClosesTransactions : Prop :=
  Bracketed SyncAction.transaction .began
    (fun transaction entries ↦ entries = [.began transaction, .committed transaction] ∨
      entries = [.began transaction, .rolledBack transaction]) log

/-- The last that happens to each lock acquired is its release. -/
def ReleasesLocks : Prop :=
  Bracketed SyncAction.lock .acquired
    (fun wallet entries ↦ entries.getLast? = some (.released wallet)) log

/-- All transactions begun are brought to an end, and all locks acquired are released. -/
structure ClosesWhatItOpened (log : List SyncAction) : Prop where
  transactions : ClosesTransactions log
  locks : ReleasesLocks log

/-! ### When it does -/

section Conditions

variable (ctx : SyncContext) (answers : SyncAnswers) (walletPublicKeys : List Wallet)
  (localMaxClockVal : ℤ)

variable (i : ℕ)

/-- The locks of all wallets are acquired. -/
def AcquiresAll : Prop :=
  ∀ j wallet, walletPublicKeys[j]? = some wallet → answers.acquires (i + j) wallet = true

/-- The transaction for a bundle comes to its commit. -/
def CanCommit (bundle : BundleAnswers) (node : Secondary) (wallet : Wallet)
    (e : FetchedCNodeUser) (clockRecords : List ClockRecord) : Prop :=
  bundle.savesUser = true ∧ bundle.savesRows = true ∧
    ∃ db cnodeUserUUID rows, Commits ctx node wallet e clockRecords db cnodeUserUUID rows

/-- The transaction for a bundle is brought to an end: it is not one that is left open, and its
commit, or its rollback if it throws, goes through. -/
structure BringsToEnd (bundle : BundleAnswers) (node : Secondary) (wallet : Wallet)
    (e : FetchedCNodeUser) (clockRecords : List ClockRecord) : Prop where
  notLeftOpen : bundle.savesUser = true → ¬ LeavesOpen ctx node wallet e
  commits : CanCommit ctx bundle node wallet e clockRecords → bundle.commits = true
  rollsBack : ¬ CanCommit ctx bundle node wallet e clockRecords → bundle.rollsBack = true

/-- The `i`-th bundle is written. -/
structure Writes (i : ℕ) (node : Secondary) (e : FetchedCNodeUser) (node' : Secondary) : Prop where
  opens : (answers.bundle i).opens = true
  savesUser : (answers.bundle i).savesUser = true
  savesRows : (answers.bundle i).savesRows = true
  commits : (answers.bundle i).commits = true
  imports : ∃ wallet ∈ walletPublicKeys, Imports ctx wallet localMaxClockVal node e node'

/-- The call goes on after the `i`-th bundle: it is up to date or written. -/
def PassesOne (node : Secondary) (e : FetchedCNodeUser) (node' : Secondary) : Prop :=
  ((∃ wallet ∈ walletPublicKeys, UpToDate wallet localMaxClockVal e) ∧ node = node') ∨
    Writes ctx answers walletPublicKeys localMaxClockVal i node e node'

/-- The call goes on after the bundles, of which the first is the `i`-th. -/
inductive Passes : ℕ → Secondary → List FetchedCNodeUser → Secondary → Prop
  | nil {i node} : Passes i node [] node
  | cons {i node e node1 rest node'} :
    PassesOne ctx answers walletPublicKeys localMaxClockVal i node e node1 →
    Passes (i + 1) node1 rest node' → Passes i node (e :: rest) node'

/-- The transaction for the `i`-th bundle, if it is opened, is brought to an end. -/
def BundleEnds (node : Secondary) (e : FetchedCNodeUser) : Prop :=
  ∀ wallet ∈ walletPublicKeys, ∀ clockRecords, NewData wallet localMaxClockVal e clockRecords →
    (answers.bundle i).opens = true →
    BringsToEnd ctx (answers.bundle i) node wallet e clockRecords

/-- The transactions for the bundles that the call comes to are brought to an end. -/
def BundlesEnd (node : Secondary) (fetched : List FetchedCNodeUser) : Prop :=
  ∀ before e after node', fetched = before ++ e :: after →
    Passes ctx answers walletPublicKeys localMaxClockVal i node before node' →
    BundleEnds ctx answers walletPublicKeys localMaxClockVal (i + before.length) node' e

/-- The transaction of the forced deletion is brought to an end. -/
structure DeletionEnds (db : Database) (lookupWallet : Option Wallet) : Prop where
  commits : deletionThrows answers db lookupWallet = false → answers.deletion.commits = true
  rollsBack : deletionThrows answers db lookupWallet = true → answers.deletion.rollsBack = true

variable (node : Secondary) (response : ℤ → ExportResponse) (forceResync : Bool)

/-- The calls that close what they open. The lock of the first wallet is not acquired; or those of
all are, each wallet's release goes through, and so does the end of each transaction. -/
def ClosesAll : Prop :=
  (∃ wallet, walletPublicKeys.head? = some wallet ∧ answers.acquires 0 wallet = false) ∨
  (AcquiresAll answers walletPublicKeys 0 ∧
    (∀ wallet ∈ walletPublicKeys,
      ∃ i, walletPublicKeys[i]? = some wallet ∧ answers.releases i = true) ∧
    (forceResync = true → answers.deletion.opens = true →
      DeletionEnds answers node.db walletPublicKeys.head?) ∧
    ∀ db localMaxClockVal fetched,
      (openBeforeFetch answers node.db walletPublicKeys.head? forceResync).2
        = .ok (db, localMaxClockVal) →
      response localMaxClockVal = .cnodeUsers fetched →
      BundlesEnd ctx answers walletPublicKeys localMaxClockVal 0 { node with db := db } fetched)

end Conditions

/-! ### Locks -/

variable {ctx : SyncContext} {answers : SyncAnswers} {walletPublicKeys : List Wallet}
  {localMaxClockVal : ℤ}

/-- The locks acquired are those of all wallets, or of those before the first that fails. -/
theorem acquireLocks_cases (answers : SyncAnswers) (wallets : List Wallet) :
    ∀ i, (AcquiresAll answers wallets i ∧
        acquireLocks answers i wallets = (wallets.map .acquired, true)) ∨
      ∃ before wallet after, wallets = before ++ wallet :: after ∧
        AcquiresAll answers before i ∧ answers.acquires (i + before.length) wallet = false ∧
        acquireLocks answers i wallets = (before.map .acquired, false) := by
  induction wallets with
  | nil =>
    intro i
    exact .inl ⟨fun j wallet h ↦ by simp at h, rfl⟩
  | cons wallet rest ih =>
    intro i
    unfold acquireLocks
    cases hfirst : answers.acquires i wallet with
    | false =>
      refine .inr ⟨[], wallet, rest, rfl, fun j other h ↦ ?_, hfirst, rfl⟩
      simp at h
    | true =>
      have hcons : ∀ {wallets}, AcquiresAll answers wallets (i + 1) →
          AcquiresAll answers (wallet :: wallets) i := by
        intro wallets h j other hj
        cases j with
        | zero =>
          obtain rfl : wallet = other := by simpa using hj
          exact hfirst
        | succ j =>
          have := h j other (by simpa using hj)
          rwa [show i + (j + 1) = i + 1 + j by omega]
      obtain ⟨hall, heq⟩ | ⟨before, failed, after, rfl, hall, hfails, heq⟩ := ih (i + 1)
      · left
        rw [heq]
        exact ⟨hcons hall, rfl⟩
      · right
        rw [heq]
        refine ⟨wallet :: before, failed, after, rfl, hcons hall, ?_, rfl⟩
        rw [length_cons, show i + (before.length + 1) = i + 1 + before.length by omega]
        exact hfails

variable {wallets : List Wallet} {action : SyncAction} {log : List SyncAction} (t : SyncTransaction)
  (fetched : List FetchedCNodeUser)

theorem mem_releaseLocks :
    ∀ i, action ∈ releaseLocks answers i wallets ↔
      ∃ j wallet, wallets[j]? = some wallet ∧ answers.releases (i + j) = true ∧
        action = .released wallet := by
  induction wallets with
  | nil =>
    intro i
    simp [releaseLocks]
  | cons wallet rest ih =>
    intro i
    have hrest : (∃ j other, rest[j]? = some other ∧ answers.releases (i + 1 + j) = true ∧
          action = .released other) ↔
        ∃ j other, (wallet :: rest)[j + 1]? = some other ∧
          answers.releases (i + (j + 1)) = true ∧ action = .released other := by
      simp only [getElem?_cons_succ, Nat.add_assoc, Nat.add_comm 1]
    unfold releaseLocks
    split
    · next hreleases =>
      rw [mem_cons, ih (i + 1), hrest]
      constructor
      · rintro (rfl | ⟨j, other, h⟩)
        · exact ⟨0, wallet, rfl, hreleases, rfl⟩
        · exact ⟨j + 1, other, h⟩
      · rintro ⟨_ | j, other, hget, h⟩
        · obtain rfl : wallet = other := by simpa using hget
          exact .inl h.2
        · exact .inr ⟨j, other, hget, h⟩
    · next hreleases =>
      rw [ih (i + 1), hrest]
      constructor
      · rintro ⟨j, other, h⟩
        exact ⟨j + 1, other, h⟩
      · rintro ⟨_ | j, other, hget, h⟩
        · exact absurd h.1 hreleases
        · exact ⟨j, other, hget, h⟩

/-! ### One bundle -/

theorem answeredTransaction_cases (ctx : SyncContext) (bundle : BundleAnswers) (node : Secondary)
    (wallet : Wallet) (e : FetchedCNodeUser) (clockRecords : List ClockRecord) :
    (CanCommit ctx bundle node wallet e clockRecords ∧ ∃ db cnodeUserUUID rows,
      Commits ctx node wallet e clockRecords db cnodeUserUUID rows ∧
      answeredTransaction ctx bundle node wallet e clockRecords
        = (node.resetFailureCount wallet, .committed (db.withRows rows))) ∨
    ((bundle.savesUser = true ∧ LeavesOpen ctx node wallet e) ∧ ∃ node' result,
      answeredTransaction ctx bundle node wallet e clockRecords = (node', .leftOpen result)) ∨
    (¬ CanCommit ctx bundle node wallet e clockRecords ∧
      (bundle.savesUser = true → ¬ LeavesOpen ctx node wallet e) ∧ ∃ node' message,
      answeredTransaction ctx bundle node wallet e clockRecords = (node', .threw message)) := by
  unfold answeredTransaction
  cases hsaves : bundle.savesUser with
  | false =>
    refine .inr (.inr ⟨fun h ↦ ?_, fun h ↦ absurd h Bool.false_ne_true, node, _, rfl⟩)
    rw [CanCommit, hsaves] at h
    exact Bool.false_ne_true h.1
  | true =>
    simp only [Bool.not_true, Bool.false_eq_true, if_false]
    have hcases := syncTransaction_cases ctx wallet e node clockRecords
    rcases hend : syncTransaction ctx node wallet e clockRecords with ⟨node', transactionEnd⟩
    rw [hend] at hcases
    obtain ⟨-, hcommits | ⟨hopen, result, -, rfl⟩ | ⟨hclosed, hnone, message, rfl⟩⟩ := hcases
    · obtain ⟨db, cnodeUserUUID, rows, hcommits, heq⟩ := hcommits
      cases heq
      cases hrows : bundle.savesRows with
      | false =>
        refine .inr (.inr ⟨fun h ↦ ?_, fun _ ↦ hcommits.not_leavesOpen, _, _, rfl⟩)
        rw [CanCommit, hrows] at h
        exact Bool.false_ne_true h.2.1
      | true =>
        exact .inl ⟨⟨hsaves, hrows, db, cnodeUserUUID, rows, hcommits⟩, db, cnodeUserUUID, rows,
          hcommits, rfl⟩
    · exact .inr (.inl ⟨⟨trivial, hopen⟩, node', result, rfl⟩)
    · exact .inr (.inr ⟨fun h ↦ hnone h.2.2, fun _ ↦ hclosed, node', message, rfl⟩)

/-- The log is about the transaction of the `i`-th bundle only. -/
def OnBundle (i : ℕ) (log : List SyncAction) : Prop :=
  ∀ action ∈ log, action.transaction = some (.bundle i)

theorem onBundle_committed (i : ℕ) :
    OnBundle i [.began (.bundle i), .committed (.bundle i)] := by
  intro action haction
  simp only [mem_cons, not_mem_nil, or_false] at haction
  obtain rfl | rfl := haction
  · rfl
  · rfl

theorem closes_nil : ClosesTransactions [] := bracketed_nil

theorem closes_append {log' : List SyncAction}
    (hapart : ∀ action ∈ log, ∀ action' ∈ log', ∀ t, action.transaction = some t →
      action'.transaction ≠ some t) :
    ClosesTransactions (log ++ log') ↔ ClosesTransactions log ∧ ClosesTransactions log' :=
  bracketed_append (fun _ ↦ rfl) hapart

theorem not_closes_began : ¬ ClosesTransactions [.began t] := by
  intro h
  have := h t (mem_singleton_self _)
  simp [about, SyncAction.transaction] at this

theorem closes_committed :
    ClosesTransactions [.began t, .committed t] := by
  intro other hother
  obtain rfl : other = t := by simpa using hother
  left
  simp [about, SyncAction.transaction]

theorem closes_rolledBack :
    ClosesTransactions [.began t, .rolledBack t] := by
  intro other hother
  obtain rfl : other = t := by simpa using hother
  right
  simp [about, SyncAction.transaction]

variable {node node' : Secondary} {e : FetchedCNodeUser} {wallet : Wallet}
  {clockRecords : List ClockRecord} {i : ℕ}

/-- The transaction for a bundle: the bundle is written, or the call ends, with the transaction
closed exactly when it is brought to an end. -/
theorem openTransaction_cases (ctx : SyncContext) (answers : SyncAnswers) (node : Secondary) (i : ℕ)
    (hwallet : wallet ∈ walletPublicKeys)
    (hnew : NewData wallet localMaxClockVal e clockRecords) :
    (∃ node', Writes ctx answers walletPublicKeys localMaxClockVal i node e node' ∧
      BringsToEnd ctx (answers.bundle i) node wallet e clockRecords ∧
      openTransaction ctx answers i node wallet e clockRecords
        = ([.began (.bundle i), .committed (.bundle i)], node', none)) ∨
    ((¬ ∃ node', Writes ctx answers walletPublicKeys localMaxClockVal i node e node') ∧
      ∃ log node' result,
        openTransaction ctx answers i node wallet e clockRecords = (log, node', some result) ∧
        OnBundle i log ∧ (ClosesTransactions log ↔ ((answers.bundle i).opens = true →
          BringsToEnd ctx (answers.bundle i) node wallet e clockRecords))) := by
  have hwrites : ∀ {node'}, Writes ctx answers walletPublicKeys localMaxClockVal i node e node' →
      (answers.bundle i).opens = true ∧ (answers.bundle i).commits = true ∧
        CanCommit ctx (answers.bundle i) node wallet e clockRecords := by
    intro node' h
    obtain ⟨other, -, records, db, cnodeUserUUID, rows, hnew', hcommits, -⟩ := h.imports
    obtain rfl : other = wallet :=
      some.inj (hnew'.walletPublicKey.symm.trans hnew.walletPublicKey)
    obtain rfl : records = clockRecords :=
      some.inj (hnew'.clockRecords.symm.trans hnew.clockRecords)
    exact ⟨h.opens, h.commits, h.savesUser, h.savesRows, db, cnodeUserUUID, rows, hcommits⟩
  unfold openTransaction
  cases hopens : (answers.bundle i).opens with
  | false =>
    refine .inr ⟨fun ⟨node', h⟩ ↦ ?_, [], node, _, rfl, (fun _ h ↦ nomatch h),
      iff_of_true closes_nil fun h ↦ absurd h Bool.false_ne_true⟩
    rw [hopens] at hwrites
    exact Bool.false_ne_true (hwrites h).1
  | true =>
    simp only [Bool.not_true, Bool.false_eq_true, if_false]
    have honBegan : OnBundle i [.began (.bundle i)] := by
      intro action haction
      rw [mem_singleton.mp haction]
      rfl
    obtain ⟨hcan, db, cnodeUserUUID, rows, hcommits, heq⟩ | ⟨⟨hsaves, hleft⟩, node', result, heq⟩ |
        ⟨hcannot, hclosed, node', message, heq⟩ :=
      answeredTransaction_cases ctx (answers.bundle i) node wallet e clockRecords
    · rw [heq]
      cases hcommit : (answers.bundle i).commits with
      | false =>
        refine .inr ⟨fun ⟨node', h⟩ ↦ ?_, _, _, _, rfl, honBegan,
          iff_of_false (not_closes_began _) fun h ↦ ?_⟩
        · rw [hcommit] at hwrites
          exact Bool.false_ne_true (hwrites h).2.1
        · have := (h trivial).commits hcan
          rw [hcommit] at this
          exact Bool.false_ne_true this
      | true =>
        have hends : BringsToEnd ctx (answers.bundle i) node wallet e clockRecords :=
          ⟨fun _ ↦ hcommits.not_leavesOpen, fun _ ↦ hcommit, fun hcannot ↦ absurd hcan hcannot⟩
        exact .inl ⟨_, ⟨hopens, hcan.1, hcan.2.1, hcommit, wallet, hwallet, clockRecords, db,
          cnodeUserUUID, rows, hnew, hcommits, rfl⟩, hends, rfl⟩
    · rw [heq]
      refine .inr ⟨fun ⟨node', h⟩ ↦ ?_, _, _, _, rfl, honBegan,
        iff_of_false (not_closes_began _) fun h ↦ (h trivial).notLeftOpen hsaves hleft⟩
      obtain ⟨-, -, -, -, db, cnodeUserUUID, rows, hcommits⟩ := hwrites h
      exact hcommits.not_leavesOpen hleft
    · rw [heq]
      cases hrollsBack : (answers.bundle i).rollsBack with
      | false =>
        refine .inr ⟨fun ⟨node', h⟩ ↦ hcannot (hwrites h).2.2, _, _, _, rfl, honBegan,
          iff_of_false (not_closes_began _) fun h ↦ ?_⟩
        have := (h trivial).rollsBack hcannot
        rw [hrollsBack] at this
        exact Bool.false_ne_true this
      | true =>
        refine .inr ⟨fun ⟨node', h⟩ ↦ hcannot (hwrites h).2.2, _, _, _, rfl, ?_,
          iff_of_true (closes_rolledBack _) fun _ ↦
            ⟨hclosed, fun hcan ↦ absurd hcan hcannot, fun _ ↦ hrollsBack⟩⟩
        intro action haction
        simp only [mem_cons, not_mem_nil, or_false] at haction
        obtain rfl | rfl := haction
        · rfl
        · rfl

section NewData

variable {wallet : Wallet} {walletPublicKeys : List Wallet} {localMaxClockVal : ℤ}
  {e : FetchedCNodeUser} {clockRecords : List ClockRecord}

/-- New data of a wallet that is synced opens a transaction. -/
theorem NewData.openFetchedCNodeUser_eq (hnew : NewData wallet localMaxClockVal e clockRecords)
    (hwallet : wallet ∈ walletPublicKeys) (ctx : SyncContext) (answers : SyncAnswers) (i : ℕ)
    (node : Secondary) :
    openFetchedCNodeUser ctx answers walletPublicKeys localMaxClockVal i node e
      = openTransaction ctx answers i node wallet e clockRecords := by
  rw [openFetchedCNodeUser, hnew.walletPublicKey, hnew.clockRecords]
  simp only [hwallet, not_true_eq_false, if_false, hnew.clocks]

/-- A bundle with new data ends as its transaction does. -/
theorem NewData.bundleEnds_iff (hnew : NewData wallet localMaxClockVal e clockRecords)
    (hwallet : wallet ∈ walletPublicKeys) (ctx : SyncContext) (answers : SyncAnswers) (i : ℕ)
    (node : Secondary) :
    BundleEnds ctx answers walletPublicKeys localMaxClockVal i node e ↔
      ((answers.bundle i).opens = true →
        BringsToEnd ctx (answers.bundle i) node wallet e clockRecords) := by
  constructor
  · exact fun h ↦ h wallet hwallet clockRecords hnew
  · intro h other _ records hother
    obtain rfl : other = wallet :=
      some.inj (hother.walletPublicKey.symm.trans hnew.walletPublicKey)
    obtain rfl : records = clockRecords :=
      some.inj (hother.clockRecords.symm.trans hnew.clockRecords)
    exact h

/-- Data that is new is not up to date, for any wallet. -/
theorem NewData.not_exists_upToDate (hnew : NewData wallet localMaxClockVal e clockRecords) :
    ¬ ∃ other ∈ walletPublicKeys, UpToDate other localMaxClockVal e := by
  rintro ⟨other, -, hsame⟩
  obtain rfl : other = wallet :=
    some.inj (hsame.walletPublicKey.symm.trans hnew.walletPublicKey)
  exact hnew.not_upToDate hsame

end NewData

/-- Without new data the call goes on past a bundle that is up to date and ends with any other; it
opens nothing. -/
theorem openFetchedCNodeUser_of_not_newData {walletPublicKeys : List Wallet}
    {localMaxClockVal : ℤ} {e : FetchedCNodeUser}
    (hnew : ¬ ∃ wallet ∈ walletPublicKeys, ∃ clockRecords,
      NewData wallet localMaxClockVal e clockRecords)
    (ctx : SyncContext) (answers : SyncAnswers) (i : ℕ) (node : Secondary) :
    (∃ wallet ∈ walletPublicKeys, UpToDate wallet localMaxClockVal e) ∧
        openFetchedCNodeUser ctx answers walletPublicKeys localMaxClockVal i node e
          = ([], node, none) ∨
      (¬ ∃ wallet ∈ walletPublicKeys, UpToDate wallet localMaxClockVal e) ∧ ∃ result,
        openFetchedCNodeUser ctx answers walletPublicKeys localMaxClockVal i node e
          = ([], node, some result) := by
  cases hkey : e.walletPublicKey with
  | none =>
    refine .inr ⟨fun ⟨_, _, hsame⟩ ↦ ?_, .failure_malformed_export, ?_⟩
    · have := hsame.walletPublicKey
      rw [hkey] at this
      cases this
    · rw [openFetchedCNodeUser, hkey]
  | some wallet =>
    by_cases hwallet : wallet ∈ walletPublicKeys
    · cases hrecords : e.clockRecords with
      | none =>
        refine .inr ⟨fun ⟨_, _, hsame⟩ ↦ ?_, .failure_sync_secondary_from_primary, ?_⟩
        · have := hsame.clockRecords
          rw [hrecords] at this
          cases this
        · rw [openFetchedCNodeUser, hkey, hrecords]
          simp only [hwallet, not_true_eq_false, if_false]
      | some clockRecords =>
        cases hcheck : checkClocks localMaxClockVal e.clock
            (clockRecords.map ClockRecord.clock) with
        | none => exact absurd ⟨wallet, hwallet, clockRecords, hkey, hrecords, hcheck⟩ hnew
        | some result =>
          by_cases hsuccess : result = .success
          · rw [hsuccess] at hcheck
            refine .inl ⟨⟨wallet, hwallet, hkey, ?_, checkClocks_eq_success.mp hcheck⟩, ?_⟩
            · rw [hrecords]
              rfl
            · rw [openFetchedCNodeUser, hkey, hrecords]
              simp only [hwallet, not_true_eq_false, if_false, hcheck]
          · refine .inr ⟨fun ⟨_, _, hsame⟩ ↦ hsuccess ?_, result, ?_⟩
            · rw [checkClocks_eq_success.mpr hsame.clock] at hcheck
              exact (some.inj hcheck).symm
            · rw [openFetchedCNodeUser, hkey, hrecords]
              simp only [hwallet, not_true_eq_false, if_false, hcheck]
    · refine .inr ⟨fun ⟨other, hother, hsame⟩ ↦ hwallet ?_, .failure_malformed_export, ?_⟩
      · obtain rfl : other = wallet :=
          some.inj (hsame.walletPublicKey.symm.trans hkey)
        exact hother
      · rw [openFetchedCNodeUser, hkey]
        simp only [hwallet, not_false_eq_true, if_true]

/-- The call goes on after a bundle or ends with it, with its transaction closed exactly when it is
brought to an end. -/
theorem openFetchedCNodeUser_cases (ctx : SyncContext) (answers : SyncAnswers)
    (walletPublicKeys : List Wallet) (localMaxClockVal : ℤ) (i : ℕ) (node : Secondary)
    (e : FetchedCNodeUser) :
    ∃ log, OnBundle i log ∧
      (ClosesTransactions log ↔
        BundleEnds ctx answers walletPublicKeys localMaxClockVal i node e) ∧
      ((∃ node', PassesOne ctx answers walletPublicKeys localMaxClockVal i node e node' ∧
          openFetchedCNodeUser ctx answers walletPublicKeys localMaxClockVal i node e
            = (log, node', none)) ∨
        ((¬ ∃ node', PassesOne ctx answers walletPublicKeys localMaxClockVal i node e node') ∧
          ∃ node' result,
          openFetchedCNodeUser ctx answers walletPublicKeys localMaxClockVal i node e
            = (log, node', some result))) := by
  by_cases hnew : ∃ wallet ∈ walletPublicKeys, ∃ clockRecords,
      NewData wallet localMaxClockVal e clockRecords
  · obtain ⟨wallet, hwallet, clockRecords, hnew⟩ := hnew
    rw [hnew.openFetchedCNodeUser_eq hwallet, hnew.bundleEnds_iff hwallet]
    obtain ⟨node', hwrites, hends', hopen⟩ | ⟨hnone, log, node', result, hopen, hon, hcloses⟩ :=
      openTransaction_cases ctx answers node i hwallet hnew
    · exact ⟨_, onBundle_committed i, iff_of_true (closes_committed _) fun _ ↦ hends',
        .inl ⟨node', .inr hwrites, hopen⟩⟩
    · refine ⟨log, hon, hcloses, .inr ⟨?_, node', result, hopen⟩⟩
      rintro ⟨node1, ⟨hsame, -⟩ | hwrites⟩
      · exact hnew.not_exists_upToDate hsame
      · exact hnone ⟨node1, hwrites⟩
  · have hnone : ¬ ∃ node',
        Writes ctx answers walletPublicKeys localMaxClockVal i node e node' := by
      rintro ⟨node', h⟩
      obtain ⟨wallet, hwallet, clockRecords, _, _, _, hnew', -, -⟩ := h.imports
      exact hnew ⟨wallet, hwallet, clockRecords, hnew'⟩
    have hcloses : ClosesTransactions [] ↔
        BundleEnds ctx answers walletPublicKeys localMaxClockVal i node e :=
      iff_of_true closes_nil fun wallet hwallet clockRecords h ↦
        absurd ⟨wallet, hwallet, clockRecords, h⟩ hnew
    refine ⟨[], (fun _ h ↦ nomatch h), hcloses, ?_⟩
    obtain ⟨hsame, heq⟩ | ⟨hsame, result, heq⟩ :=
      openFetchedCNodeUser_of_not_newData hnew ctx answers i node
    · exact .inl ⟨node, .inl ⟨hsame, rfl⟩, heq⟩
    · refine .inr ⟨?_, node, result, heq⟩
      rintro ⟨node', ⟨hsame', -⟩ | hwrites⟩
      · exact hsame hsame'
      · exact hnone ⟨node', hwrites⟩

/-! ### The bundles of a response -/

theorem Imports.walletPublicKey (h : Imports ctx wallet localMaxClockVal node e node') :
    e.walletPublicKey = some wallet := by
  obtain ⟨_, _, _, _, hnew, -, -⟩ := h
  exact hnew.walletPublicKey

theorem Imports.wallet_eq {other : Wallet} (h : Imports ctx wallet localMaxClockVal node e node')
    (hother : e.walletPublicKey = some other) : other = wallet :=
  some.inj (hother.symm.trans h.walletPublicKey)

theorem PassesOne.unique {node1 node2 : Secondary}
    (h1 : PassesOne ctx answers walletPublicKeys localMaxClockVal i node e node1)
    (h2 : PassesOne ctx answers walletPublicKeys localMaxClockVal i node e node2) :
    node1 = node2 := by
  have hdiffer : ∀ {node'},
      Writes ctx answers walletPublicKeys localMaxClockVal i node e node' →
      ¬ ∃ wallet ∈ walletPublicKeys, UpToDate wallet localMaxClockVal e := by
    rintro node' hwrites ⟨other, -, hsame⟩
    obtain ⟨wallet, -, himports⟩ := hwrites.imports
    obtain rfl : other = wallet := himports.wallet_eq hsame.walletPublicKey
    exact himports.not_upToDate hsame
  obtain ⟨hsame1, rfl⟩ | hwrites1 := h1
  · obtain ⟨-, rfl⟩ | hwrites2 := h2
    · rfl
    · exact absurd hsame1 (hdiffer hwrites2)
  · obtain ⟨hsame2, -⟩ | hwrites2 := h2
    · exact absurd hsame2 (hdiffer hwrites1)
    · obtain ⟨wallet, -, himports1⟩ := hwrites1.imports
      obtain ⟨other, -, himports2⟩ := hwrites2.imports
      obtain rfl : other = wallet := himports1.wallet_eq himports2.walletPublicKey
      exact himports1.unique himports2

theorem openFetchedCNodeUsers_onBundles :
    ∀ (i : ℕ) (node : Secondary), ∀ action ∈
      (openFetchedCNodeUsers ctx answers walletPublicKeys localMaxClockVal i node fetched).1,
      ∃ j, i ≤ j ∧ action.transaction = some (.bundle j) := by
  induction fetched with
  | nil =>
    intro i node action h
    cases h
  | cons e rest ih =>
    intro i node action haction
    rw [openFetchedCNodeUsers] at haction
    obtain ⟨log, hon, -, ⟨node', -, heq⟩ | ⟨-, node', result, heq⟩⟩ :=
      openFetchedCNodeUser_cases ctx answers walletPublicKeys localMaxClockVal i node e
    · rw [heq] at haction
      obtain hfirst | hrest := mem_append.mp haction
      · exact ⟨i, Nat.le_refl i, hon action hfirst⟩
      · obtain ⟨j, hj, htransaction⟩ := ih (i + 1) node' action hrest
        exact ⟨j, by omega, htransaction⟩
    · rw [heq] at haction
      exact ⟨i, Nat.le_refl i, hon action haction⟩

/-- The bundles are the first one, and those that the call comes to after it. -/
theorem bundlesEnd_cons {rest : List FetchedCNodeUser} :
    BundlesEnd ctx answers walletPublicKeys localMaxClockVal i node (e :: rest) ↔
      BundleEnds ctx answers walletPublicKeys localMaxClockVal i node e ∧
      ∀ node', PassesOne ctx answers walletPublicKeys localMaxClockVal i node e node' →
        BundlesEnd ctx answers walletPublicKeys localMaxClockVal (i + 1) node' rest := by
  have hlength : ∀ before : List FetchedCNodeUser,
      i + (e :: before).length = i + 1 + before.length := by
    intro before
    rw [length_cons]
    omega
  constructor
  · intro h
    refine ⟨h [] e rest node rfl .nil, fun node1 hpass before e' after node' hsplit hpasses ↦ ?_⟩
    rw [← hlength before]
    apply h (e :: before) e' after node'
    · rw [hsplit]
      rfl
    · exact .cons hpass hpasses
  · rintro ⟨hfirst, hrest⟩ before e' after node' hsplit hpasses
    cases hpasses with
    | nil =>
      obtain rfl : e = e' := (cons.inj hsplit).1
      exact hfirst
    | @cons _ _ first node1 before _ hpass hpasses =>
      obtain ⟨rfl, hafter⟩ := cons.inj hsplit
      rw [hlength before]
      exact hrest node1 hpass before e' after node' hafter hpasses

/-- The log of the bundles closes its transactions exactly when they are brought to an end. -/
theorem openFetchedCNodeUsers_closes_iff :
    ∀ (i : ℕ) (node : Secondary),
      ClosesTransactions
        (openFetchedCNodeUsers ctx answers walletPublicKeys localMaxClockVal i node fetched).1 ↔
      BundlesEnd ctx answers walletPublicKeys localMaxClockVal i node fetched := by
  induction fetched with
  | nil =>
    intro i node
    refine iff_of_true closes_nil fun before e after node' hsplit ↦ ?_
    simp at hsplit
  | cons e rest ih =>
    intro i node
    rw [openFetchedCNodeUsers, bundlesEnd_cons]
    obtain ⟨log, hon, hcloses, ⟨node', hpass, heq⟩ | ⟨hstops, node', result, heq⟩⟩ :=
      openFetchedCNodeUser_cases ctx answers walletPublicKeys localMaxClockVal i node e
    · rw [heq, ← hcloses]
      refine (closes_append ?_).trans (and_congr_right fun _ ↦ ?_)
      · intro action haction action' haction' t ht ht'
        obtain ⟨j, hj, htransaction⟩ := openFetchedCNodeUsers_onBundles rest (i + 1) node' action'
          haction'
        have hbundle : SyncTransaction.bundle i = .bundle j := by
          rw [hon action haction] at ht
          rw [htransaction] at ht'
          exact some.inj (ht.trans ht'.symm)
        have : i = j := SyncTransaction.bundle.inj hbundle
        omega
      · refine (ih (i + 1) node').trans ⟨fun h node1 hpass1 ↦ ?_, fun h ↦ h node' hpass⟩
        rw [hpass1.unique hpass]
        exact h
    · rw [heq, ← hcloses]
      exact ⟨fun h ↦ ⟨h, fun node1 hpass ↦ absurd ⟨node1, hpass⟩ hstops⟩, fun h ↦ h.1⟩

/-! ### The whole call -/

/-- The log of the deletion is about its transaction, which is closed exactly when it is brought to
an end. -/
theorem deleteBeforeFetch_log (answers : SyncAnswers) (db : Database)
    (lookupWallet : Option Wallet) :
    (∀ action ∈ (deleteBeforeFetch answers db lookupWallet).1,
      action.transaction = some .deletion) ∧
    (ClosesTransactions (deleteBeforeFetch answers db lookupWallet).1 ↔
      (answers.deletion.opens = true → DeletionEnds answers db lookupWallet)) := by
  unfold deleteBeforeFetch
  cases answers.deletion.opens with
  | false =>
    exact ⟨(fun _ h ↦ nomatch h), iff_of_true closes_nil fun h ↦ absurd h Bool.false_ne_true⟩
  | true =>
    simp only [Bool.not_true, Bool.false_eq_true, if_false, forall_const]
    cases hthrows : deletionThrows answers db lookupWallet with
    | true =>
      cases hrollsBack : answers.deletion.rollsBack with
      | true =>
        refine ⟨?_, iff_of_true (closes_rolledBack _) ⟨fun h ↦ ?_, fun _ ↦ hrollsBack⟩⟩
        · simp [SyncAction.transaction]
        · rw [hthrows] at h
          cases h
      | false =>
        refine ⟨?_, iff_of_false (not_closes_began _) fun h ↦ ?_⟩
        · simp [SyncAction.transaction]
        · have := h.rollsBack hthrows
          rw [hrollsBack] at this
          cases this
    | false =>
      cases hcommits : answers.deletion.commits with
      | true =>
        refine ⟨?_, iff_of_true (closes_committed _) ⟨fun _ ↦ hcommits, fun h ↦ ?_⟩⟩
        · simp [SyncAction.transaction]
        · rw [hthrows] at h
          cases h
      | false =>
        refine ⟨?_, iff_of_false (not_closes_began _) fun h ↦ ?_⟩
        · simp [SyncAction.transaction]
        · have := h.commits hthrows
          rw [hcommits] at this
          cases this

theorem openBeforeFetch_log (answers : SyncAnswers) (db : Database) (lookupWallet : Option Wallet)
    (forceResync : Bool) :
    (∀ action ∈ (openBeforeFetch answers db lookupWallet forceResync).1,
      action.transaction = some .deletion) ∧
    (ClosesTransactions (openBeforeFetch answers db lookupWallet forceResync).1 ↔
      (forceResync = true → answers.deletion.opens = true →
        DeletionEnds answers db lookupWallet)) := by
  cases forceResync with
  | false =>
    have hlog : (openBeforeFetch answers db lookupWallet false).1 = [] := by
      unfold openBeforeFetch
      rw [if_neg Bool.false_ne_true]
      cases lookupWallet with
      | none => rfl
      | some wallet =>
        simp only []
        split
        · rfl
        · rfl
    rw [hlog]
    exact ⟨(fun _ h ↦ nomatch h), iff_of_true closes_nil fun h ↦ absurd h Bool.false_ne_true⟩
  | true =>
    have hlog : (openBeforeFetch answers db lookupWallet true).1
        = (deleteBeforeFetch answers db lookupWallet).1 := by
      unfold openBeforeFetch
      rcases deleteBeforeFetch answers db lookupWallet with ⟨log, _ | db'⟩
      · rfl
      · rfl
    rw [hlog]
    simp only [forall_const]
    exact deleteBeforeFetch_log answers db lookupWallet

theorem openFromResponse_onBundles {response : ExportResponse} (h : action ∈
      (openFromResponse ctx answers walletPublicKeys localMaxClockVal node response).1) :
    ∃ j, action.transaction = some (.bundle j) := by
  cases response with
  | cnodeUsers fetched =>
    obtain ⟨j, -, htransaction⟩ := openFetchedCNodeUsers_onBundles fetched 0 node action h
    exact ⟨j, htransaction⟩
  | _ => cases h

theorem openFromResponse_closes_iff (response : ExportResponse) :
    ClosesTransactions
      (openFromResponse ctx answers walletPublicKeys localMaxClockVal node response).1 ↔
    ∀ fetched, response = .cnodeUsers fetched →
      BundlesEnd ctx answers walletPublicKeys localMaxClockVal 0 node fetched := by
  cases response with
  | cnodeUsers fetched =>
    refine (openFetchedCNodeUsers_closes_iff fetched 0 node).trans
      ⟨fun h other heq ↦ ?_, fun h ↦ ?_⟩
    · obtain rfl := ExportResponse.cnodeUsers.inj heq
      exact h
    · exact h fetched rfl
  | _ => exact iff_of_true closes_nil fun _ h ↦ nomatch h

variable {response : ℤ → ExportResponse} {forceResync : Bool}

/-- The `try` closes its transactions exactly when the deletion's and those for the bundles are
brought to an end. -/
theorem openUnderLocks_log (ctx : SyncContext) (answers : SyncAnswers) (node : Secondary)
    (walletPublicKeys : List Wallet) (response : ℤ → ExportResponse) (forceResync : Bool) :
    (∀ action ∈ (openUnderLocks ctx answers node walletPublicKeys response forceResync).1,
      ∃ t, action.transaction = some t) ∧
    (ClosesTransactions
        (openUnderLocks ctx answers node walletPublicKeys response forceResync).1 ↔
      (forceResync = true → answers.deletion.opens = true →
        DeletionEnds answers node.db walletPublicKeys.head?) ∧
      ∀ db localMaxClockVal fetched,
        (openBeforeFetch answers node.db walletPublicKeys.head? forceResync).2
          = .ok (db, localMaxClockVal) →
        response localMaxClockVal = .cnodeUsers fetched →
        BundlesEnd ctx answers walletPublicKeys localMaxClockVal 0 { node with db := db }
          fetched) := by
  obtain ⟨hon, hcloses⟩ := openBeforeFetch_log answers node.db walletPublicKeys.head? forceResync
  rw [← hcloses, openUnderLocks]
  rcases hopen : openBeforeFetch answers node.db walletPublicKeys.head? forceResync with
    ⟨log, message | ⟨db, localMaxClockVal⟩⟩
  · rw [hopen] at hon
    refine ⟨fun action h ↦ ⟨_, hon action h⟩, ?_⟩
    constructor
    · intro h
      refine ⟨h, fun db localMaxClockVal fetched heq ↦ ?_⟩
      cases heq
    · exact fun h ↦ h.1
  · rw [hopen] at hon
    have hlater : ∀ action ∈ (openFromResponse ctx answers walletPublicKeys localMaxClockVal
        { node with db := db } (response localMaxClockVal)).1,
        ∃ j, action.transaction = some (.bundle j) := fun _ ↦ openFromResponse_onBundles
    constructor
    · intro action haction
      obtain hfirst | hrest := mem_append.mp haction
      · exact ⟨_, hon action hfirst⟩
      · obtain ⟨j, hj⟩ := hlater action hrest
        exact ⟨_, hj⟩
    · refine (closes_append ?_).trans (and_congr_right fun _ ↦ ?_)
      · intro action haction action' haction' t ht ht'
        obtain ⟨j, hj⟩ := hlater action' haction'
        rw [hon action haction] at ht
        rw [hj] at ht'
        cases ht.trans ht'.symm
      · refine (openFromResponse_closes_iff _).trans ⟨fun h db' clock fetched heq ↦ ?_, fun h ↦ ?_⟩
        · cases heq
          exact h fetched
        · exact fun fetched ↦ h db localMaxClockVal fetched rfl

theorem mem_acquired :
    action ∈ wallets.map .acquired ↔ ∃ wallet ∈ wallets, action = .acquired wallet := by
  rw [List.mem_map]
  exact exists_congr fun wallet ↦ and_congr_right fun _ ↦ eq_comm

theorem transaction_of_mem_acquired (h : action ∈ wallets.map .acquired) :
    action.transaction = none := by
  obtain ⟨wallet, -, rfl⟩ := mem_acquired.mp h
  rfl

theorem transaction_of_mem_releaseLocks (h : action ∈ releaseLocks answers i wallets) :
    action.transaction = none := by
  obtain ⟨j, wallet, -, -, rfl⟩ := (mem_releaseLocks i).mp h
  rfl

theorem closes_of_none (h : ∀ action ∈ log, action.transaction = none) :
    ClosesTransactions log := by
  intro t ht
  cases h _ ht

/-- Around a log of transactions, the locks add nothing that is to be brought to an end. -/
theorem closes_around_iff {before after : List SyncAction}
    (hbefore : ∀ action ∈ before, action.transaction = none)
    (hafter : ∀ action ∈ after, action.transaction = none) :
    ClosesTransactions (before ++ log ++ after) ↔ ClosesTransactions log := by
  rw [closes_append, closes_append]
  · exact ⟨fun h ↦ h.1.2, fun h ↦ ⟨⟨closes_of_none hbefore, h⟩, closes_of_none hafter⟩⟩
  · intro action haction action' _ t ht
    rw [hbefore action haction] at ht
    cases ht
  · intro action _ action' haction' t _ ht
    rw [hafter action' haction'] at ht
    cases ht

/-- The locks acquired are released exactly when a release of each wallet goes through. -/
theorem releases_iff (hlog : ∀ action ∈ log, ∃ t, action.transaction = some t) :
    ReleasesLocks (wallets.map .acquired ++ log ++ releaseLocks answers 0 wallets) ↔
      ∀ wallet ∈ wallets, ∃ i, wallets[i]? = some wallet ∧ answers.releases i = true := by
  have hacquired : ∀ wallet, .acquired wallet ∈
      wallets.map .acquired ++ log ++ releaseLocks answers 0 wallets ↔ wallet ∈ wallets := by
    intro wallet
    simp only [mem_append, mem_acquired, mem_releaseLocks]
    constructor
    · rintro ((⟨other, hother, heq⟩ | hmem) | ⟨_, other, -, -, heq⟩)
      · cases heq
        exact hother
      · obtain ⟨t, ht⟩ := hlog _ hmem
        cases ht
      · cases heq
    · exact fun hwallet ↦ .inl (.inl ⟨wallet, hwallet, rfl⟩)
  have hreleased : ∀ wallet, (.released wallet : SyncAction) ∈ releaseLocks answers 0 wallets ↔
      ∃ i, wallets[i]? = some wallet ∧ answers.releases i = true := by
    intro wallet
    rw [mem_releaseLocks]
    constructor
    · rintro ⟨j, other, hget, hreleases, heq⟩
      cases heq
      rw [Nat.zero_add] at hreleases
      exact ⟨j, hget, hreleases⟩
    · rintro ⟨j, hget, hreleases⟩
      rw [← Nat.zero_add j] at hreleases
      exact ⟨j, wallet, hget, hreleases, rfl⟩
  refine forall_congr' fun wallet ↦ ?_
  rw [hacquired wallet, ← hreleased wallet]
  refine imp_congr_right fun _ ↦ ?_
  have hnone : about SyncAction.lock wallet log = [] := by
    refine about_eq_nil fun action haction hlock ↦ ?_
    obtain ⟨t, ht⟩ := hlog action haction
    cases action with
    | acquired other => cases ht
    | released other => cases ht
    | began other => cases hlock
    | committed other => cases hlock
    | rolledBack other => cases hlock
  rw [about_append, about_append, hnone, append_nil]
  constructor
  · intro hlast
    obtain hmem | hmem := mem_append.mp (mem_of_getLast? hlast)
    · obtain ⟨other, -, heq⟩ := mem_acquired.mp (mem_about.mp hmem).1
      cases heq
    · exact (mem_about.mp hmem).1
  · intro hmem
    have habout : SyncAction.released wallet ∈
        about SyncAction.lock wallet (releaseLocks answers 0 wallets) :=
      mem_about.mpr ⟨hmem, rfl⟩
    have hlast := getLast?_eq_some_getLast (ne_nil_of_mem habout)
    generalize getLast _ (ne_nil_of_mem habout) = last at hlast
    show getLast? _ = _
    rw [getLast?_append, hlast, some_or]
    obtain ⟨hlastmem, hlock⟩ := mem_about.mp (mem_of_getLast? hlast)
    obtain ⟨j, other, -, -, rfl⟩ := (mem_releaseLocks 0).mp hlastmem
    obtain rfl : other = wallet := some.inj hlock
    rfl

/-- Locks that are acquired and then left are released only if there are none. -/
theorem releases_acquired_iff :
    ReleasesLocks (wallets.map .acquired) ↔ wallets = [] := by
  constructor
  · intro h
    cases wallets with
    | nil => rfl
    | cons wallet rest =>
      have hlast := h wallet (mem_acquired.mpr ⟨wallet, mem_cons_self, rfl⟩)
      obtain ⟨other, -, heq⟩ := mem_acquired.mp (mem_about.mp (mem_of_getLast? hlast)).1
      cases heq
  · rintro rfl
    exact bracketed_nil

/-- A call closes what it opened exactly when the first lock is not acquired, or all are, each is
released and the transactions begun are brought to an end. -/
theorem handleSyncFromPrimary_closes_iff (ctx : SyncContext) (answers : SyncAnswers)
    (node : Secondary) (walletPublicKeys : List Wallet) (response : ℤ → ExportResponse)
    (forceResync : Bool) :
    ClosesWhatItOpened
        (handleSyncFromPrimaryLogged ctx answers node walletPublicKeys response forceResync).1 ↔
      ClosesAll ctx answers walletPublicKeys node response forceResync := by
  unfold handleSyncFromPrimaryLogged ClosesAll
  obtain ⟨hall, heq⟩ | ⟨before, wallet, after, hwallets, hbefore, hfails, heq⟩ :=
    acquireLocks_cases answers walletPublicKeys 0
  · have hfirst : ¬ ∃ wallet, walletPublicKeys.head? = some wallet ∧
        answers.acquires 0 wallet = false := by
      rintro ⟨wallet, hhead, hfails⟩
      have := hall 0 wallet (by rw [← List.head?_eq_getElem?, hhead])
      rw [hfails] at this
      cases this
    obtain ⟨hwork, hcloses⟩ :=
      openUnderLocks_log ctx answers node walletPublicKeys response forceResync
    rw [heq, or_iff_right hfirst, and_iff_right hall, ← hcloses]
    constructor
    · intro h
      exact ⟨(releases_iff hwork).mp h.locks,
        (closes_around_iff (fun _ ↦ transaction_of_mem_acquired)
          fun _ ↦ transaction_of_mem_releaseLocks).mp h.transactions⟩
    · rintro ⟨hreleases, htransactions⟩
      exact ⟨(closes_around_iff (fun _ ↦ transaction_of_mem_acquired)
          fun _ ↦ transaction_of_mem_releaseLocks).mpr htransactions,
        (releases_iff hwork).mpr hreleases⟩
  · have hnotall : ¬ AcquiresAll answers walletPublicKeys 0 := by
      intro hall
      have := hall before.length wallet (by rw [hwallets]; simp)
      rw [hfails] at this
      cases this
    rw [heq]
    constructor
    · intro h
      have hnil : before = [] := releases_acquired_iff.mp h.locks
      subst hnil
      exact .inl ⟨wallet, by rw [hwallets]; rfl, hfails⟩
    · rintro (⟨first, hhead, hfirst⟩ | h)
      · have hnil : before = [] := by
          cases before with
          | nil => rfl
          | cons other rest =>
            rw [hwallets] at hhead
            cases hhead
            have := hbefore 0 first rfl
            rw [hfirst] at this
            cases this
        exact ⟨closes_of_none fun _ ↦ transaction_of_mem_acquired,
          releases_acquired_iff.mpr hnil⟩
      · exact absurd h.1 hnotall

/-! ### Two calls that leak -/

/-- The database answers, and Redis does; the second wallet is held by another sync. -/
def secondHeld : SyncAnswers where
  keysAtAcquire _ := some fun wallet ↦
    if wallet = "0xb" then some .primarySyncFromSecondary else none
  releases _ := true
  deletion := ⟨true, true, true⟩
  deletes := true
  findsCNodeUser := true
  bundle _ := ⟨⟨true, true, true⟩, true, true⟩

/-- A context in which no file can be fetched. -/
def noneFetched : SyncContext := { allFetched with saveFileForMultihashToFS := fun _ ↦ false }

/-- A user with a metadata file. -/
def oneFileBundle : FetchedCNodeUser where
  cnodeUserUUID := "p"
  walletPublicKey := some "0xa"
  lastLogin := none
  latestBlockNumber := 7
  clock := 1
  createdAt := 100
  colivingUsers := some []
  digitalContents := some []
  files := some [⟨"f", "p", none, "Qm1", none, none, none, "/file_storage/Qm1", some .metadata, 1,
    false⟩]
  clockRecords := some [⟨"p", 1, .File⟩]
  clockInfo := ⟨0, 9999, 1⟩

/-- The lock of the first wallet is kept when that of the second is not acquired; and a transaction
stays open when the file cannot be fetched, for the first time. -/
theorem sync_leaks_lock_and_transaction :
    (¬ ClosesWhatItOpened (handleSyncFromPrimaryLogged allFetched secondHeld
      ⟨⟨[], [], [], [], [], [], []⟩, fun _ ↦ none⟩ ["0xa", "0xb"]
      (fun _ ↦ .cnodeUsers [oneFileBundle]) false).1) ∧
    ¬ ClosesWhatItOpened (handleSyncFromPrimaryLogged noneFetched secondHeld
      ⟨⟨[], [], [], [], [], [], []⟩, fun _ ↦ none⟩ ["0xa"]
      (fun _ ↦ .cnodeUsers [oneFileBundle]) false).1 := by
  constructor
  · intro h
    exact absurd (h.locks "0xa" (by decide +kernel)) (by decide +kernel)
  · intro h
    exact absurd (h.transactions (.bundle 0) (by decide +kernel)) (by decide +kernel)

end ColivingSpec
