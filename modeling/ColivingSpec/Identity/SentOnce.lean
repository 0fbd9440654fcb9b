import ColivingSpec.Identity.TxRelay
import ColivingSpec.Lib.SetIfAbsent

/-!
# One wallet each, and sent once

No two requests relay with one wallet, whatever fails. A transaction whose receipt came back is
sent again when one of the calls after it fails, the logging ones included, or when another
request looked it up before it was recorded; otherwise it is not.
-/

namespace ColivingSpec

open Lib Function

namespace TxRelay

/-- Before a request may send, while it may, and when it has a receipt. -/
inductive Phase where
  | idle
  | trying
  | receipted
  deriving DecidableEq

def Task.phase : Task → Phase
  | .getGasPrice | .getTransactionCount _ | .sendSignedTransaction _ | .logFailure _ => .trying
  | .logAttempt .. | .logSuccess .. | .logHash .. => .receipted
  | .clearLock none => .trying
  | .clearLock (some _) => .receipted

def Stage.phase : Stage → Phase
  | .findOne | .returned _ | .thrown => .idle
  | .selectWallet _ | .setLock .. => .trying
  | .relaying _ _ task => task.phase
  | .create .. => .receipted

def Request.phase (q : Request) : Phase := q.stage.phase

/-- The wallet between `selectWallet` and its release. -/
def Stage.wallet? : Stage → Option Wallet
  | .relaying _ wallet _ => some wallet
  | _ => none

/-- The key of the lock a request has taken and not released. -/
def Request.key? (q : Request) : Option String := q.stage.wallet?.map Wallet.lockKey

namespace Relay

variable {c : Config} {s s' : Relay} {q q' : Request} {answer : Answer}

/-- A wallet is used by at most one request. -/
def WalletsExclusive (s : Relay) : Prop :=
  ∀ id id' q q' wallet wallet', s.requests id = some q → s.requests id' = some q' →
    q.stage.wallet? = some wallet → q'.stage.wallet? = some wallet' →
      wallet.publicKey = wallet'.publicKey → id = id'

/-- Nothing is sent again after its receipt. -/
def SentOnce (s : Relay) : Prop :=
  s.wire.Pairwise fun a b ↦ ∀ encodedABI, a = .receipt encodedABI → b ≠ .sent encodedABI

/-- A relay that was just started. The locks, the logs and the table are arbitrary. -/
structure Idle (s : Relay) : Prop where
  requests : ∀ id, s.requests id = none
  deletions : s.deletions = []
  wire : s.wire = []

/-- Alike but for what is logged. -/
structure SameCore (s s' : Relay) : Prop where
  requests : s'.requests = s.requests
  locked : s'.locked = s.locked
  deletions : s'.deletions = s.deletions
  transactions : s'.transactions = s.transactions
  wire : s'.wire = s.wire

theorem SameCore.refl (s : Relay) : SameCore s s := ⟨rfl, rfl, rfl, rfl, rfl⟩

/-- What a call of a request can do. -/
inductive Move (s : Relay) (q : Request) (answer : Answer) (q' : Request) (s' : Relay) : Prop where
  | quiet (hcore : SameCore s s') (hkey : q'.key? = q.key?) (hphase : q'.phase = q.phase)
  | admitted (hcore : SameCore s s') (hkey : q'.key? = q.key?) (hlookup : q.stage = .findOne)
      (hphase : q'.phase = .trying) (hnew : s.transactions q.txProps.encodedABI = none)
  | taken (key : String) (hs : s' = s.setLocked key true) (hfree : s.locked key = false)
      (hkey : q'.key? = some key) (hphase : q'.phase = q.phase)
  | leaked (key : String) (hs : s' = s.setLocked key true) (hkey : q'.key? = q.key?)
      (hphase : q'.phase = q.phase)
  | sent (hs : s' = s.record (.sent q.txProps.encodedABI)) (hkey : q'.key? = q.key?)
      (hphase : q.phase = .trying) (hphase' : q'.phase = .trying)
  | received (hs : s' = s.record (.receipt q.txProps.encodedABI)) (hkey : q'.key? = q.key?)
      (hphase : q.phase = .trying) (hphase' : q'.phase = .receipted)
  | lost (hcore : SameCore s s') (hkey : q'.key? = q.key?) (hphase : q.phase = .receipted)
      (hfails : ∃ applied, answer = .fails applied)
  | released (key : String) (hs : s' = { s with deletions := s.deletions ++ [key] })
      (hkey : q.key? = some key) (hkey' : q'.key? = none)
      (hphase : q'.phase = q.phase ∨ q.phase = .trying ∧ q'.phase = .idle)
  | recorded (hrequests : s'.requests = s.requests) (hlocked : s'.locked = s.locked)
      (hdeletions : s'.deletions = s.deletions) (hwire : s'.wire = s.wire)
      (hkey : q'.key? = q.key?) (hphase : q.phase = .receipted) (hphase' : q'.phase = .idle)
      (hrow : s'.transactions q.txProps.encodedABI ≠ none)
      (hothers : ∀ encodedABI, encodedABI ≠ q.txProps.encodedABI →
        s'.transactions encodedABI = s.transactions encodedABI)

/-! ### Each call is a move -/

theorem sameCore_after {write : Relay → Relay} (h : ∀ s, SameCore s (write s)) (applied : Bool) :
    SameCore s (s.after applied write) := by
  cases applied with
  | true => exact h s
  | false => exact .refl s

@[simp] theorem key?_throws (q : Request) : q.throws.key? = none := by
  unfold Request.throws
  split <;> rfl

@[simp] theorem phase_throws (q : Request) : q.throws.phase = .idle := by
  unfold Request.throws
  split <;> rfl

@[simp] theorem txProps_throws (q : Request) : q.throws.txProps = q.txProps := by
  unfold Request.throws
  split <;> rfl

theorem key?_of_stage {stage : Stage} (h : q.stage = stage) :
    q.key? = stage.wallet?.map Wallet.lockKey := by
  rw [Request.key?, h]

theorem phase_of_stage {stage : Stage} (h : q.stage = stage) : q.phase = stage.phase := by
  rw [Request.phase, h]

theorem nextWallet_wallet? (decodedABI : DecodedABI) (i count : ℕ) :
    (c.nextWallet decodedABI i count).wallet? = none := by
  unfold Config.nextWallet
  split <;> rfl

theorem nextWallet_phase (decodedABI : DecodedABI) (i count : ℕ) :
    (c.nextWallet decodedABI i count).phase = .trying := by
  unfold Config.nextWallet
  split <;> rfl

theorem firstTask_phase (wallet : Wallet) : (c.firstTask wallet).phase = .trying := by
  unfold Config.firstTask
  split <;> rfl

theorem findOne_move (hstage : q.stage = .findOne) (h : s.findOne c q answer = .ok (q', s')) :
    q'.txProps = q.txProps ∧ Move s q answer q' s' := by
  have hkey := key?_of_stage hstage
  have hphase := phase_of_stage hstage
  unfold findOne at h
  split at h
  · split at h
    · cases h
      exact ⟨rfl, .quiet (.refl s) hkey.symm hphase.symm⟩
    · next hnew =>
      split at h
      · cases h
        exact ⟨rfl, .admitted (.refl s) hkey.symm hstage rfl hnew⟩
      · cases h
        exact ⟨txProps_throws q, .quiet (.refl s) ((key?_throws q).trans hkey.symm)
          ((phase_throws q).trans hphase.symm)⟩
  · cases h
    exact ⟨txProps_throws q, .quiet (.refl s) ((key?_throws q).trans hkey.symm)
      ((phase_throws q).trans hphase.symm)⟩
  · cases h

variable {decodedABI : DecodedABI} {e : Event} {id : ℕ} {s₁ : Relay}

theorem selectWallet_move (hstage : q.stage = .selectWallet decodedABI)
    (h : s.selectWallet c q decodedABI answer = .ok (q', s')) :
    q'.txProps = q.txProps ∧ Move s q answer q' s' := by
  unfold selectWallet at h
  split at h
  · cases h
    refine ⟨rfl, .quiet (.refl s) ?_ ?_⟩
    · rw [key?_of_stage rfl, key?_of_stage hstage, Request.goTo, nextWallet_wallet?]
      rfl
    · rw [phase_of_stage rfl, phase_of_stage hstage, Request.goTo, nextWallet_phase]
      rfl
  · cases h

theorem setLock_move {i count : ℕ} (hstage : q.stage = .setLock decodedABI i count)
    (h : s.setLock c q decodedABI i count answer = .ok (q', s')) :
    q'.txProps = q.txProps ∧ Move s q answer q' s' := by
  have hnext : (q.goTo (c.nextWallet decodedABI (i + 1) (count + 1))).key? = q.key? := by
    rw [key?_of_stage rfl, key?_of_stage hstage, Request.goTo, nextWallet_wallet?]
    rfl
  have hphase : (q.goTo (c.nextWallet decodedABI (i + 1) (count + 1))).phase = q.phase := by
    rw [phase_of_stage rfl, phase_of_stage hstage, Request.goTo, nextWallet_phase]
    rfl
  unfold setLock at h
  cases hwallet : c.relayerWallets[i % c.relayerWallets.length]? with
  | none => simp [hwallet] at h
  | some wallet =>
    rw [hwallet] at h
    cases answer with
    | ok =>
      dsimp only at h
      split at h
      · cases h
        exact ⟨rfl, .quiet (.refl s) hnext hphase⟩
      · next hfree =>
        cases h
        refine ⟨rfl, .taken wallet.lockKey rfl (by simpa using hfree) rfl ?_⟩
        rw [phase_of_stage hstage, phase_of_stage rfl]
        exact firstTask_phase wallet
    | fails applied =>
      cases h
      cases applied with
      | true => exact ⟨rfl, .leaked wallet.lockKey rfl hnext hphase⟩
      | false => exact ⟨rfl, .quiet (.refl s) hnext hphase⟩
    | _ => cases h

/-- A request that goes on to another task keeps its wallet. -/
theorem key?_goTo_relaying {wallet : Wallet} {task task' : Task}
    (hstage : q.stage = .relaying decodedABI wallet task) :
    (q.goTo (.relaying decodedABI wallet task')).key? = q.key? := by
  rw [key?_of_stage hstage]
  rfl

theorem sameCore_addAttempt (p : RedisLogParams) (s : Relay) : SameCore s (addAttempt p s) :=
  ⟨rfl, rfl, rfl, rfl, rfl⟩

theorem sameCore_addSuccess (p : RedisLogParams) (s : Relay) : SameCore s (addSuccess p s) :=
  ⟨rfl, rfl, rfl, rfl, rfl⟩

theorem sameCore_addFailure (p : Option RedisLogParams) (s : Relay) :
    SameCore s (addFailure p s) :=
  ⟨rfl, rfl, rfl, rfl, rfl⟩

theorem sameCore_setSender (receipt : Receipt) (senderAddress : String) (s : Relay) :
    SameCore s (setSender receipt senderAddress s) :=
  ⟨rfl, rfl, rfl, rfl, rfl⟩

theorem relay_move {wallet : Wallet} {task : Task}
    (hstage : q.stage = .relaying decodedABI wallet task)
    (h : s.relay c q decodedABI wallet task answer = .ok (q', s')) :
    q'.txProps = q.txProps ∧ Move s q answer q' s' := by
  have hkey : ∀ task', (q.goTo (.relaying decodedABI wallet task')).key? = q.key? :=
    fun _ ↦ key?_goTo_relaying hstage
  have hphase : q.phase = task.phase := phase_of_stage hstage
  cases task with
  | getGasPrice =>
    cases answer with
    | gasPrice | fails =>
      cases h
      exact ⟨rfl, .quiet (.refl s) (hkey _) hphase.symm⟩
    | _ => cases h
  | getTransactionCount gasPrice =>
    cases answer with
    | nonce nonce =>
      cases h
      exact ⟨rfl, .sent rfl (hkey _) hphase rfl⟩
    | fails applied =>
      cases h
      exact ⟨rfl, .quiet (.refl s) (hkey _) hphase.symm⟩
    | _ => cases h
  | sendSignedTransaction txParams =>
    cases answer with
    | receipt receipt date =>
      cases h
      exact ⟨rfl, .received rfl (hkey _) hphase rfl⟩
    | fails applied =>
      cases h
      exact ⟨rfl, .quiet (.refl s) (hkey _) hphase.symm⟩
    | _ => cases h
  | logAttempt receipt params =>
    cases answer with
    | ok =>
      cases h
      exact ⟨rfl, .quiet (sameCore_addAttempt params s) (hkey _) hphase.symm⟩
    | fails applied =>
      cases h
      exact ⟨rfl, .lost (sameCore_after (sameCore_addAttempt params) applied) (hkey _) hphase
        ⟨applied, rfl⟩⟩
    | _ => cases h
  | logSuccess receipt params =>
    cases answer with
    | ok =>
      cases h
      exact ⟨rfl, .quiet (sameCore_addSuccess params s) (hkey _) hphase.symm⟩
    | fails applied =>
      cases h
      exact ⟨rfl, .lost (sameCore_after (sameCore_addSuccess params) applied) (hkey _) hphase
        ⟨applied, rfl⟩⟩
    | _ => cases h
  | logHash receipt params =>
    cases answer with
    | ok =>
      cases h
      exact ⟨rfl, .quiet (sameCore_setSender receipt _ s) (hkey _) hphase.symm⟩
    | fails applied =>
      cases h
      exact ⟨rfl, .lost (sameCore_after (sameCore_setSender receipt _) applied) (hkey _) hphase
        ⟨applied, rfl⟩⟩
    | _ => cases h
  | logFailure params =>
    cases answer with
    | ok =>
      cases h
      exact ⟨rfl, .quiet (sameCore_addFailure params s) (hkey _) hphase.symm⟩
    | fails applied =>
      cases h
      exact ⟨rfl, .quiet (sameCore_after (sameCore_addFailure params) applied) (hkey _)
        hphase.symm⟩
    | _ => cases h
  | clearLock txReceipt =>
    cases answer with
    | ok =>
      cases txReceipt with
      | some receipt =>
        cases h
        exact ⟨rfl, .released wallet.lockKey rfl (key?_of_stage hstage) rfl (.inl hphase.symm)⟩
      | none =>
        cases h
        exact ⟨txProps_throws q, .released wallet.lockKey rfl (key?_of_stage hstage)
          (key?_throws q) (.inr ⟨hphase, phase_throws q⟩)⟩
    | _ => cases h

theorem create_move {receipt : Receipt} (hstage : q.stage = .create decodedABI receipt)
    (h : s.create q decodedABI receipt answer = .ok (q', s')) :
    q'.txProps = q.txProps ∧ Move s q answer q' s' := by
  have hkey : q.key? = none := key?_of_stage hstage
  have hphase : q.phase = .receipted := phase_of_stage hstage
  have hthrows : q.throws.key? = q.key? := (key?_throws q).trans hkey.symm
  unfold create at h
  split at h
  · split at h
    · next hrow =>
      cases h
      exact ⟨txProps_throws q, .recorded rfl rfl rfl rfl hthrows hphase (phase_throws q)
        (fun hnone ↦ by simp [hnone] at hrow) fun _ _ ↦ rfl⟩
    · cases h
      refine ⟨rfl, .recorded rfl rfl rfl rfl hkey.symm hphase rfl ?_ fun _ hne ↦ ?_⟩
      · simp [insert, Request.transaction]
      · exact update_of_ne hne ..
  · next applied =>
    split at h
    · next hrow =>
      cases h
      exact ⟨txProps_throws q, .recorded rfl rfl rfl rfl hthrows hphase (phase_throws q)
        (fun hnone ↦ by simp [hnone] at hrow) fun _ _ ↦ rfl⟩
    · cases h
      cases applied with
      | true =>
        refine ⟨txProps_throws q, .recorded rfl rfl rfl rfl hthrows hphase (phase_throws q) ?_
          fun _ hne ↦ ?_⟩
        · simp [after, insert, Request.transaction]
        · exact update_of_ne hne ..
      | false =>
        exact ⟨txProps_throws q, .lost (.refl s) hthrows hphase ⟨false, rfl⟩⟩
  · cases h

/-- Every call of a request is a move. -/
theorem proceed_move (h : s.proceed c q answer = .ok (q', s')) :
    q'.txProps = q.txProps ∧ Move s q answer q' s' := by
  unfold proceed at h
  split at h
  · next hstage => exact findOne_move hstage h
  · next hstage => exact selectWallet_move hstage h
  · next hstage => exact setLock_move hstage h
  · next hstage => exact relay_move hstage h
  · next hstage => exact create_move hstage h
  · cases h
  · cases h

/-- The other requests do not move. -/
theorem Move.requests (h : Move s q answer q' s') : s'.requests = s.requests := by
  cases h with
  | quiet hcore _ _ | admitted hcore _ _ _ _ | lost hcore _ _ _ => exact hcore.requests
  | taken _ hs _ _ _ | leaked _ hs _ _ | sent hs _ _ _ | received hs _ _ _ | released _ hs _ _ _ =>
    subst hs
    rfl
  | recorded hrequests => exact hrequests

/-! ### Steps -/

/-- The relay once the request has moved on. -/
def setRequest (id : ℕ) (q : Request) (s : Relay) : Relay :=
  { s with requests := Function.update s.requests id (some q) }

@[simp] theorem setRequest_requests (id : ℕ) (q : Request) (s : Relay) :
    (s.setRequest id q).requests = update s.requests id (some q) := rfl

/-- A step is a new request, a move of a request, or a deletion carried out or lost. -/
theorem step_cases (h : step c s e = .ok s') :
    (∃ id q, e = .sendTransaction id q.txProps q.reqBodySHA ∧ s.requests id = none ∧
        q.key? = none ∧ q.phase = .idle ∧ s' = s.setRequest id q) ∨
      (∃ id answer q q' s₁, e = .returns id answer ∧ s.requests id = some q ∧
        q'.txProps = q.txProps ∧ Move s q answer q' s₁ ∧ s' = s₁.setRequest id q') ∨
      ∃ key applied, e = .deleted key applied ∧ key ∈ s.deletions ∧
        s' = ({ s with deletions := s.deletions.erase key } : Relay).after applied
          (·.setLocked key false) := by
  unfold step at h
  split at h
  · next id txProps reqBodySHA =>
    simp only [↓require_bind_eq_ok, pure_eq_ok] at h
    obtain ⟨hnone, rfl⟩ := h
    exact .inl ⟨id, ⟨txProps, reqBodySHA, .primary, .findOne⟩, rfl, by simpa using hnone, rfl, rfl,
      rfl⟩
  · next id answer =>
    split at h
    · cases h
    · next q hq =>
      obtain ⟨⟨q', s₁⟩, hproceed, h⟩ := bind_eq_ok.mp h
      cases h
      obtain ⟨hprops, hmove⟩ := proceed_move hproceed
      exact .inr (.inl ⟨id, answer, q, q', s₁, rfl, hq, hprops, hmove, rfl⟩)
  · next key applied =>
    simp only [↓require_bind_eq_ok, pure_eq_ok] at h
    obtain ⟨hmem, rfl⟩ := h
    exact .inr (.inr ⟨key, applied, rfl, hmem, rfl⟩)

/-! ### Wallets -/

/-- The locks of the wallets and who has taken them. -/
def lockTable (s : Relay) : LockTable ℕ String where
  locked := s.locked
  deletions := s.deletions
  holds := fun id ↦ (s.requests id).bind Request.key?

theorem holds_setRequest (id : ℕ) (q : Request) (s : Relay) :
    (s.setRequest id q).lockTable.holds = update s.lockTable.holds id q.key? := by
  funext j
  by_cases hj : j = id
  · subst hj
    simp [lockTable, setRequest]
  · simp [lockTable, setRequest, hj]

/-- A move that keeps what the request holds changes nothing about holding. -/
theorem holds_setRequest_of_eq (hq : s.requests id = some q) (hrequests : s₁.requests = s.requests)
    (hkey : q'.key? = q.key?) :
    (s₁.setRequest id q').lockTable.holds = s.lockTable.holds := by
  rw [holds_setRequest, hkey]
  have hsame : s₁.lockTable.holds = s.lockTable.holds := by
    unfold lockTable
    rw [hrequests]
  rw [hsame]
  refine update_eq_self_iff.mpr ?_
  simp [lockTable, hq]

theorem lockTable_eq {t : LockTable ℕ String} (hlocked : s.locked = t.locked)
    (hdeletions : s.deletions = t.deletions) (hholds : s.lockTable.holds = t.holds) :
    s.lockTable = t := by
  cases t
  cases hlocked
  cases hdeletions
  cases hholds
  rfl

/-- Every move is a step of the lock table. -/
theorem Move.lockStep (hq : s.requests id = some q) (h : Move s q answer q' s₁) :
    s.lockTable.Step (s₁.setRequest id q').lockTable := by
  cases h with
  | quiet hcore hkey _ | admitted hcore hkey _ _ _ | lost hcore hkey _ _ =>
    rw [lockTable_eq (s := s₁.setRequest id q') (t := s.lockTable) hcore.locked hcore.deletions
      (holds_setRequest_of_eq hq hcore.requests hkey)]
    exact .skip
  | taken key hs hfree hkey _ =>
    subst hs
    have hholds : ((s.setLocked key true).setRequest id q').lockTable.holds
        = update s.lockTable.holds id (some key) := by
      rw [holds_setRequest, hkey]
      rfl
    rw [lockTable_eq (s := (s.setLocked key true).setRequest id q')
      (t := { s.lockTable with
        locked := update s.lockTable.locked key true
        holds := update s.lockTable.holds id (some key) }) rfl rfl hholds]
    exact .take hfree
  | leaked key hs hkey _ =>
    subst hs
    rw [lockTable_eq (s := (s.setLocked key true).setRequest id q')
      (t := { s.lockTable with locked := update s.lockTable.locked key true }) rfl rfl
      (holds_setRequest_of_eq hq rfl hkey)]
    exact .leak key
  | sent hs hkey _ _ | received hs hkey _ _ =>
    subst hs
    rw [lockTable_eq (s := (s.record _).setRequest id q') (t := s.lockTable) rfl rfl
      (holds_setRequest_of_eq hq rfl hkey)]
    exact .skip
  | released key hs hkey hkey' _ =>
    subst hs
    have hheld : s.lockTable.holds id = some key := by simp [lockTable, hq, hkey]
    have hholds : (Relay.setRequest id q'
        { s with deletions := s.deletions ++ [key] }).lockTable.holds
          = update s.lockTable.holds id none := by
      rw [holds_setRequest, hkey']
      rfl
    rw [lockTable_eq (s := Relay.setRequest id q' { s with deletions := s.deletions ++ [key] })
      (t := { s.lockTable with
        deletions := s.lockTable.deletions ++ [key]
        holds := update s.lockTable.holds id none }) rfl rfl hholds]
    exact .giveBack hheld
  | recorded hrequests hlocked hdeletions _ hkey =>
    rw [lockTable_eq (s := s₁.setRequest id q') (t := s.lockTable) hlocked hdeletions
      (holds_setRequest_of_eq hq hrequests hkey)]
    exact .skip

theorem step_lockStep (h : step c s e = .ok s') : s.lockTable.Step s'.lockTable := by
  rcases step_cases h with ⟨id, q, -, hnone, hkey, -, rfl⟩ |
    ⟨id, answer, q, q', s₁, -, hq, -, hmove, rfl⟩ | ⟨key, applied, -, hmem, rfl⟩
  · have hholds : (s.setRequest id q).lockTable.holds = s.lockTable.holds := by
      rw [holds_setRequest, hkey]
      refine update_eq_self_iff.mpr ?_
      simp [lockTable, hnone]
    rw [lockTable_eq (s := s.setRequest id q) (t := s.lockTable) rfl rfl hholds]
    exact .skip
  · exact hmove.lockStep hq
  · have hdelete := LockTable.Step.delete (t := s.lockTable) hmem applied
    cases applied with
    | true => exact hdelete
    | false => exact hdelete

theorem walletsExclusive_of_guarded (h : s.lockTable.Guarded) : s.WalletsExclusive := by
  intro id id' q q' wallet wallet' hq hq' hwallet hwallet' hsame
  refine h.exclusive id id' wallet.lockKey ?_ ?_
  · simp [lockTable, hq, Request.key?, hwallet]
  · simp [lockTable, hq', Request.key?, hwallet', Wallet.lockKey, hsame]

theorem Idle.guarded (h : s.Idle) : s.lockTable.Guarded := by
  refine LockTable.guarded_of_unowned h.deletions fun id ↦ ?_
  simp [lockTable, h.requests]

/-! ### Receipts -/

/-- No call fails for a request that has its receipt, and an encoded ABI is looked up only while
no other request is sending it. -/
def Calm (s : Relay) : Event → Prop
  | .returns id answer => ∀ q, s.requests id = some q →
      (q.phase = .receipted → ∀ applied, answer ≠ .fails applied) ∧
      (q.stage = .findOne → ∀ id' q', id' ≠ id → s.requests id' = some q' →
        q'.txProps.encodedABI = q.txProps.encodedABI → q'.phase = .idle)
  | _ => True

/-- Where the receipts of the history are, as long as all is calm. -/
structure Settled (s : Relay) : Prop where
  alone : ∀ id id' q q', s.requests id = some q → s.requests id' = some q' →
    q.txProps.encodedABI = q'.txProps.encodedABI → q.phase ≠ .idle → q'.phase ≠ .idle → id = id'
  recorded : ∀ id q, s.requests id = some q → s.transactions q.txProps.encodedABI ≠ none →
    q.phase = .idle
  receipted : ∀ encodedABI, .receipt encodedABI ∈ s.wire → s.transactions encodedABI ≠ none ∨
    ∃ id q, s.requests id = some q ∧ q.txProps.encodedABI = encodedABI ∧ q.phase = .receipted
  sentOnce : s.SentOnce

theorem Idle.settled (h : s.Idle) : s.Settled where
  alone id _ q _ hq := by simp [h.requests] at hq
  recorded id q hq := by simp [h.requests] at hq
  receipted encodedABI hmem := by simp [h.wire] at hmem
  sentOnce := by
    unfold SentOnce
    rw [h.wire]
    exact List.Pairwise.nil

/-- The requests after one of them moved on. -/
theorem requests_setRequest {j : ℕ} {q' x : Request} (h : (s₁.setRequest id q').requests j = some x) :
    j = id ∧ x = q' ∨ j ≠ id ∧ s₁.requests j = some x := by
  rw [setRequest_requests] at h
  by_cases hj : j = id
  · subst hj
    rw [update_self, Option.some.injEq] at h
    exact .inl ⟨rfl, h.symm⟩
  · rw [update_of_ne hj] at h
    exact .inr ⟨hj, h⟩

/-- A request that goes on without becoming busy, or losing its receipt, settles nothing new. -/
theorem Settled.setRequest (hs : s.Settled) (hq : s.requests id = some q)
    (hprops : q'.txProps = q.txProps) (hrequests : s₁.requests = s.requests)
    (htransactions : s₁.transactions = s.transactions) (hwire : s₁.wire = s.wire)
    (hphase : q'.phase = q.phase ∨ q.phase = .trying ∧ q'.phase = .idle) :
    (s₁.setRequest id q').Settled := by
  have hbusy : q'.phase ≠ .idle → q.phase ≠ .idle := by
    rintro hne hidle
    rcases hphase with heq | ⟨htrying, -⟩
    · exact hne (heq.trans hidle)
    · rw [hidle] at htrying
      cases htrying
  -- The requests after are those before, for what concerns ABI and being busy.
  have hbefore : ∀ j x, (s₁.setRequest id q').requests j = some x →
      ∃ y, s.requests j = some y ∧ y.txProps = x.txProps ∧ (x.phase ≠ .idle → y.phase ≠ .idle) := by
    intro j x hx
    rcases requests_setRequest hx with ⟨rfl, rfl⟩ | ⟨-, hold⟩
    · exact ⟨q, hq, hprops.symm, hbusy⟩
    · exact ⟨x, hrequests ▸ hold, rfl, fun hne ↦ hne⟩
  refine ⟨fun i j x y hx hy habi hxp hyp ↦ ?_, fun j x hx hrow ↦ ?_, fun abi hmem ↦ ?_, ?_⟩
  · obtain ⟨x', hx', hxprops, hxbusy⟩ := hbefore i x hx
    obtain ⟨y', hy', hyprops, hybusy⟩ := hbefore j y hy
    refine hs.alone i j x' y' hx' hy' ?_ (hxbusy hxp) (hybusy hyp)
    rw [hxprops, hyprops, habi]
  · obtain ⟨x', hx', hxprops, hxbusy⟩ := hbefore j x hx
    by_contra hne
    refine hxbusy hne (hs.recorded j x' hx' ?_)
    rw [hxprops, ← htransactions]
    exact hrow
  · have hmem' : Wire.receipt abi ∈ s.wire := hwire ▸ hmem
    rcases hs.receipted abi hmem' with hrow | ⟨j, x, hx, habi, hxp⟩
    · left
      have hsame : (s₁.setRequest id q').transactions = s.transactions := htransactions
      rw [hsame]
      exact hrow
    · right
      by_cases hj : j = id
      · subst hj
        obtain rfl := Option.some.inj (hx.symm.trans hq)
        refine ⟨j, q', by simp [Relay.setRequest], by rw [hprops, habi], ?_⟩
        rcases hphase with heq | ⟨htrying, -⟩
        · rw [heq, hxp]
        · rw [hxp] at htrying
          cases htrying
      · exact ⟨j, x, by simp [Relay.setRequest, hj, hrequests, hx], habi, hxp⟩
  · have hsame : (s₁.setRequest id q').wire = s.wire := hwire
    unfold SentOnce
    rw [hsame]
    exact hs.sentOnce

/-- The others stay as they are when a request moves to a busy phase. -/
theorem Settled.alone_setRequest (hs : s.Settled) (hprops : q'.txProps = q.txProps)
    (hrequests : s₁.requests = s.requests) (hothers : ∀ j x, j ≠ id → s.requests j = some x →
      x.txProps.encodedABI = q.txProps.encodedABI → x.phase = .idle) (i j : ℕ) (x y : Request)
    (hx : (s₁.setRequest id q').requests i = some x)
    (hy : (s₁.setRequest id q').requests j = some y)
    (habi : x.txProps.encodedABI = y.txProps.encodedABI) (hxp : x.phase ≠ .idle)
    (hyp : y.phase ≠ .idle) : i = j := by
  rcases requests_setRequest hx with ⟨rfl, rfl⟩ | ⟨hi, hold⟩
  · rcases requests_setRequest hy with ⟨rfl, -⟩ | ⟨hj, hold'⟩
    · rfl
    · exact absurd (hothers j y hj (hrequests ▸ hold') (by rw [← habi, hprops])) hyp
  · rcases requests_setRequest hy with ⟨rfl, rfl⟩ | ⟨hj, hold'⟩
    · exact absurd (hothers i x hi (hrequests ▸ hold) (by rw [habi, hprops])) hxp
    · exact hs.alone i j x y (hrequests ▸ hold) (hrequests ▸ hold') habi hxp hyp

/-- A busy request is the only one for its encoded ABI. -/
theorem Settled.others_idle (hs : s.Settled) (hq : s.requests id = some q) (hbusy : q.phase ≠ .idle)
    (j : ℕ) (x : Request) (hj : j ≠ id) (hx : s.requests j = some x)
    (habi : x.txProps.encodedABI = q.txProps.encodedABI) : x.phase = .idle := by
  by_contra hne
  exact hj (hs.alone j id x q hx hq habi hne hbusy)

/-- A receipt of another encoded ABI is recorded, or belongs to another request. -/
theorem Settled.receipted_of_ne {abi : String} (hs : s.Settled) (hq : s.requests id = some q)
    (habi : abi ≠ q.txProps.encodedABI) (hmem : Wire.receipt abi ∈ s.wire) :
    s.transactions abi ≠ none ∨ ∃ j x, j ≠ id ∧ s.requests j = some x ∧
      x.txProps.encodedABI = abi ∧ x.phase = .receipted := by
  rcases hs.receipted abi hmem with hrow | ⟨j, x, hx, hxabi, hxp⟩
  · exact .inl hrow
  · refine .inr ⟨j, x, ?_, hx, hxabi, hxp⟩
    rintro rfl
    obtain rfl := Option.some.inj (hx.symm.trans hq)
    exact habi hxabi.symm

/-- No receipt of what a busy request has yet to send is in the history. -/
theorem Settled.receipt_not_mem (hs : s.Settled) (hq : s.requests id = some q)
    (hbusy : q.phase ≠ .idle) (hphase : q.phase ≠ .receipted) :
    Wire.receipt q.txProps.encodedABI ∉ s.wire := by
  intro hmem
  rcases hs.receipted _ hmem with hrow | ⟨j, x, hx, habi, hxp⟩
  · exact hbusy (hs.recorded id q hq hrow)
  · have hxbusy : x.phase ≠ .idle := by
      rw [hxp]
      intro h
      cases h
    obtain rfl : j = id := hs.alone j id x q hx hq habi hxbusy hbusy
    obtain rfl := Option.some.inj (hx.symm.trans hq)
    exact hphase hxp

/-- A wire that stays holds nothing twice. -/
theorem SentOnce.of_wire (hs : s.SentOnce) (hwire : s₁.wire = s.wire) :
    s₁.SentOnce := by
  unfold SentOnce
  rw [hwire]
  exact hs

/-- A calm step keeps receipts settled. -/
theorem Move.settled (hs : s.Settled) (hq : s.requests id = some q)
    (hprops : q'.txProps = q.txProps) (hcalm : Calm s (.returns id answer))
    (h : Move s q answer q' s₁) : (s₁.setRequest id q').Settled := by
  obtain ⟨hsucceeds, hlooks⟩ := hcalm q hq
  cases h with
  | quiet hcore _ hphase =>
    exact hs.setRequest hq hprops hcore.requests hcore.transactions hcore.wire (.inl hphase)
  | taken key hs₁ _ _ hphase | leaked key hs₁ _ hphase =>
    subst hs₁
    exact hs.setRequest hq hprops rfl rfl rfl (.inl hphase)
  | released key hs₁ _ _ hphase =>
    subst hs₁
    exact hs.setRequest hq hprops rfl rfl rfl hphase
  | lost _ _ hphase hfails =>
    obtain ⟨applied, rfl⟩ := hfails
    exact absurd rfl (hsucceeds hphase applied)
  | admitted hcore _ hlookup hphase hnew =>
    have hidle : q.phase = .idle := phase_of_stage hlookup
    refine ⟨hs.alone_setRequest hprops hcore.requests (hlooks hlookup), fun j x hx hrow ↦ ?_,
      fun abi hmem ↦ ?_, ?_⟩
    · have hrow' : s.transactions x.txProps.encodedABI ≠ none := hcore.transactions ▸ hrow
      rcases requests_setRequest hx with ⟨-, rfl⟩ | ⟨-, hold⟩
      · rw [hprops] at hrow'
        exact absurd hnew hrow'
      · exact hs.recorded j x (hcore.requests ▸ hold) hrow'
    · have hmem' : Wire.receipt abi ∈ s.wire := hcore.wire ▸ hmem
      rcases hs.receipted abi hmem' with hrow | ⟨j, x, hx, habi, hxp⟩
      · left
        have hsame : (s₁.setRequest id q').transactions = s.transactions := hcore.transactions
        rw [hsame]
        exact hrow
      · have hj : j ≠ id := by
          rintro rfl
          obtain rfl := Option.some.inj (hx.symm.trans hq)
          rw [hidle] at hxp
          cases hxp
        exact .inr ⟨j, x, by simp [hj, hcore.requests, hx], habi, hxp⟩
    · exact SentOnce.of_wire hs.sentOnce hcore.wire
  | sent hs₁ _ hphase hphase' =>
    subst hs₁
    have hbusy : q.phase ≠ .idle := by simp [hphase]
    have hunknown : Wire.receipt q.txProps.encodedABI ∉ s.wire :=
      hs.receipt_not_mem hq hbusy (by simp [hphase])
    have hsettled : ((s.setRequest id q')).Settled :=
      hs.setRequest hq hprops rfl rfl rfl (.inl (hphase'.trans hphase.symm))
    refine ⟨hsettled.alone, hsettled.recorded, fun abi hmem ↦ hsettled.receipted abi ?_, ?_⟩
    · exact (List.mem_append.mp hmem).resolve_right (by simp)
    · refine List.pairwise_append.mpr ⟨hs.sentOnce, List.pairwise_singleton _ _, ?_⟩
      rintro w hw w' hw' abi rfl
      rw [List.mem_singleton.mp hw']
      rintro ⟨⟩
      exact hunknown hw
  | received hs₁ _ hphase hphase' =>
    subst hs₁
    have hbusy : q.phase ≠ .idle := by simp [hphase]
    refine ⟨hs.alone_setRequest hprops rfl (hs.others_idle hq hbusy), fun j x hx hrow ↦ ?_,
      fun abi hmem ↦ ?_, ?_⟩
    · rcases requests_setRequest hx with ⟨-, rfl⟩ | ⟨-, hold⟩
      · rw [hprops] at hrow
        exact absurd (hs.recorded id q hq hrow) hbusy
      · exact hs.recorded j x hold hrow
    · by_cases habi : abi = q.txProps.encodedABI
      · subst habi
        exact .inr ⟨id, q', by simp, by rw [hprops], hphase'⟩
      · have hmem' : Wire.receipt abi ∈ s.wire :=
          (List.mem_append.mp hmem).resolve_right (by simpa using habi)
        rcases hs.receipted_of_ne hq habi hmem' with hrow | ⟨j, x, hj, hx, hxabi, hxp⟩
        · exact .inl hrow
        · exact .inr ⟨j, x, by simpa [record, hj] using hx, hxabi, hxp⟩
    · refine List.pairwise_append.mpr ⟨hs.sentOnce, List.pairwise_singleton _ _, ?_⟩
      rintro w - w' hw' abi -
      rw [List.mem_singleton.mp hw']
      rintro ⟨⟩
  | recorded hrequests _ _ hwire _ hphase hphase' hrow hothers =>
    have hbusy : q.phase ≠ .idle := by simp [hphase]
    have hidle := hs.others_idle hq hbusy
    refine ⟨hs.alone_setRequest hprops hrequests hidle, fun j x hx hrow' ↦ ?_,
      fun abi hmem ↦ ?_, ?_⟩
    · rcases requests_setRequest hx with ⟨-, rfl⟩ | ⟨hj, hold⟩
      · exact hphase'
      · rw [hrequests] at hold
        by_cases habi : x.txProps.encodedABI = q.txProps.encodedABI
        · exact hidle j x hj hold habi
        · exact hs.recorded j x hold ((hothers _ habi) ▸ hrow')
    · by_cases habi : abi = q.txProps.encodedABI
      · subst habi
        exact .inl hrow
      · have hmem' : Wire.receipt abi ∈ s.wire := hwire ▸ hmem
        rcases hs.receipted_of_ne hq habi hmem' with hrow' | ⟨j, x, hj, hx, hxabi, hxp⟩
        · left
          have hsame : (s₁.setRequest id q').transactions abi = s.transactions abi :=
            hothers abi habi
          rw [hsame]
          exact hrow'
        · exact .inr ⟨j, x, by simp [hj, hrequests, hx], hxabi, hxp⟩
    · exact SentOnce.of_wire hs.sentOnce hwire

/-- A new request, and a deletion, concern no receipt. -/
theorem step_settled (hs : s.Settled) (hcalm : Calm s e) (h : step c s e = .ok s') :
    s'.Settled := by
  rcases step_cases h with ⟨id, q, -, hnone, -, hphase, rfl⟩ |
    ⟨id, answer, q, q', s₁, rfl, hq, hprops, hmove, rfl⟩ | ⟨key, applied, -, -, rfl⟩
  · refine ⟨fun i j x y hx hy habi hxp hyp ↦ ?_, fun j x hx hrow ↦ ?_, fun abi hmem ↦ ?_,
      hs.sentOnce⟩
    · rcases requests_setRequest hx with ⟨-, rfl⟩ | ⟨-, hold⟩
      · exact absurd hphase hxp
      · rcases requests_setRequest hy with ⟨-, rfl⟩ | ⟨-, hold'⟩
        · exact absurd hphase hyp
        · exact hs.alone i j x y hold hold' habi hxp hyp
    · rcases requests_setRequest hx with ⟨-, rfl⟩ | ⟨-, hold⟩
      · exact hphase
      · exact hs.recorded j x hold hrow
    · rcases hs.receipted abi hmem with hrow | ⟨j, x, hx, habi, hxp⟩
      · exact .inl hrow
      · have hj : j ≠ id := by
          rintro rfl
          rw [hnone] at hx
          cases hx
        exact .inr ⟨j, x, by simp [hj, hx], habi, hxp⟩
  · exact hmove.settled hs hq hprops hcalm
  · cases applied with
    | true | false => exact ⟨hs.alone, hs.recorded, hs.receipted, hs.sentOnce⟩

end Relay

variable {c : Config} {s : Relay}

/-- In every run a wallet is used by at most one request, and in a calm one nothing is sent again
after its receipt. -/
theorem relayed_transactions_sent_once (hs : s.Idle) (es : List Event) :
    (replay (step c) s es).WalletsExclusive ∧
      (Along (step c) Relay.Calm s es → (replay (step c) s es).SentOnce) := by
  constructor
  · refine Relay.walletsExclusive_of_guarded ?_
    exact replay_invariant' (fun s ↦ s.lockTable.Guarded)
      (fun _ _ _ hguarded hstep ↦ (Relay.step_lockStep hstep).guarded hguarded) es hs.guarded
  · intro hcalm
    have hsettled : (replay (step c) s es).Settled := replay_invariant Relay.Settled
      (fun _ _ _ hsettled hcalm hstep ↦ Relay.step_settled hsettled hcalm hstep) hs.settled hcalm
    exact hsettled.sentOnce

namespace Scenario

/-- One wallet, and a decoder that takes everything. -/
def config : Config where
  relayerWallets := [⟨"a", "k"⟩]
  minGasPrice := 1
  highGasPrice := 10
  ganacheGasPrice := 5
  defaultGasLimit := 100
  decodeMethod _ _ := some ⟨"method"⟩
  getAddressString _ := "a"

def txProps : TxProps := ⟨"user", "contract", "abi", "sender", none⟩

/-- A request that takes the wallet and gets its receipt. -/
def receipted (id : ℕ) : List Event :=
  [.returns id .ok, .returns id (.offset 0), .returns id .ok, .returns id (.gasPrice (some 2)),
    .returns id (.nonce 0), .returns id (.receipt ⟨"hash"⟩ 0)]

/-- The rest of a request without failures. -/
def finished (id : ℕ) : List Event :=
  [.returns id .ok, .returns id .ok, .returns id .ok, .returns id .ok, .returns id .ok,
    .deleted "DATA_RELAYER_WALLET:a" true]

/-- The write to `relayTxAttempts` fails after the receipt, and the secondary provider is tried. -/
def unlogged : List Event :=
  .sendTransaction 0 txProps "sha" :: receipted 0 ++
    [.returns 0 (.fails false), .returns 0 .ok, .returns 0 .ok,
      .deleted "DATA_RELAYER_WALLET:a" true] ++ receipted 0

theorem idle_initial : Relay.initial.Idle := ⟨fun _ ↦ rfl, rfl, rfl⟩

end Scenario

/-- A call of the one request, that does not fail. -/
def Event.Of (id : ℕ) : Event → Prop
  | .sendTransaction i _ _ => i = id
  | .returns i answer => i = id ∧ ∀ applied, answer ≠ .fails applied
  | .deleted _ _ => True

/-- A relay that serves one request without failures is calm. -/
theorem along_calm_of_one (id : ℕ) {es : List Event} (hs : s.Idle) (hes : ∀ e ∈ es, e.Of id) :
    Along (step c) Relay.Calm s es := by
  refine along_of_invariant (I := fun s ↦ ∀ j, j ≠ id → s.requests j = none)
    (G := fun _ e ↦ e.Of id) (fun s e s' hs hof hstep j hj ↦ ?_) (fun s e hs hof ↦ ?_)
    (fun j _ ↦ hs.requests j) (along_of_forall fun _ e he ↦ hes e he)
  · rcases Relay.step_cases hstep with ⟨i, q, rfl, -, -, -, rfl⟩ |
      ⟨i, answer, q, q', s₁, rfl, hq, -, hmove, rfl⟩ | ⟨key, applied, -, -, rfl⟩
    · obtain rfl : i = id := hof
      rw [Relay.setRequest_requests, update_of_ne hj, hs j hj]
    · obtain rfl : i = id := hof.1
      rw [Relay.setRequest_requests, update_of_ne hj, hmove.requests, hs j hj]
    · cases applied with
      | true => exact hs j hj
      | false => exact hs j hj
  · cases e with
    | returns i answer =>
      obtain ⟨rfl, hsucceeds⟩ : i = id ∧ ∀ applied, answer ≠ .fails applied := hof
      intro q hq
      refine ⟨fun _ ↦ hsucceeds, fun _ j x hj hx ↦ ?_⟩
      rw [hs j hj] at hx
      cases hx
    | _ => trivial

open Scenario in
theorem relayed_transactions_sent_once_finished :
    (replay (step config) Relay.initial
      (.sendTransaction 0 txProps "sha" :: receipted 0 ++ finished 0)).SentOnce := by
  refine (relayed_transactions_sent_once idle_initial _).2 (along_calm_of_one 0 idle_initial ?_)
  intro e he
  simp only [receipted, finished, List.cons_append, List.nil_append, List.mem_cons,
    List.not_mem_nil, or_false] at he
  rcases he with rfl | rfl | rfl | rfl | rfl | rfl | rfl | rfl | rfl | rfl | rfl | rfl | rfl
  all_goals first
    | exact ⟨rfl, fun _ ↦ Answer.noConfusion⟩
    | exact rfl
    | trivial

open Scenario in
/-- A logging call that fails makes the relay send again what was sent and received. -/
theorem unlogged_transaction_sent_twice : ¬ ∀ (c : Config) (s : Relay) (es : List Event),
    s.Idle → (replay (step c) s es).WalletsExclusive ∧ (replay (step c) s es).SentOnce := by
  intro h
  have honce := (h config Relay.initial unlogged idle_initial).2
  have hwire : (replay (step config) Relay.initial unlogged).wire
      = [.sent "abi", .receipt "abi", .sent "abi", .receipt "abi"] := by
    decide +kernel
  unfold Relay.SentOnce at honce
  rw [hwire] at honce
  simp at honce

end TxRelay

end ColivingSpec
