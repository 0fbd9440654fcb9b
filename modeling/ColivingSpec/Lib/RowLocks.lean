import ColivingSpec.Lib.Replay

/-!
# Transactions under row locks

A store that transactions share, statement by statement. A transaction sees its own writes over
what is committed. Its first statement takes the lock of its key, which it holds until it ends, and
a statement waits while another transaction holds the lock. What a transaction leaves in the part
of its key is then what its statements make of that part one after another, whatever runs between
them, and a property of parts that each program keeps holds of every committed store.
-/

namespace ColivingSpec.Lib

open List Function

/-- A store in parts: a write changes the part of its key, and that part alone. -/
structure Parts (σ ω κ π : Type) where
  apply : σ → ω → σ
  keyOf : ω → κ
  part : κ → σ → π
  applyPart : π → ω → π
  part_apply : ∀ s w, part (keyOf w) (apply s w) = applyPart (part (keyOf w) s) w
  part_apply_of_ne : ∀ s w k, keyOf w ≠ k → part k (apply s w) = part k s

/-- A statement: what it writes, in the store that the transaction sees. -/
abbrev Statement (σ ω : Type) := σ → Except String (List ω)

/-- An open transaction: its key, what it has written, and the statements that are left. -/
structure Transaction (σ ω κ : Type) where
  key : κ
  log : List ω
  rest : List (Statement σ ω)

/-- What is committed, who holds the lock of a key, and the open transactions. -/
structure SharedStore (σ ω κ : Type) where
  committed : σ
  locks : κ → Option ℕ
  transactions : ℕ → Option (Transaction σ ω κ)

/-- What can happen to a shared store. -/
inductive TransactionEvent (σ ω κ : Type) where
  | start (id : ℕ) (key : κ) (program : List (Statement σ ω))
  | statement (id : ℕ)
  | commit (id : ℕ)
  | rollback (id : ℕ)

namespace Parts

variable {σ ω κ π : Type} (P : Parts σ ω κ π)

/-- The store with the writes of a log. -/
def applyAll (s : σ) (log : List ω) : σ := log.foldl P.apply s

/-- What the statements make of the part of a key, when the rest of the store is anything. -/
inductive Follows (key : κ) : List (Statement σ ω) → π → π → Prop
  | done (v : π) : Follows key [] v v
  | next {statement : Statement σ ω} {rest : List (Statement σ ω)} {s : σ} {writes : List ω}
      {v v' : π} (hpart : P.part key s = v) (hwrites : statement s = .ok writes)
      (hrest : Follows key rest (writes.foldl P.applyPart v) v') :
      Follows key (statement :: rest) v v'

/-- The statement writes to the part of the key. -/
def WritesTo (key : κ) (statement : Statement σ ω) : Prop :=
  ∀ s writes, statement s = .ok writes → ∀ w ∈ writes, P.keyOf w = key

/-- A program that writes to the part of its key and keeps a property of it. -/
structure Keeps (I : κ → π → Prop) (key : κ) (program : List (Statement σ ω)) : Prop where
  writesTo : ∀ statement ∈ program, P.WritesTo key statement
  follows : ∀ v v', I key v → P.Follows key program v v' → I key v'

variable {P} {key : κ} {s : σ} {log : List ω}

@[simp] theorem applyAll_append (log' : List ω) :
    P.applyAll s (log ++ log') = P.applyAll (P.applyAll s log) log' :=
  foldl_append

/-- Writes to another key leave the part of a key. -/
theorem part_applyAll_of_ne {k : κ} (hne : key ≠ k) (hlog : ∀ w ∈ log, P.keyOf w = key) :
    P.part k (P.applyAll s log) = P.part k s := by
  induction log generalizing s with
  | nil => rfl
  | cons w log ih =>
    have hrest := ih (s := P.apply s w) fun w' hw' ↦ hlog w' (mem_cons_of_mem _ hw')
    have hw : P.keyOf w = key := hlog w mem_cons_self
    rw [← P.part_apply_of_ne s w k (hw ▸ hne), ← hrest]
    rfl

/-- Writes to a key act on its part. -/
theorem part_applyAll (hlog : ∀ w ∈ log, P.keyOf w = key) :
    P.part key (P.applyAll s log) = log.foldl P.applyPart (P.part key s) := by
  induction log generalizing s with
  | nil => rfl
  | cons w log ih =>
    have hrest := ih (s := P.apply s w) fun w' hw' ↦ hlog w' (mem_cons_of_mem _ hw')
    have hw : P.keyOf w = key := hlog w mem_cons_self
    have hpart : P.part key (P.apply s w) = P.applyPart (P.part key s) w := by
      rw [← hw]
      exact P.part_apply s w
    rw [foldl_cons, ← hpart]
    exact hrest

theorem Follows.nil_eq {v v' : π} (h : P.Follows key [] v v') : v' = v := by
  cases h
  rfl

variable {program program' : List (Statement σ ω)}

/-- One program after another. -/
theorem Follows.append {v v' : π} (h : P.Follows key (program ++ program') v v') :
    ∃ mid, P.Follows key program v mid ∧ P.Follows key program' mid v' := by
  induction program generalizing v with
  | nil => exact ⟨v, .done v, h⟩
  | cons statement program ih =>
    cases h with
    | next hpart hwrites hrest =>
      obtain ⟨mid, hfirst, hsecond⟩ := ih hrest
      exact ⟨mid, .next hpart hwrites hfirst, hsecond⟩

theorem keeps_nil (I : κ → π → Prop) (key : κ) : P.Keeps I key [] := by
  refine ⟨fun _ h ↦ absurd h not_mem_nil, fun v v' hv h ↦ ?_⟩
  rw [h.nil_eq]
  exact hv

theorem Keeps.append {I : κ → π → Prop} (h : P.Keeps I key program) (h' : P.Keeps I key program') :
    P.Keeps I key (program ++ program') := by
  constructor
  · intro statement hmem
    rcases mem_append.mp hmem with hmem | hmem
    · exact h.writesTo statement hmem
    · exact h'.writesTo statement hmem
  · intro v v' hv hfollows
    obtain ⟨mid, hfirst, hsecond⟩ := hfollows.append
    exact h'.follows mid v' (h.follows v mid hv hfirst) hsecond

end Parts

namespace SharedStore

variable {σ ω κ π : Type} (P : Parts σ ω κ π)

/-- The transaction ends: its lock is free. -/
def close (s : SharedStore σ ω κ) (id : ℕ) : SharedStore σ ω κ :=
  { s with
    locks := fun k ↦ if s.locks k = some id then none else s.locks k
    transactions := Function.update s.transactions id none }

/-- A refused statement ends the transaction, and so does a failure anywhere. -/
def step [DecidableEq κ] (s : SharedStore σ ω κ) :
    TransactionEvent σ ω κ → Except String (SharedStore σ ω κ)
  | .start id key program =>
    match s.transactions id with
    | some _ => .error "there is a transaction with this id"
    | none => .ok { s with
        transactions := Function.update s.transactions id (some ⟨key, [], program⟩) }
  | .statement id =>
    match s.transactions id with
    | none => .error "no transaction"
    | some tx =>
      match tx.rest with
      | [] => .error "no statement is left"
      | statement :: rest =>
        if s.locks tx.key = none ∨ s.locks tx.key = some id then
          match statement (P.applyAll s.committed tx.log) with
          | .error _ => .ok (s.close id)
          | .ok writes => .ok { s with
              locks := Function.update s.locks tx.key (some id)
              transactions :=
                Function.update s.transactions id (some ⟨tx.key, tx.log ++ writes, rest⟩) }
        else .error "waits for the lock"
  | .commit id =>
    match s.transactions id with
    | none => .error "no transaction"
    | some tx =>
      match tx.rest with
      | [] => .ok { s.close id with committed := P.applyAll s.committed tx.log }
      | _ :: _ => .error "statements are left"
  | .rollback id => .ok (s.close id)

variable {P} {I : κ → π → Prop} {s s' : SharedStore σ ω κ}

variable (P I) in
/-- What a transaction has done so far: nothing, or some statements under its lock, and the part of
its key will have the property when the others are done. -/
structure Underway (s : SharedStore σ ω κ) (id : ℕ) (tx : Transaction σ ω κ) : Prop where
  log : ∀ w ∈ tx.log, P.keyOf w = tx.key
  rest : ∀ statement ∈ tx.rest, P.WritesTo tx.key statement
  unlocked : s.locks tx.key ≠ some id → tx.log = []
  follows : ∀ v', P.Follows tx.key tx.rest (P.part tx.key (P.applyAll s.committed tx.log)) v' →
    I tx.key v'
  keeps : s.locks tx.key ≠ some id → P.Keeps I tx.key tx.rest

variable (P I) in
/-- Every part that is committed has the property, and every open transaction keeps it. -/
structure Sound (s : SharedStore σ ω κ) : Prop where
  committed : ∀ k, I k (P.part k s.committed)
  holders : ∀ k id, s.locks k = some id → ∃ tx, s.transactions id = some tx ∧ tx.key = k
  underway : ∀ id tx, s.transactions id = some tx → Underway P I s id tx

variable {id : ℕ}

/-- A transaction that ends frees its lock alone. -/
theorem locks_close {id' : ℕ} {k : κ} (hne : id' ≠ id) :
    (s.close id).locks k = some id' ↔ s.locks k = some id' := by
  unfold close
  dsimp only
  split
  · next hlock =>
    rw [hlock]
    simp [Ne.symm hne]
  · exact Iff.rfl

theorem transactions_close {id' : ℕ} {tx : Transaction σ ω κ} :
    (s.close id).transactions id' = some tx ↔ id' ≠ id ∧ s.transactions id' = some tx := by
  unfold close
  by_cases hid : id' = id
  · subst hid
    simp
  · simp [hid]

/-- After a transaction has ended nothing else has changed. -/
theorem Sound.close (hs : Sound P I s) (id : ℕ) : Sound P I (s.close id) where
  committed := hs.committed
  holders := by
    intro k id' hlock
    have hne : id' ≠ id := by
      rintro rfl
      simp only [SharedStore.close] at hlock
      split at hlock
      · cases hlock
      · contradiction
    obtain ⟨tx, htx, hkey⟩ := hs.holders k id' ((locks_close hne).mp hlock)
    exact ⟨tx, transactions_close.mpr ⟨hne, htx⟩, hkey⟩
  underway := by
    intro id' tx htx
    obtain ⟨hne, htx⟩ := transactions_close.mp htx
    have hunder := hs.underway id' tx htx
    have hlock : (s.close id).locks tx.key ≠ some id' ↔ s.locks tx.key ≠ some id' :=
      not_congr (locks_close hne)
    exact ⟨hunder.log, hunder.rest, fun h ↦ hunder.unlocked (hlock.mp h), hunder.follows,
      fun h ↦ hunder.keeps (hlock.mp h)⟩

/-- A transaction commits what its statements make of the part of its key. -/
theorem Sound.commit (hs : Sound P I s) {tx : Transaction σ ω κ} (htx : s.transactions id = some tx)
    (hrest : tx.rest = []) :
    Sound P I { s.close id with committed := P.applyAll s.committed tx.log } := by
  have hclosed := hs.close id
  have hunder := hs.underway id tx htx
  have hother : ∀ k, tx.key ≠ k →
      P.part k (P.applyAll s.committed tx.log) = P.part k s.committed :=
    fun k hk ↦ Parts.part_applyAll_of_ne hk hunder.log
  have hown : I tx.key (P.part tx.key (P.applyAll s.committed tx.log)) := by
    apply hunder.follows
    rw [hrest]
    exact .done _
  have hcommitted : ∀ k, I k (P.part k (P.applyAll s.committed tx.log)) := by
    intro k
    by_cases hk : tx.key = k
    · subst hk
      exact hown
    · rw [hother k hk]
      exact hs.committed k
  refine ⟨hcommitted, hclosed.holders, fun id' tx' htx' ↦ ?_⟩
  have hunder' := hclosed.underway id' tx' htx'
  obtain ⟨hne, htx'⟩ := transactions_close.mp htx'
  refine ⟨hunder'.log, hunder'.rest, hunder'.unlocked, ?_, hunder'.keeps⟩
  by_cases hlock : s.locks tx'.key = some id'
  · -- The other transaction holds its lock, so the commit is to another key or writes nothing.
    intro v' hfollows
    have hsame : P.part tx'.key (P.applyAll s.committed tx.log) = P.part tx'.key s.committed := by
      by_cases hk : tx.key = tx'.key
      · have hempty : tx.log = [] := by
          apply hunder.unlocked
          rw [hk, hlock]
          simpa using hne
        rw [hempty]
        rfl
      · exact hother _ hk
    rw [Parts.part_applyAll hunder'.log, hsame, ← Parts.part_applyAll hunder'.log] at hfollows
    exact hunder'.follows v' hfollows
  · -- It has not begun, and will find what is committed now.
    have hunlocked : (s.close id).locks tx'.key ≠ some id' := fun h ↦ hlock ((locks_close hne).mp h)
    intro v' hfollows
    rw [hunder'.unlocked hunlocked] at hfollows
    exact (hunder'.keeps hunlocked).follows _ v' (hcommitted tx'.key) hfollows

/-- A statement goes on with what the transaction has done. -/
theorem Sound.statement [DecidableEq κ] (hs : Sound P I s) {key : κ} {log : List ω}
    {statement : Statement σ ω} {rest : List (Statement σ ω)} {writes : List ω}
    (htx : s.transactions id = some ⟨key, log, statement :: rest⟩)
    (hlock : s.locks key = none ∨ s.locks key = some id)
    (hok : statement (P.applyAll s.committed log) = .ok writes) :
    Sound P I { s with
      locks := update s.locks key (some id)
      transactions := update s.transactions id (some ⟨key, log ++ writes, rest⟩) } := by
  have hunder := hs.underway id _ htx
  have hwrites : ∀ w ∈ writes, P.keyOf w = key :=
    hunder.rest statement mem_cons_self _ writes hok
  refine ⟨hs.committed, fun k id' hholds ↦ ?_, fun id' tx' htx' ↦ ?_⟩ <;>
    dsimp only at *
  · by_cases hk : k = key
    · subst hk
      rw [update_self] at hholds
      cases hholds
      exact ⟨_, update_self .., rfl⟩
    · rw [update_of_ne hk] at hholds
      obtain ⟨tx', htx', hkey⟩ := hs.holders k id' hholds
      have hne : id' ≠ id := by
        rintro rfl
        rw [htx] at htx'
        cases htx'
        exact hk hkey.symm
      exact ⟨tx', by rw [update_of_ne hne]; exact htx', hkey⟩
  · by_cases hid : id' = id
    · subst hid
      rw [update_self] at htx'
      cases htx'
      refine ⟨?_, fun st hst ↦ hunder.rest st (mem_cons_of_mem _ hst), ?_, ?_, ?_⟩
      · intro w hw
        rcases mem_append.mp hw with hw | hw
        · exact hunder.log w hw
        · exact hwrites w hw
      · intro h
        exact absurd (update_self ..) h
      · intro v' hfollows
        refine hunder.follows v' (.next rfl hok ?_)
        rw [Parts.applyAll_append, Parts.part_applyAll hwrites] at hfollows
        exact hfollows
      · intro h
        exact absurd (update_self ..) h
    · rw [update_of_ne hid] at htx'
      have hunder' := hs.underway id' tx' htx'
      have hsame : update s.locks key (some id) tx'.key = some id' ↔
          s.locks tx'.key = some id' := by
        by_cases hk : tx'.key = key
        · rw [hk, update_self]
          have hlocks : s.locks key ≠ some id' := by
            rcases hlock with h | h <;> rw [h]
            · simp
            · simpa using Ne.symm hid
          simp [hlocks, Ne.symm hid]
        · rw [update_of_ne hk]
      exact ⟨hunder'.log, hunder'.rest, fun h ↦ hunder'.unlocked (mt hsame.mpr h), hunder'.follows,
        fun h ↦ hunder'.keeps (mt hsame.mpr h)⟩

/-- A program that keeps the property can be started. -/
theorem Sound.start (hs : Sound P I s) {key : κ} {program : List (Statement σ ω)}
    (hfree : s.transactions id = none) (hprogram : P.Keeps I key program) :
    Sound P I { s with
      transactions := update s.transactions id (some ⟨key, [], program⟩) } := by
  refine ⟨hs.committed, fun k id' hholds ↦ ?_, fun id' tx' htx' ↦ ?_⟩ <;>
    dsimp only at *
  · obtain ⟨tx', htx', hkey⟩ := hs.holders k id' hholds
    have hne : id' ≠ id := by
      rintro rfl
      rw [hfree] at htx'
      cases htx'
    exact ⟨tx', by rw [update_of_ne hne]; exact htx', hkey⟩
  · by_cases hid : id' = id
    · subst hid
      rw [update_self] at htx'
      cases htx'
      exact ⟨fun _ h ↦ absurd h not_mem_nil, hprogram.writesTo, fun _ ↦ rfl,
        fun v' hfollows ↦ hprogram.follows _ v' (hs.committed key) hfollows, fun _ ↦ hprogram⟩
    · rw [update_of_ne hid] at htx'
      have hunder := hs.underway id' tx' htx'
      exact ⟨hunder.log, hunder.rest, hunder.unlocked, hunder.follows, hunder.keeps⟩

/-- The programs that an event starts keep the property. -/
def Starts (P : Parts σ ω κ π) (I : κ → π → Prop) : TransactionEvent σ ω κ → Prop
  | .start _ key program => P.Keeps I key program
  | _ => True

theorem Sound.step [DecidableEq κ] {event : TransactionEvent σ ω κ} (hs : Sound P I s)
    (hevent : Starts P I event) (h : s.step P event = .ok s') : Sound P I s' := by
  cases event with
  | start id key program =>
    unfold SharedStore.step at h
    dsimp only at h
    split at h
    · cases h
    · next hfree =>
      cases h
      exact hs.start hfree hevent
  | statement id =>
    unfold SharedStore.step at h
    dsimp only at h
    split at h
    · cases h
    · next tx htx =>
      obtain ⟨key, log, rest⟩ := tx
      split at h
      · cases h
      · next statement rest' hrest =>
        subst hrest
        split at h
        · next hlock =>
          split at h
          · cases h
            exact hs.close id
          · next writes hok =>
            cases h
            exact hs.statement htx hlock hok
        · cases h
  | commit id =>
    unfold SharedStore.step at h
    dsimp only at h
    split at h
    · cases h
    · next tx htx =>
      split at h
      · next hrest =>
        cases h
        exact hs.commit htx hrest
      · cases h
  | rollback id =>
    cases h
    exact hs.close id

/-- A store that nothing is open on. -/
def quiet (committed : σ) : SharedStore σ ω κ := ⟨committed, fun _ ↦ none, fun _ ↦ none⟩

/-- What every program keeps of the part of its key holds of all that is ever committed. -/
theorem committed_of_starts [DecidableEq κ] {committed : σ} {events : List (TransactionEvent σ ω κ)}
    (hparts : ∀ k, I k (P.part k committed)) (hevents : ∀ event ∈ events, Starts P I event)
    (k : κ) :
    I k (P.part k (replay (step P) (quiet committed) events).committed) := by
  have hquiet : Sound P I (quiet committed : SharedStore σ ω κ) :=
    ⟨hparts, fun _ _ h ↦ (Option.some_ne_none _ h.symm).elim,
      fun _ _ h ↦ (Option.some_ne_none _ h.symm).elim⟩
  have hsound : Sound P I (replay (step P) (quiet committed) events) :=
    replay_invariant (Sound P I) (fun _ _ _ hs hevent h ↦ hs.step hevent h) hquiet
      (along_of_forall fun _ ↦ hevents)
  exact hsound.committed k

end SharedStore

end ColivingSpec.Lib
