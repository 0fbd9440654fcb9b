import ColivingSpec.Lib.Replay
import Mathlib.Data.Finset.Card

/-!
# Refreshing the balances of users

Users whose balances are to be read are enqueued in one of two sets of redis. A run of the task takes
the users of both sets, reads their balances one by one, commits what it has read, and then removes
all users that it took: those whose read failed too, and those that were enqueued again meanwhile. A
request is answered as long as neither happens.
-/

namespace ColivingSpec.Discovery

open Lib List Function

namespace BalanceRefresh

/-- The two sets: `get_balances.py:14–15`. -/
inductive Queue where
  | lazy
  | immediate
  deriving DecidableEq, Repr

/-- `BALANCE_REFRESH`, in seconds. -/
def balanceRefresh : ℕ := 12 * 60 * 60

def maxLazyRefreshUserIds : ℕ := 100

/-- The balances of a user. -/
structure Balances where
  balance : ℕ
  associatedWalletsBalance : ℕ
  weiDigitalcoin : ℕ
  associatedSolWalletsBalance : ℕ
  deriving DecidableEq, Repr

/-- A row of `user_balances`. -/
structure UserBalance where
  createdAt : ℕ
  updatedAt : ℕ
  balances : Balances
  deriving DecidableEq, Repr

/-- `get_balances.py:18–31`. -/
def doesUserBalanceNeedRefresh (now : ℕ) (userBalance : UserBalance) : Bool :=
  decide (userBalance.updatedAt = userBalance.createdAt ∨
    userBalance.updatedAt + balanceRefresh < now)

/-- How far a run has come. -/
inductive Phase where
  | tookLazy
  | tookBoth
  | reads
  | committed
  | removedLazy
  | done
  deriving DecidableEq, Repr

/-- What was read for a user, and when the read began. -/
structure Fetched where
  user : ℕ
  since : ℕ
  balances : Balances
  deriving DecidableEq, Repr

/-- A run of the task: the users taken from each set, those still to be read, the one that is being
read and since when, and what was read. -/
structure Run where
  phase : Phase
  ids : Queue → Finset ℕ
  pending : List ℕ
  reading : Option (ℕ × ℕ)
  fetched : List Fetched

variable (run : Run) (s : State)

/-- The users whose read began, and when. -/
def Run.begun : List (ℕ × ℕ) :=
  run.reading.toList ++ run.fetched.map fun f ↦ (f.user, f.since)

/-- The sets, the users with a current row, the rows of balances, and the runs. The clock counts the
events; what it said is noted for the last time a user was enqueued in a set, and for the reads whose
results are stored. -/
structure State where
  queue : Queue → Finset ℕ
  users : Finset ℕ
  rows : ℕ → Option UserBalance
  runs : List Run
  clock : ℕ
  lastEnqueued : Queue → ℕ → Option ℕ
  stored : List (ℕ × ℕ)

/-- What a run does next. -/
inductive Act where
  /-- It reads the set of immediate requests. -/
  | takesImmediate
  /-- It finds the current rows of users, in some order. -/
  | queries (users : List ℕ)
  | startsRead
  /-- The read of a user succeeds with these balances, or fails. -/
  | endsRead (result : Option Balances)
  | commits (time : ℕ)
  | removes (q : Queue)
  /-- An exception is raised, or the process is lost. -/
  | fails
  deriving Repr

/-- What happens. -/
inductive Event where
  | enqueues (q : Queue) (users : List ℕ)
  /-- From now on these users have a current row. -/
  | indexesUsers (users : Finset ℕ)
  /-- A run starts, and takes these users from the set of lazy requests. -/
  | takesLazy (ids : Finset ℕ) (time : ℕ)
  | goes (i : ℕ) (act : Act)

/-- The lazy requests whose rows need to be refreshed: `cache_user_balance.py:55–71`. -/
def State.lazyRefreshUserIds (time : ℕ) : Finset ℕ :=
  (s.queue .lazy).filter fun user ↦ (s.rows user).any (doesUserBalanceNeedRefresh time)

/-- The row of a user after a commit: users without a row get one, and what was read is written:
`cache_user_balance.py:127–150, 338–345`. -/
def Run.commitRow (time user : ℕ) (row : Option UserBalance) : Option UserBalance :=
  if user ∈ run.ids .lazy ∪ run.ids .immediate then
    let userBalance := row.getD ⟨time, time, ⟨0, 0, 0, 0⟩⟩
    match run.fetched.find? (·.user = user) with
    | some f => some { userBalance with balances := f.balances }
    | none => some userBalance
  else row

/-- One act of a run: `cache_user_balance.py:103–380`. -/
def act (run : Run) : Act → Except String (State × Run)
  | .takesImmediate =>
    if run.phase = .tookLazy then
      .ok (s, { run with
        phase := .tookBoth
        ids := Function.update run.ids .immediate (s.queue .immediate) })
    else .error "not its turn"
  | .queries users =>
    if run.phase = .tookBoth ∧ users.Nodup ∧
        users.toFinset = (run.ids .lazy ∪ run.ids .immediate) ∩ s.users then
      .ok (s, { run with phase := .reads, pending := users })
    else .error "not its turn"
  | .startsRead =>
    match run.phase, run.reading, run.pending with
    | .reads, none, user :: rest =>
      .ok (s, { run with pending := rest, reading := some (user, s.clock) })
    | _, _, _ => .error "not its turn"
  | .endsRead result =>
    match run.phase, run.reading with
    | .reads, some (user, since) =>
      .ok (s, { run with
        reading := none
        fetched := (result.map fun balances ↦ ⟨user, since, balances⟩).toList ++ run.fetched })
    | _, _ => .error "not its turn"
  | .commits time =>
    match run.phase, run.reading, run.pending with
    | .reads, none, [] =>
      .ok ({ s with
        rows := fun user ↦ run.commitRow time user (s.rows user)
        stored := run.begun ++ s.stored }, { run with phase := .committed })
    | _, _, _ => .error "not its turn"
  | .removes q =>
    match q, run.phase with
    | .lazy, .committed =>
      .ok ({ s with queue := Function.update s.queue .lazy (s.queue .lazy \ run.ids .lazy) },
        { run with phase := .removedLazy })
    | .immediate, .removedLazy =>
      .ok ({ s with
        queue := Function.update s.queue .immediate (s.queue .immediate \ run.ids .immediate) },
        { run with phase := .done })
    | _, _ => .error "not its turn"
  | .fails => .ok (s, { run with phase := .done })

/-- What an event does, the clock apart. -/
def effect : Event → Except String State
  | .enqueues q users => .ok { s with
      queue := Function.update s.queue q (s.queue q ∪ users.toFinset)
      lastEnqueued := fun q' user ↦
        if q' = q ∧ user ∈ users then some s.clock else s.lastEnqueued q' user }
  | .indexesUsers users => .ok { s with users := users }
  | .takesLazy ids time =>
    if ids ⊆ s.lazyRefreshUserIds time ∧
        ids.card = min maxLazyRefreshUserIds (s.lazyRefreshUserIds time).card then
      .ok { s with
        runs := s.runs ++ [⟨.tookLazy, fun q ↦ if q = .lazy then ids else ∅, [], none, []⟩] }
    else .error "other users are lazy"
  | .goes i a =>
    match s.runs[i]? with
    | none => .error "no such run"
    | some run => do
      let (s', run') ← act s run a
      return { s' with runs := s'.runs.set i run' }

def step (e : Event) : Except String State := do
  let s' ← effect s e
  return { s' with clock := s.clock + 1 }

/-- Nothing is enqueued, and no user has a row. -/
def start : State := ⟨fun _ ↦ ∅, ∅, fun _ ↦ none, [], 0, fun _ _ ↦ none, []⟩

/-- The state after a run of events. -/
def stateAfter (events : List Event) : State := replay step start events

/-- A user who was enqueued in a set is in it, or a read that began after that is stored. -/
def NoneLost : Prop :=
  ∀ q user t, s.lastEnqueued q user = some t →
    user ∈ s.queue q ∨ ∃ since, (user, since) ∈ s.stored ∧ t < since

/-- The run has begun to read the user, or is past that, and is still to remove it from the set. -/
def Run.Awaits (q : Queue) (user : ℕ) : Prop :=
  user ∈ run.ids q ∧
    match run.phase with
    | .reads => user ∉ run.pending
    | .committed => True
    | .removedLazy => q = .immediate
    | _ => False

instance (run : Run) (q : Queue) (user : ℕ) : Decidable (run.Awaits q user) := by
  unfold Run.Awaits
  cases run.phase <;> infer_instance

/-- Each user that a run has taken has a current row when the run looks for it, and reads succeed. -/
def Run.Answers : Act → Prop
  | .queries _ => run.ids .lazy ∪ run.ids .immediate ⊆ s.users
  | .endsRead result => result ≠ none
  | _ => True

/-- Runs are answered, and no user is enqueued in a set between the beginning of a read and the
removal from that set. -/
def NothingMissed : Event → Prop
  | .enqueues q users => ∀ user ∈ users, ∀ run ∈ s.runs, ¬ run.Awaits q user
  | .goes i a => ∀ run ∈ s.runs[i]?, run.Answers s a
  | _ => True

instance (run : Run) (s : State) (a : Act) : Decidable (run.Answers s a) := by
  unfold Run.Answers
  cases a <;> infer_instance

instance (s : State) (e : Event) : Decidable (NothingMissed s e) := by
  unfold NothingMissed
  cases e <;> infer_instance

/-- The time is after the last request of the user in the set. -/
def After (q : Queue) (user since : ℕ) : Prop :=
  ∀ t, s.lastEnqueued q user = some t → t < since

/-- The users that a run will remove from a set are read after their last request. -/
def Followed (run : Run) : Prop :=
  match run.phase with
  | .reads => ∀ q, ∀ user ∈ run.ids q, user ∈ run.pending ∨
      ∃ since, (user, since) ∈ run.begun ∧ After s q user since
  | .committed => ∀ q, ∀ user ∈ run.ids q, ∃ since, (user, since) ∈ s.stored ∧ After s q user since
  | .removedLazy => ∀ user ∈ run.ids .immediate, ∃ since, (user, since) ∈ s.stored ∧
      After s .immediate user since
  | _ => True

/-- What holds between the events. -/
structure Consistent (s : State) : Prop where
  enqueuedBefore : ∀ q user t, s.lastEnqueued q user = some t → t < s.clock
  kept : NoneLost s
  runs : ∀ run ∈ s.runs, Followed s run

/-! ### What a run knows -/

variable {s : State} {run : Run} {s' : State} {q : Queue}

theorem followed_of_reads (hphase : run.phase = .reads) :
    Followed s run ↔ ∀ q, ∀ user ∈ run.ids q, user ∈ run.pending ∨
      ∃ since, (user, since) ∈ run.begun ∧ After s q user since := by
  unfold Followed
  rw [hphase]

theorem followed_of_committed (hphase : run.phase = .committed) :
    Followed s run ↔ ∀ q, ∀ user ∈ run.ids q, ∃ since, (user, since) ∈ s.stored ∧
      After s q user since := by
  unfold Followed
  rw [hphase]

theorem followed_of_removedLazy (hphase : run.phase = .removedLazy) :
    Followed s run ↔ ∀ user ∈ run.ids .immediate, ∃ since, (user, since) ∈ s.stored ∧
      After s .immediate user since := by
  unfold Followed
  rw [hphase]

/-- A run is followed on when no request comes and what is stored stays. -/
theorem Followed.mono (h : Followed s run) (hlast : s'.lastEnqueued = s.lastEnqueued)
    (hstored : s.stored ⊆ s'.stored) :
    Followed s' run := by
  have hafter : ∀ q user since, After s q user since → After s' q user since := by
    intro q user since hsince t ht
    rw [hlast] at ht
    exact hsince t ht
  cases hphase : run.phase with
  | reads =>
    rw [followed_of_reads hphase] at h ⊢
    intro q user huser
    rcases h q user huser with hpending | ⟨since, hmem, hsince⟩
    · exact .inl hpending
    · exact .inr ⟨since, hmem, hafter q user since hsince⟩
  | committed =>
    rw [followed_of_committed hphase] at h ⊢
    intro q user huser
    obtain ⟨since, hmem, hsince⟩ := h q user huser
    exact ⟨since, hstored hmem, hafter q user since hsince⟩
  | removedLazy =>
    rw [followed_of_removedLazy hphase] at h ⊢
    intro user huser
    obtain ⟨since, hmem, hsince⟩ := h user huser
    exact ⟨since, hstored hmem, hafter .immediate user since hsince⟩
  | tookLazy | tookBoth | done =>
    unfold Followed
    rw [hphase]
    trivial

/-- A request does not come in between for a run that does not await the user. -/
theorem Followed.enqueues (h : Followed s run) {users : List ℕ}
    (hnone : ∀ user ∈ users, ¬ run.Awaits q user) (hstored : s'.stored = s.stored)
    (hlast : s'.lastEnqueued = fun q' user ↦
      if q' = q ∧ user ∈ users then some s.clock else s.lastEnqueued q' user) :
    Followed s' run := by
  have hafter : ∀ q' user since, ¬ (q' = q ∧ user ∈ users) → After s q' user since →
      After s' q' user since := by
    intro q' user since hother hsince t ht
    rw [hlast] at ht
    dsimp only at ht
    rw [if_neg hother] at ht
    exact hsince t ht
  cases hphase : run.phase with
  | reads =>
    rw [followed_of_reads hphase] at h ⊢
    intro q' user huser
    rcases h q' user huser with hpending | ⟨since, hmem, hsince⟩
    · exact .inl hpending
    · by_cases hpending : user ∈ run.pending
      · exact .inl hpending
      · refine .inr ⟨since, hmem, hafter q' user since ?_ hsince⟩
        rintro ⟨rfl, hin⟩
        apply hnone user hin
        unfold Run.Awaits
        rw [hphase]
        exact ⟨huser, hpending⟩
  | committed =>
    rw [followed_of_committed hphase] at h ⊢
    intro q' user huser
    obtain ⟨since, hmem, hsince⟩ := h q' user huser
    refine ⟨since, hstored ▸ hmem, hafter q' user since ?_ hsince⟩
    rintro ⟨rfl, hin⟩
    apply hnone user hin
    unfold Run.Awaits
    rw [hphase]
    exact ⟨huser, trivial⟩
  | removedLazy =>
    rw [followed_of_removedLazy hphase] at h ⊢
    intro user huser
    obtain ⟨since, hmem, hsince⟩ := h user huser
    refine ⟨since, hstored ▸ hmem, hafter _ user since ?_ hsince⟩
    rintro ⟨rfl, hin⟩
    apply hnone user hin
    unfold Run.Awaits
    rw [hphase]
    exact ⟨huser, rfl⟩
  | tookLazy | tookBoth | done =>
    unfold Followed
    rw [hphase]
    trivial

/-! ### Steps -/

/-- Removing users from a set loses none whose reads after the last request are stored. -/
theorem NoneLost.removes (h : NoneLost s) {ids : Finset ℕ}
    (hids : ∀ user ∈ ids, ∃ since, (user, since) ∈ s.stored ∧ After s q user since) :
    NoneLost { s with queue := update s.queue q (s.queue q \ ids) } := by
  intro q' user t ht
  rcases h q' user t ht with hmem | hread
  · by_cases hq : q' = q
    · subst hq
      by_cases hin : user ∈ ids
      · obtain ⟨since, hstored, hafter⟩ := hids user hin
        exact .inr ⟨since, hstored, hafter t ht⟩
      · left
        show user ∈ update s.queue q' (s.queue q' \ ids) q'
        rw [update_self]
        exact Finset.mem_sdiff.mpr ⟨hmem, hin⟩
    · left
      show user ∈ update s.queue q (s.queue q \ ids) q'
      rw [update_of_ne hq]
      exact hmem
  · exact .inr hread

/-- What an act of a run keeps: the requests and the clock, what is stored, and the other runs. -/
structure Kept (s s' : State) : Prop where
  lastEnqueued : s'.lastEnqueued = s.lastEnqueued
  runs : s'.runs = s.runs
  clock : s'.clock = s.clock
  stored : s.stored ⊆ s'.stored

theorem Kept.refl (s : State) : Kept s s := ⟨rfl, rfl, rfl, Subset.refl _⟩

/-- More stored reads lose no request. -/
theorem NoneLost.mono (h : NoneLost s) (hqueue : s'.queue = s.queue)
    (hlast : s'.lastEnqueued = s.lastEnqueued) (hstored : s.stored ⊆ s'.stored) :
    NoneLost s' := by
  intro q user t ht
  rw [hlast] at ht
  rcases h q user t ht with hmem | ⟨since, hmem, hlt⟩
  · exact .inl (hqueue ▸ hmem)
  · exact .inr ⟨since, hstored hmem, hlt⟩

/-- The users that a run has taken are pending once it has found a row for each. -/
theorem followed_of_pending (hphase : run.phase = .reads)
    (hpending : run.ids .lazy ∪ run.ids .immediate ⊆ run.pending.toFinset) : Followed s run := by
  rw [followed_of_reads hphase]
  intro q user huser
  left
  rw [← mem_toFinset]
  apply hpending
  cases q with
  | lazy => exact Finset.mem_union_left _ huser
  | immediate => exact Finset.mem_union_right _ huser

/-- A read begins now, after all requests so far. -/
theorem Followed.startsRead (h : Followed s run)
    (hbefore : ∀ q user t, s.lastEnqueued q user = some t → t < s.clock)
    (hphase : run.phase = .reads) (hreading : run.reading = none) {user : ℕ} {rest : List ℕ}
    (hpending : run.pending = user :: rest) :
    Followed s { run with pending := rest, reading := some (user, s.clock) } := by
  rw [followed_of_reads hphase] at h
  apply (followed_of_reads _).mpr _
  · exact hphase
  intro q other hother
  rcases h q other hother with hmem | ⟨since, hmem, hafter⟩
  · rw [hpending] at hmem
    rcases mem_cons.mp hmem with rfl | hrest
    · exact .inr ⟨s.clock, mem_cons_self, hbefore q other⟩
    · exact .inl hrest
  · right
    unfold Run.begun at hmem
    rw [hreading] at hmem
    exact ⟨since, mem_cons_of_mem _ hmem, hafter⟩

/-- A read that succeeds is noted with the time at which it began. -/
theorem Followed.endsRead (h : Followed s run) (hphase : run.phase = .reads) {user since : ℕ}
    (hreading : run.reading = some (user, since)) (balances : Balances) :
    Followed s { run with reading := none, fetched := ⟨user, since, balances⟩ :: run.fetched } := by
  rw [followed_of_reads hphase] at h
  apply (followed_of_reads _).mpr _
  · exact hphase
  intro q other hother
  rcases h q other hother with hmem | ⟨since', hmem, hafter⟩
  · exact .inl hmem
  · right
    unfold Run.begun at hmem
    rw [hreading] at hmem
    exact ⟨since', hmem, hafter⟩

/-- A run that commits has nothing pending, and stores all reads that it began. -/
theorem Followed.commits (h : Followed s run) (hphase : run.phase = .reads)
    (hpending : run.pending = []) (hlast : s'.lastEnqueued = s.lastEnqueued)
    (hstored : run.begun ⊆ s'.stored) :
    Followed s' { run with phase := .committed } := by
  rw [followed_of_reads hphase] at h
  intro q user huser
  rcases h q user huser with hmem | ⟨since, hmem, hafter⟩
  · rw [hpending] at hmem
    cases hmem
  · refine ⟨since, hstored hmem, ?_⟩
    intro t ht
    rw [hlast] at ht
    exact hafter t ht

/-- An act of a run that is answered loses no request, and the run is followed on. -/
theorem Consistent.act {run' : Run} {a : Act} (h : Consistent s) (hrun : Followed s run)
    (hanswers : run.Answers s a) (hact : act s run a = .ok (s', run')) :
    Kept s s' ∧ NoneLost s' ∧ Followed s' run' := by
  cases a with
  | takesImmediate =>
    dsimp only [BalanceRefresh.act] at hact
    split at hact
    · cases hact
      exact ⟨Kept.refl s, h.kept, trivial⟩
    · cases hact
  | queries users =>
    dsimp only [BalanceRefresh.act] at hact
    split at hact
    · next hturn =>
      cases hact
      refine ⟨Kept.refl s, h.kept, followed_of_pending rfl ?_⟩
      rw [hturn.2.2]
      exact Finset.subset_inter (Finset.Subset.refl _) hanswers
    · cases hact
  | startsRead =>
    dsimp only [BalanceRefresh.act] at hact
    split at hact
    · next hphase hreading hpending =>
      cases hact
      exact ⟨Kept.refl s, h.kept, hrun.startsRead h.enqueuedBefore hphase hreading hpending⟩
    · cases hact
  | endsRead result =>
    dsimp only [BalanceRefresh.act] at hact
    split at hact
    · next hphase hreading =>
      obtain ⟨balances, rfl⟩ := Option.ne_none_iff_exists'.mp hanswers
      cases hact
      exact ⟨Kept.refl s, h.kept, hrun.endsRead hphase hreading balances⟩
    · cases hact
  | commits time =>
    dsimp only [BalanceRefresh.act] at hact
    split at hact
    · next hphase hreading hpending =>
      cases hact
      have hstored : s.stored ⊆ run.begun ++ s.stored := subset_append_right _ _
      exact ⟨⟨rfl, rfl, rfl, hstored⟩, h.kept.mono rfl rfl hstored,
        hrun.commits hphase hpending rfl (subset_append_left _ _)⟩
    · cases hact
  | removes q =>
    dsimp only [BalanceRefresh.act] at hact
    split at hact
    · next hphase =>
      cases hact
      rw [followed_of_committed hphase] at hrun
      exact ⟨⟨rfl, rfl, rfl, Subset.refl _⟩, h.kept.removes (hrun .lazy), hrun .immediate⟩
    · next hphase =>
      cases hact
      rw [followed_of_removedLazy hphase] at hrun
      exact ⟨⟨rfl, rfl, rfl, Subset.refl _⟩, h.kept.removes hrun, trivial⟩
    · cases hact
  | fails =>
    cases hact
    exact ⟨Kept.refl s, h.kept, trivial⟩

theorem Consistent.enqueues (h : Consistent s) {users : List ℕ}
    (hnone : ∀ user ∈ users, ∀ run ∈ s.runs, ¬ run.Awaits q user)
    (hs' : step s (.enqueues q users) = .ok s') : Consistent s' := by
  cases hs'
  refine ⟨?_, ?_, ?_⟩
  · intro q' user t ht
    show t < s.clock + 1
    dsimp only at ht
    split at ht
    · cases ht
      omega
    · have := h.enqueuedBefore q' user t ht
      omega
  · intro q' user t ht
    dsimp only at ht ⊢
    split at ht
    · next hin =>
      left
      rw [hin.1, update_self]
      exact Finset.mem_union_right _ (mem_toFinset.mpr hin.2)
    · rcases h.kept q' user t ht with hmem | hread
      · left
        by_cases hq : q' = q
        · subst hq
          rw [update_self]
          exact Finset.mem_union_left _ hmem
        · rw [update_of_ne hq]
          exact hmem
      · exact .inr hread
  · intro run hrun
    exact (h.runs run hrun).enqueues (fun user huser ↦ hnone user huser run hrun) rfl rfl

/-- One event. -/
theorem Consistent.step {e : Event} (h : Consistent s) (hg : NothingMissed s e)
    (hstep : step s e = .ok s') : Consistent s' := by
  cases e with
  | enqueues q users => exact h.enqueues hg hstep
  | indexesUsers users =>
    cases hstep
    exact ⟨fun q user t ht ↦ Nat.lt_succ_of_lt (h.enqueuedBefore q user t ht), h.kept, h.runs⟩
  | takesLazy ids time =>
    obtain ⟨t, heffect, hok⟩ := bind_eq_ok.mp hstep
    cases hok
    dsimp only [effect] at heffect
    split at heffect
    · cases heffect
      refine ⟨fun q user t ht ↦ Nat.lt_succ_of_lt (h.enqueuedBefore q user t ht), h.kept, ?_⟩
      intro run hrun
      rcases mem_append.mp hrun with hold | hnew
      · exact h.runs run hold
      · rw [mem_singleton.mp hnew]
        trivial
    · cases heffect
  | goes i a =>
    obtain ⟨t, heffect, hok⟩ := bind_eq_ok.mp hstep
    cases hok
    dsimp only [effect] at heffect
    split at heffect
    · cases heffect
    · next run hrun =>
      obtain ⟨⟨t', run'⟩, hact, hok⟩ := bind_eq_ok.mp heffect
      cases hok
      obtain ⟨hkept, hnone, hfollowed⟩ :=
        h.act (h.runs run (mem_of_getElem? hrun)) (hg run hrun) hact
      refine ⟨?_, hnone, ?_⟩
      · intro q user time ht
        rw [hkept.lastEnqueued] at ht
        exact Nat.lt_succ_of_lt (h.enqueuedBefore q user time ht)
      · intro other hother
        rcases mem_or_eq_of_mem_set hother with hold | rfl
        · rw [hkept.runs] at hold
          exact (h.runs other hold).mono hkept.lastEnqueued hkept.stored
        · exact hfollowed.mono rfl (Subset.refl _)

theorem consistent_start : Consistent start := by
  refine ⟨?_, ?_, ?_⟩
  · rintro q user t ⟨⟩
  · rintro q user t ⟨⟩
  · intro run hrun
    cases hrun

end BalanceRefresh

open BalanceRefresh in
/-- In a run in which reads succeed for users with current rows, and nobody is enqueued in a set
between the beginning of a read and the removal from that set, a user leaves a set only after a read
that began after the last request is stored. -/
theorem balanceRefresh_noneLost (events : List BalanceRefresh.Event)
    (h : Along BalanceRefresh.step NothingMissed BalanceRefresh.start events) :
    NoneLost (stateAfter events) :=
  (replay_invariant Consistent (fun _ _ _ hs hg hstep ↦ hs.step hg hstep) consistent_start h).kept

open BalanceRefresh in
/-- A user is enqueued and read. -/
theorem balanceRefresh_noneLost_read :
    NoneLost (stateAfter [.indexesUsers {1}, .enqueues .immediate [1], .takesLazy ∅ 0,
      .goes 0 .takesImmediate, .goes 0 (.queries [1]), .goes 0 .startsRead,
      .goes 0 (.endsRead (some ⟨5, 0, 0, 0⟩)), .goes 0 (.commits 9), .goes 0 (.removes .lazy),
      .goes 0 (.removes .immediate)]) :=
  balanceRefresh_noneLost _ (by decide +kernel)

open BalanceRefresh in
/-- A user is enqueued, and the read of the balance fails. -/
def failedRead : List BalanceRefresh.Event :=
  [.indexesUsers {1}, .enqueues .immediate [1], .takesLazy ∅ 0, .goes 0 .takesImmediate,
    .goes 0 (.queries [1]), .goes 0 .startsRead, .goes 0 (.endsRead none), .goes 0 (.commits 9),
    .goes 0 (.removes .lazy), .goes 0 (.removes .immediate)]

open BalanceRefresh in
/-- A user is enqueued again after the read of the balance. -/
def enqueuedAgain : List BalanceRefresh.Event :=
  [.indexesUsers {1}, .enqueues .immediate [1], .takesLazy ∅ 0, .goes 0 .takesImmediate,
    .goes 0 (.queries [1]), .goes 0 .startsRead, .goes 0 (.endsRead (some ⟨5, 0, 0, 0⟩)),
    .enqueues .immediate [1], .goes 0 (.commits 9), .goes 0 (.removes .lazy),
    .goes 0 (.removes .immediate)]

open BalanceRefresh in
/-- Both requests are lost: nothing is stored for the first, and the second came after the read. -/
theorem not_noneLost_failedRead :
    ¬ NoneLost (stateAfter failedRead) ∧ ¬ NoneLost (stateAfter enqueuedAgain) := by
  constructor
  · intro h
    have hlast : (stateAfter failedRead).lastEnqueued .immediate 1 = some 1 := by decide +kernel
    have hstored : (stateAfter failedRead).stored = [] := by decide +kernel
    rcases h .immediate 1 1 hlast with hmem | ⟨since, hmem, -⟩
    · exact absurd hmem (by decide +kernel)
    · rw [hstored] at hmem
      cases hmem
  · intro h
    have hlast : (stateAfter enqueuedAgain).lastEnqueued .immediate 1 = some 7 := by
      decide +kernel
    have hstored : (stateAfter enqueuedAgain).stored = [(1, 5)] := by decide +kernel
    rcases h .immediate 1 7 hlast with hmem | ⟨since, hmem, hlt⟩
    · exact absurd hmem (by decide +kernel)
    · rw [hstored] at hmem
      cases List.mem_singleton.mp hmem
      omega

end ColivingSpec.Discovery
