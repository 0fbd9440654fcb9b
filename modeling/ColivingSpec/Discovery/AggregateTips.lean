import ColivingSpec.Lib.ByKey
import ColivingSpec.Lib.Replay
import Mathlib.Algebra.BigOperators.Group.List.Basic
import Mathlib.Algebra.Ring.Int.Defs
import Mathlib.Data.List.Dedup

/-!
# The aggregate of tips

A run of the task adds up the tips between the checkpoint and the highest slot, and moves the
checkpoint there. Each tip is counted once as long as none is committed at or below a slot that has
been added up: it is never looked at again.
-/

namespace ColivingSpec.Discovery

open Lib List

namespace AggregateTips

/-- A row of `user_tips`, as far as the task reads it. -/
structure UserTip where
  slot : ℕ
  senderUserId : ℕ
  receiverUserId : ℕ
  amount : ℤ
  deriving DecidableEq, Repr

/-- The key of `aggregate_user_tips`. -/
def UserTip.pair (tip : UserTip) : ℕ × ℕ := (tip.senderUserId, tip.receiverUserId)

variable (tips : List UserTip) (t : Tables)

/-- `SUM(amount)` of a pair. -/
def amountOf (pair : ℕ × ℕ) : ℤ :=
  ((withKey UserTip.pair pair tips).map UserTip.amount).sum

/-- `slot > :prev_slot AND slot <= :current_slot`. -/
def between (prevSlot currentSlot : ℕ) (tips : List UserTip) : List UserTip :=
  tips.filter fun tip ↦ decide (prevSlot < tip.slot ∧ tip.slot ≤ currentSlot)

/-- `UPDATE_AGGREGATE_USER_TIPS_QUERY` (`index_aggregate_tips.py:32–53`), as far as it writes the
aggregate of the tips. -/
def addTips (recent : List UserTip) (aggregate : Dict (ℕ × ℕ) ℤ) : Dict (ℕ × ℕ) ℤ :=
  (recent.map UserTip.pair).dedup.foldl
    (fun d pair ↦ d.set pair (amountOf recent pair + (aggregate.get? pair).getD 0)) aggregate

/-- A run of the task: the checkpoint and the highest slot that it has read, and the tips that its
statement has added up. -/
structure Run where
  prevSlot : ℕ
  maxSlot : ℕ
  recent : Option (List UserTip)

/-- The committed rows of both tables, the checkpoint, and the run that has the lock. -/
structure Tables where
  userTips : List UserTip
  aggregateUserTips : Dict (ℕ × ℕ) ℤ
  checkpoint : ℕ
  run : Option Run

/-- What happens: tips are committed, and a run goes on or fails. -/
inductive Event where
  /-- A transaction with these tips is committed. -/
  | commitsTips (tips : List UserTip)
  /-- A run takes the lock, and reads the checkpoint and the highest slot. -/
  | starts
  /-- The run executes its statement. -/
  | addsUp
  /-- The run is committed. -/
  | commits
  /-- The run is rolled back. -/
  | fails
  deriving Repr

/-- One event (`index_aggregate_tips.py:195–218`, `aggregates/__init__.py:69–110`). -/
def step : Event → Except String Tables
  | .commitsTips tips => .ok { t with userTips := t.userTips ++ tips }
  | .starts =>
    if t.run.isSome then .error "locked"
    else
      let maxSlot := (t.userTips.map UserTip.slot).max?.getD 0
      if t.checkpoint = maxSlot ∨ maxSlot = 0 then .ok t
      else .ok { t with run := some ⟨t.checkpoint, maxSlot, none⟩ }
  | .addsUp =>
    match t.run with
    | some ⟨prevSlot, maxSlot, none⟩ =>
      .ok { t with run := some ⟨prevSlot, maxSlot, some (between prevSlot maxSlot t.userTips)⟩ }
    | _ => .error "not running"
  | .commits =>
    match t.run with
    | some ⟨_, maxSlot, some recent⟩ =>
      .ok { t with
        aggregateUserTips := addTips recent t.aggregateUserTips
        checkpoint := maxSlot
        run := none }
    | _ => .error "not running"
  | .fails => .ok { t with run := none }

/-- No tips. -/
def start : Tables := ⟨[], Dict.empty, 0, none⟩

/-- The tables after a run of events. -/
def tables (events : List Event) : Tables := replay step start events

/-- The aggregate has a row for exactly the pairs of the tips, with the sum of their amounts. -/
def HoldsSums (aggregate : Dict (ℕ × ℕ) ℤ) : Prop :=
  ∀ pair, aggregate.get? pair =
    if pair ∈ tips.map UserTip.pair then some (amountOf tips pair) else none

/-- The tips up to the checkpoint. -/
def Tables.counted : List UserTip :=
  t.userTips.filter fun tip ↦ decide (tip.slot ≤ t.checkpoint)

/-- No tip is committed at or below the checkpoint; and when a run is committed, its statement has
added up all tips up to the slot that becomes the checkpoint. -/
def NotLate : Event → Prop
  | .commitsTips tips => ∀ tip ∈ tips, t.checkpoint < tip.slot
  | .commits => ∀ run ∈ t.run, ∀ recent ∈ run.recent,
      between run.prevSlot run.maxSlot t.userTips = recent
  | _ => True

/-- What holds between the events of a run. -/
structure Consistent (t : Tables) : Prop where
  checkpoint : t.checkpoint = 0 ∨ ∃ tip ∈ t.userTips, tip.slot = t.checkpoint
  sums : HoldsSums t.counted t.aggregateUserTips
  run : ∀ run ∈ t.run, run.prevSlot = t.checkpoint ∧ t.checkpoint ≤ run.maxSlot ∧
    ∃ tip ∈ t.userTips, tip.slot = run.maxSlot

/-! ### Adding up -/

/-- Tips up to a slot are those up to a lower one and those between, in some order. -/
theorem filter_le_perm {low high : ℕ} (hle : low ≤ high) :
    (tips.filter fun tip ↦ decide (tip.slot ≤ high)).Perm
      ((tips.filter fun tip ↦ decide (tip.slot ≤ low)) ++ between low high tips) := by
  have hsplit := filter_append_perm (fun tip ↦ decide (tip.slot ≤ low))
    (tips.filter fun tip ↦ decide (tip.slot ≤ high))
  rw [filter_filter, filter_filter] at hsplit
  refine hsplit.symm.trans ?_
  have hlow : ∀ tip : UserTip, (decide (tip.slot ≤ low) && decide (tip.slot ≤ high)) =
      decide (tip.slot ≤ low) := by
    intro tip
    by_cases h : tip.slot ≤ low
    · simp [h, h.trans hle]
    · simp [h]
  have hbetween : ∀ tip : UserTip, (!decide (tip.slot ≤ low) && decide (tip.slot ≤ high)) =
      decide (low < tip.slot ∧ tip.slot ≤ high) := by
    intro tip
    by_cases h : tip.slot ≤ low
    · have hnot : ¬ (low < tip.slot ∧ tip.slot ≤ high) := by omega
      simp only [decide_eq_true h, decide_eq_false hnot, Bool.not_true, Bool.false_and]
    · simp [h, Nat.not_le.mp h]
  simp only [hlow, hbetween]
  exact Perm.refl _

variable {tips : List UserTip} {aggregate : Dict (ℕ × ℕ) ℤ} {t t' : Tables}

/-- The sums of tips do not depend on their order. -/
theorem amountOf_perm {tips' : List UserTip} (h : tips.Perm tips') (pair : ℕ × ℕ) :
    amountOf tips pair = amountOf tips' pair :=
  ((h.filter _).map _).sum_eq

theorem amountOf_append (tips tips' : List UserTip) (pair : ℕ × ℕ) :
    amountOf (tips ++ tips') pair = amountOf tips pair + amountOf tips' pair := by
  rw [amountOf, withKey, filter_append, map_append, sum_append]
  rfl

/-- A pair without a tip has the sum 0. -/
theorem amountOf_eq_zero {pair : ℕ × ℕ} (h : pair ∉ tips.map UserTip.pair) :
    amountOf tips pair = 0 := by
  have hnil : withKey UserTip.pair pair tips = [] := by
    rw [withKey, filter_eq_nil_iff]
    intro tip htip hpair
    exact h (mem_map.mpr ⟨tip, htip, of_decide_eq_true hpair⟩)
  rw [amountOf, hnil]
  rfl

theorem HoldsSums.perm {tips' : List UserTip} (h : HoldsSums tips aggregate)
    (hperm : tips.Perm tips') : HoldsSums tips' aggregate := by
  intro pair
  rw [h pair, amountOf_perm hperm]
  congr 1
  exact propext (hperm.map UserTip.pair).mem_iff

/-- The statement leaves the rows of other pairs alone. -/
theorem get?_addTips_of_not_mem {recent : List UserTip} {pair : ℕ × ℕ}
    (h : pair ∉ recent.map UserTip.pair) :
    (addTips recent aggregate).get? pair = aggregate.get? pair := by
  apply get?_foldl_set_of_not_mem (fun pair ↦ pair)
  rintro other hother rfl
  exact h (mem_dedup.mp hother)

/-- The statement brings the sums of the tips that it reads. -/
theorem HoldsSums.addTips {recent : List UserTip} (h : HoldsSums tips aggregate) :
    HoldsSums (tips ++ recent) (addTips recent aggregate) := by
  intro pair
  rw [map_append, amountOf_append]
  by_cases hrecent : pair ∈ recent.map UserTip.pair
  · have hget : (AggregateTips.addTips recent aggregate).get? pair =
        some (amountOf recent pair + (aggregate.get? pair).getD 0) :=
      get?_foldl_set_of_mem (fun pair ↦ pair)
        (fun pair ↦ amountOf recent pair + (aggregate.get? pair).getD 0)
        (mem_dedup.mpr hrecent) (fun _ _ heq ↦ heq) aggregate
    rw [hget, if_pos (mem_append_right _ hrecent), h pair]
    split
    case isTrue => rw [Option.getD_some, Int.add_comm]
    case isFalse hnone =>
      rw [amountOf_eq_zero hnone, Option.getD_none, Int.add_comm]
  · rw [get?_addTips_of_not_mem hrecent, h pair, amountOf_eq_zero hrecent, Int.add_zero]
    simp only [mem_append, hrecent, or_false]

/-! ### Any run of events -/

theorem consistent_start : Consistent start where
  checkpoint := .inl rfl
  sums _ := rfl
  run _ hrun := by cases hrun

/-- Tips that are not late change nothing of what has been added up. -/
theorem Consistent.commitsTips (h : Consistent t) (hnotLate : NotLate t (.commitsTips tips)) :
    Consistent { t with userTips := t.userTips ++ tips } := by
  refine ⟨?_, ?_, ?_⟩
  · exact h.checkpoint.imp_right fun ⟨tip, htip, hslot⟩ ↦ ⟨tip, mem_append_left _ htip, hslot⟩
  · have hcounted : Tables.counted { t with userTips := t.userTips ++ tips } = t.counted := by
      have hnone : tips.filter (fun tip ↦ decide (tip.slot ≤ t.checkpoint)) = [] := by
        rw [filter_eq_nil_iff]
        intro tip htip hle
        have hlt := hnotLate tip htip
        have hle' := of_decide_eq_true hle
        omega
      show (t.userTips ++ tips).filter _ = _
      rw [filter_append, hnone, append_nil]
      rfl
    rw [hcounted]
    exact h.sums
  · intro run hrun
    obtain ⟨hprev, hle, highest, hhighest, hslot⟩ := h.run run hrun
    exact ⟨hprev, hle, highest, mem_append_left _ hhighest, hslot⟩

theorem Consistent.starts (h : Consistent t) (hstep : step t .starts = .ok t') :
    Consistent t' := by
  dsimp only [step] at hstep
  split at hstep
  case isTrue => cases hstep
  case isFalse =>
    split at hstep
    case isTrue =>
      cases hstep
      exact h
    case isFalse hmax =>
      cases hstep
      refine ⟨h.checkpoint, h.sums, ?_⟩
      rintro _ ⟨⟩
      rw [not_or] at hmax
      cases hslots : (t.userTips.map UserTip.slot).max? with
      | none =>
        rw [hslots] at hmax
        exact absurd rfl hmax.2
      | some maxSlot =>
        obtain ⟨highest, hhighest, hslot⟩ := mem_map.mp (max?_mem hslots)
        refine ⟨rfl, ?_, highest, hhighest, hslot⟩
        rcases h.checkpoint with hzero | ⟨tip, htip, htipslot⟩
        · rw [hzero]
          exact Nat.zero_le _
        · rw [← htipslot]
          exact (max?_le_iff hslots).mp (Nat.le_refl _) _ (mem_map_of_mem htip)

theorem Consistent.addsUp (h : Consistent t) (hstep : step t .addsUp = .ok t') :
    Consistent t' := by
  dsimp only [step] at hstep
  split at hstep
  case h_1 prevSlot maxSlot hrun =>
    cases hstep
    refine ⟨h.checkpoint, h.sums, ?_⟩
    rintro _ ⟨⟩
    exact h.run ⟨prevSlot, maxSlot, none⟩ hrun
  case h_2 => cases hstep

theorem Consistent.commits (h : Consistent t) (hnotLate : NotLate t .commits)
    (hstep : step t .commits = .ok t') : Consistent t' := by
  dsimp only [step] at hstep
  split at hstep
  case h_1 prevSlot maxSlot recent hrun =>
    cases hstep
    obtain ⟨hprev, hle, hhighest⟩ := h.run _ hrun
    refine ⟨.inr hhighest, ?_, fun _ hnone ↦ by cases hnone⟩
    refine HoldsSums.perm ?_ (filter_le_perm t.userTips hle).symm
    have hseen : recent = between t.checkpoint maxSlot t.userTips := by
      rw [← hnotLate _ hrun recent rfl, hprev]
    rw [hseen]
    exact h.sums.addTips
  case h_2 => cases hstep

theorem Consistent.step {e : Event} (h : Consistent t) (hnotLate : NotLate t e)
    (hstep : step t e = .ok t') : Consistent t' := by
  cases e with
  | commitsTips tips =>
    cases hstep
    exact h.commitsTips hnotLate
  | starts => exact h.starts hstep
  | addsUp => exact h.addsUp hstep
  | commits => exact h.commits hnotLate hstep
  | fails =>
    cases hstep
    exact ⟨h.checkpoint, h.sums, fun _ hnone ↦ by cases hnone⟩

end AggregateTips

open AggregateTips in
/-- In a run in which no tip is late, the aggregate holds at all times the sums of the tips up to the
checkpoint; so once the checkpoint has come to the slot of every tip, those of all tips. -/
theorem aggregate_eq_sums (events : List Event) (h : Along step NotLate start events) :
    HoldsSums (tables events).counted (tables events).aggregateUserTips ∧
      ((∀ tip ∈ (tables events).userTips, tip.slot ≤ (tables events).checkpoint) →
        HoldsSums (tables events).userTips (tables events).aggregateUserTips) := by
  have hconsistent : Consistent (tables events) :=
    replay_invariant Consistent (fun _ _ _ hs hg hstep ↦ hs.step hg hstep) consistent_start h
  refine ⟨hconsistent.sums, ?_⟩
  intro hall
  have hcounted : (tables events).counted = (tables events).userTips := by
    rw [Tables.counted, List.filter_eq_self]
    exact fun tip htip ↦ decide_eq_true (hall tip htip)
  rw [← hcounted]
  exact hconsistent.sums

open AggregateTips in
/-- Two tips of one slot, committed together, are both in the sum of their pair. -/
theorem aggregate_eq_sums_together :
    HoldsSums (tables [.commitsTips [⟨5, 1, 2, 10⟩, ⟨5, 1, 2, 20⟩], .starts, .addsUp,
        .commits]).counted
      (tables [.commitsTips [⟨5, 1, 2, 10⟩, ⟨5, 1, 2, 20⟩], .starts, .addsUp,
        .commits]).aggregateUserTips :=
  (aggregate_eq_sums _ (by
    refine ⟨?_, trivial, trivial, ?_, trivial⟩
    · show ∀ tip ∈ ([⟨5, 1, 2, 10⟩, ⟨5, 1, 2, 20⟩] : List UserTip), start.checkpoint < tip.slot
      decide
    · rintro _ ⟨⟩ _ ⟨⟩
      rfl)).1

open AggregateTips in
/-- A tip of a slot that has been added up is committed, and the task runs again. -/
def lateTip : List Event :=
  [.commitsTips [⟨5, 1, 2, 10⟩], .starts, .addsUp, .commits, .commitsTips [⟨5, 1, 2, 20⟩], .starts]

open AggregateTips in
/-- The checkpoint is at the slot of both tips, but only the first is in the sum. -/
theorem not_holdsSums_lateTip :
    (∀ tip ∈ (tables lateTip).userTips, tip.slot ≤ (tables lateTip).checkpoint) ∧
      ¬ HoldsSums (tables lateTip).userTips (tables lateTip).aggregateUserTips := by
  refine ⟨by decide +kernel, ?_⟩
  intro h
  have hrow : (tables lateTip).aggregateUserTips.get? (1, 2) = some 10 := by decide +kernel
  have hsum := h (1, 2)
  exact absurd hsum (by decide +kernel)

end ColivingSpec.Discovery
