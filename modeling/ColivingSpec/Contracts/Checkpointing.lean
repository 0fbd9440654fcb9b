import Mathlib.Tactic.Linarith
import ColivingSpec.Eth.Word
import ColivingSpec.Lib.StepHistory

/-!
# Checkpointed values

`lib/Checkpointing.sol`: a value with its history by block. The newest checkpoint
is overwritten by a later change in the same block; a past block is read by a
binary search. On a history whose times increase the search is the lookup of
`StepHistory`.
-/

namespace ColivingSpec

open Lib ColivingSpec.Lib.StepHistory List

/-- `Checkpointing.sol:21–24`. -/
structure Checkpoint where
  time : ℕ
  value : ℕ
  deriving DecidableEq

/-- `Checkpointing.sol:29–31`, oldest checkpoint first. -/
abbrev History := List Checkpoint

namespace History

variable (self : History) (time : ℕ)

/-- Storage read at an index; an absent checkpoint is zero. -/
def checkpointAt (index : ℕ) : Checkpoint := self.getD index ⟨0, 0⟩

/-- `Checkpointing.sol:90–103`. -/
def _add192 (value : ℕ) : Except String History :=
  match self.getLast? with
  | none => .ok (self ++ [⟨time, value⟩])
  | some currentCheckpoint =>
    if currentCheckpoint.time < time then
      .ok (self ++ [⟨time, value⟩])
    else do
      require (time = currentCheckpoint.time) "CHECKPOINT_CANNOT_ADD_PAST_VALUE"
      return self.dropLast ++ [{ currentCheckpoint with value }]

/-- `Checkpointing.sol:41–44`. -/
def add (value : ℕ) : Except String History := do
  require (value < uint192Bound) "CHECKPOINT_VALUE_TOO_BIG"
  self._add192 time value

/-- `Checkpointing.sol:50–57`. -/
def getLast (self : History) : ℕ :=
  match self.getLast? with
  | some checkpoint => checkpoint.value
  | none => 0

/-- Time of the newest checkpoint, zero when there is none. -/
def lastTime : ℕ :=
  match self.getLast? with
  | some checkpoint => checkpoint.time
  | none => 0

/-- The loop of `Checkpointing.sol:160–173`. Each round shrinks `high - low`, so
the number of checkpoints is fuel enough. -/
def searchLoop (self : History) (time : ℕ) : ℕ → ℕ → ℕ → ℕ
  | 0, low, _ => (self.checkpointAt low).value
  | fuel + 1, low, high =>
    if low < high then
      let mid := (high + low + 1) / 2
      let midTime := (self.checkpointAt mid).time
      if midTime < time then self.searchLoop time fuel mid high
      else if time < midTime then self.searchLoop time fuel low (mid - 1)
      else (self.checkpointAt mid).value
    else (self.checkpointAt low).value

/-- `Checkpointing.sol:138–177`. -/
def _binarySearch : ℕ :=
  if self.length = 0 then 0
  else
    let lastIndex := self.length - 1
    if (self.checkpointAt lastIndex).time ≤ time then (self.checkpointAt lastIndex).value
    else if time < (self.checkpointAt 0).time then 0
    else self.searchLoop time self.length 0 lastIndex

/-- `Checkpointing.sol:67–69`. -/
def get : ℕ := self._binarySearch time

/-- The loop of `Checkpointing.sol:126–132`: the index it stops at. -/
def stepBack (self : History) (time : ℕ) : ℕ → ℕ
  | 0 => 0
  | index + 1 =>
    if time < (self.checkpointAt (index + 1)).time then self.stepBack time index else index + 1

/-- `Checkpointing.sol:118–135`. -/
def _backwardsLinearSearch : ℕ :=
  if self.length = 0 then 0
  else
    let checkpoint := self.checkpointAt (self.stepBack time (self.length - 1))
    if time < checkpoint.time then 0 else checkpoint.value

/-- `Checkpointing.sol:79–81`. -/
def getRecent : ℕ := self._backwardsLinearSearch time

/-- The history that adding a list of checkpoints builds, if no addition is refused. -/
def addAll (adds : List Checkpoint) : Except String History :=
  adds.foldlM (fun self c ↦ self.add c.time c.value) []

/-- Block numbers of the checkpoints increase. -/
abbrev Sorted : Prop := Increasing Checkpoint.time self

/-- The step function a history denotes. -/
def valueAt : ℕ :=
  match lastUpTo Checkpoint.time time self with
  | some checkpoint => checkpoint.value
  | none => 0

@[simp] theorem valueAt_nil : valueAt [] time = 0 := rfl

@[simp] theorem getLast_nil : getLast [] = 0 := rfl

@[simp] theorem lastTime_nil : lastTime [] = 0 := rfl

variable (self : History) (c : Checkpoint)

@[simp] theorem getLast_concat :
    getLast (self ++ [c]) = c.value := by
  simp [getLast]

@[simp] theorem lastTime_concat :
    lastTime (self ++ [c]) = c.time := by
  simp [lastTime]

theorem valueAt_concat (time : ℕ) :
    valueAt (self ++ [c]) time = if c.time ≤ time then c.value else self.valueAt time := by
  unfold valueAt
  rw [lastUpTo_concat]
  by_cases hle : c.time ≤ time
  · simp only [hle, if_true]
  · simp only [hle, if_false]

/-- Every checkpoint lies at or before the newest one. -/
theorem Sorted.time_le_lastTime {self : History} (hs : self.Sorted) :
    ∀ c ∈ self, c.time ≤ self.lastTime := by
  intro c hc
  cases hlast : self.getLast? with
  | none => simp [getLast?_eq_none_iff.mp hlast] at hc
  | some newest =>
    rw [lastTime, hlast]
    exact hs.forall_le_getLast hlast c hc

/-- From the newest checkpoint on, the history has the newest value. -/
theorem Sorted.valueAt_of_lastTime_le {self : History} (hs : self.Sorted) {time : ℕ}
    (h : self.lastTime ≤ time) : self.valueAt time = self.getLast := by
  unfold valueAt getLast
  rw [lastUpTo_of_forall_le _ _ _ (fun c hc ↦ (hs.time_le_lastTime c hc).trans h)]

section Add

variable {self self' : History} {time value : ℕ}

/-- A checkpoint is appended, or overwrites the newest one of the same block. -/
theorem add_eq_ok : self.add time value = .ok self' ↔
    value < uint192Bound ∧
      ((self.lastTime < time ∨ self = []) ∧ self' = self ++ [⟨time, value⟩] ∨
        ∃ init old, self = init ++ [⟨time, old⟩] ∧ self' = init ++ [⟨time, value⟩]) := by
  unfold add _add192
  rw [require_bind_eq_ok]
  refine and_congr_right fun _ ↦ ?_
  cases hlast : self.getLast? with
  | none =>
    have hnil : self = [] := getLast?_eq_none_iff.mp hlast
    subst hnil
    simp only [or_true, true_and, nil_append, Except.ok.injEq]
    constructor
    · rintro rfl
      exact .inl rfl
    · rintro (rfl | ⟨init, old, hbad, -⟩)
      · rfl
      · simp at hbad
  | some newest =>
    obtain ⟨init, rfl⟩ := getLast?_eq_some_iff.mp hlast
    obtain ⟨newestTime, old⟩ := newest
    by_cases hlt : newestTime < time
    · simp only [hlt, if_true, lastTime_concat, true_or, true_and, Except.ok.injEq]
      constructor
      · rintro rfl
        exact .inl rfl
      · rintro (rfl | ⟨init', old', heq, -⟩)
        · rfl
        · have hc := (append_inj' heq rfl).2
          simp only [cons.injEq, Checkpoint.mk.injEq, and_true] at hc
          exact absurd hc.1 hlt.ne
    · simp only [hlt, if_false, require_bind_eq_ok, pure_eq_ok, dropLast_concat,
        lastTime_concat, append_eq_nil_iff, cons_ne_nil, and_false, or_self, false_and,
        false_or]
      constructor
      · rintro ⟨rfl, rfl⟩
        exact ⟨init, old, rfl, rfl⟩
      · rintro ⟨init', old', heq, rfl⟩
        obtain ⟨rfl, hc⟩ := append_inj' heq rfl
        simp only [cons.injEq, Checkpoint.mk.injEq, and_true] at hc
        exact ⟨hc.1.symm, by rw [hc.1]⟩

/-- Adding succeeds exactly for a value that fits, not before the newest checkpoint. -/
theorem add_succeeds_iff :
    Succeeds (self.add time value) ↔ value < uint192Bound ∧ (self ≠ [] → self.lastTime ≤ time) := by
  unfold Succeeds
  simp only [add_eq_ok, exists_and_left]
  refine and_congr_right fun _ ↦ ?_
  constructor
  · rintro ⟨self', (⟨h, -⟩ | ⟨init, old, rfl, -⟩)⟩ hne
    · exact (h.resolve_right hne).le
    · simp
  · intro h
    by_cases hnil : self = []
    · exact ⟨_, .inl ⟨.inr hnil, rfl⟩⟩
    · rcases (h hnil).lt_or_eq with hlt | heq
      · exact ⟨_, .inl ⟨.inl hlt, rfl⟩⟩
      · obtain ⟨init, ⟨t, old⟩, rfl⟩ : ∃ init c, self = init ++ [c] :=
          ⟨_, _, (dropLast_append_getLast hnil).symm⟩
        rw [lastTime_concat] at heq
        subst heq
        exact ⟨_, .inr ⟨init, old, rfl, rfl⟩⟩

theorem add_getLast (h : self.add time value = .ok self') : self'.getLast = value := by
  obtain ⟨-, ⟨-, rfl⟩ | ⟨init, old, -, rfl⟩⟩ := add_eq_ok.mp h <;> simp

theorem add_lastTime (h : self.add time value = .ok self') : self'.lastTime = time := by
  obtain ⟨-, ⟨-, rfl⟩ | ⟨init, old, -, rfl⟩⟩ := add_eq_ok.mp h <;> simp

theorem add_sorted (h : self.add time value = .ok self') (hs : self.Sorted) : self'.Sorted := by
  obtain ⟨-, ⟨hlt, rfl⟩ | ⟨init, old, rfl, rfl⟩⟩ := add_eq_ok.mp h
  · refine (increasing_concat _ _ _).mpr ⟨hs, fun c hc ↦ ?_⟩
    rcases hlt with hlt | rfl
    · exact (hs.time_le_lastTime c hc).trans_lt hlt
    · simp at hc
  · have hinit := (increasing_concat _ _ _).mp hs
    exact (increasing_concat _ _ _).mpr ⟨hinit.1, hinit.2⟩

/-- The past of the added block keeps its values; the block and its future read the new one. -/
theorem add_valueAt (h : self.add time value = .ok self') (t : ℕ) :
    self'.valueAt t = if time ≤ t then value else self.valueAt t := by
  obtain ⟨-, ⟨-, rfl⟩ | ⟨init, old, rfl, rfl⟩⟩ := add_eq_ok.mp h
  · rw [valueAt_concat]
  · rw [valueAt_concat, valueAt_concat]
    split <;> rfl

theorem add_value_lt (h : self.add time value = .ok self') : value < uint192Bound :=
  (add_eq_ok.mp h).1

end Add

section Search

variable {self : History} {time : ℕ} {i : ℕ}

private theorem checkpointAt_eq (hi : i < self.length) : self.checkpointAt i = self[i] := by
  simp [checkpointAt, hi]

private theorem valueAt_of_position (hs : self.Sorted) (hi : i < self.length)
    (hle : self[i].time ≤ time) (hnext : ∀ h : i + 1 < self.length, time < self[i + 1].time) :
    self.valueAt time = (self.checkpointAt i).value := by
  unfold valueAt
  rw [hs.lastUpTo_eq_getElem hi hle hnext, checkpointAt_eq hi]

/-- The loop keeps `time` between the checkpoint at `low` and the one after `high`. -/
private theorem searchLoop_eq (hs : self.Sorted) {fuel low high : ℕ} (hfuel : high - low ≤ fuel)
    (hlh : low ≤ high) (hhigh : high < self.length)
    (hlow : self[low].time ≤ time)
    (hnext : ∀ h : high + 1 < self.length, time < self[high + 1].time) :
    self.searchLoop time fuel low high = self.valueAt time := by
  induction fuel generalizing low high with
  | zero =>
    obtain rfl : low = high := by omega
    exact (valueAt_of_position hs hhigh hlow hnext).symm
  | succ fuel ih =>
    unfold searchLoop
    by_cases hlt : low < high
    · have hmid : (high + low + 1) / 2 < self.length := by omega
      simp only [hlt, if_true, checkpointAt_eq hmid]
      split
      · next hgo => exact ih (by omega) (by omega) hhigh hgo.le hnext
      · next hstop =>
        split
        · next hgo =>
          refine ih (by omega) (by omega) (by omega) hlow fun h ↦ ?_
          have hback : (high + low + 1) / 2 - 1 + 1 = (high + low + 1) / 2 := by omega
          simpa only [hback] using hgo
        · next hstay =>
          have heq : self[(high + low + 1) / 2].time = time := by omega
          rw [valueAt_of_position hs hmid heq.le, checkpointAt_eq hmid]
          intro h
          have hstep := hs.key_lt (Nat.lt_succ_self _) hmid h
          exact heq ▸ hstep
    · obtain rfl : low = high := by omega
      simp only [lt_irrefl, if_false]
      exact (valueAt_of_position hs hhigh hlow hnext).symm

/-- On increasing checkpoints the binary search reads the step function. -/
theorem Sorted.get_eq_valueAt (hs : self.Sorted) (time : ℕ) :
    self.get time = self.valueAt time := by
  unfold get _binarySearch
  by_cases hlen : self.length = 0
  · simp [length_eq_zero_iff.mp hlen]
  · have hpos : 0 < self.length := by omega
    have hlast : self.length - 1 < self.length := by omega
    simp only [hlen, if_false, checkpointAt_eq hlast, checkpointAt_eq hpos]
    split
    · next hle =>
      rw [valueAt_of_position hs hlast hle (fun h ↦ by omega), checkpointAt_eq hlast]
    · next hgt =>
      split
      · next hfirst =>
        unfold valueAt
        rw [lastUpTo_of_forall_gt]
        intro c hc
        obtain ⟨i, hi, rfl⟩ := mem_iff_getElem.mp hc
        by_cases h0 : i = 0
        · subst h0; exact hfirst
        · exact hfirst.trans (hs.key_lt (by omega) hpos hi)
      · next hfirst =>
        exact searchLoop_eq hs (by omega) (by omega) hlast (by omega) (fun h ↦ by omega)

theorem stepBack_le (self : History) (time index : ℕ) : self.stepBack time index ≤ index := by
  induction index with
  | zero => exact le_rfl
  | succ index ih =>
    unfold stepBack
    split
    · exact ih.trans (Nat.le_succ index)
    · exact le_rfl

/-- The search passes later checkpoints only. -/
theorem lt_time_of_stepBack_lt {index : ℕ} (hback : self.stepBack time index < i) (hi : i ≤ index) :
    time < (self.checkpointAt i).time := by
  induction index with
  | zero => omega
  | succ index ih =>
    unfold stepBack at hback
    split at hback
    · next hlater =>
      rcases hi.lt_or_eq with hlt | rfl
      · exact ih hback (Nat.lt_succ_iff.mp hlt)
      · exact hlater
    · omega

/-- The search stops at a checkpoint in time, or at the first one. -/
theorem stepBack_time_le {index : ℕ} (hne : self.stepBack time index ≠ 0) :
    (self.checkpointAt (self.stepBack time index)).time ≤ time := by
  induction index with
  | zero => exact absurd rfl hne
  | succ index ih =>
    unfold stepBack at hne ⊢
    split
    · next hlater =>
      rw [if_pos hlater] at hne
      exact ih hne
    · next hstop => exact Nat.le_of_not_lt hstop

/-- On increasing checkpoints the linear search reads the step function. -/
theorem Sorted.getRecent_eq_valueAt (hs : self.Sorted) (time : ℕ) :
    self.getRecent time = self.valueAt time := by
  unfold getRecent _backwardsLinearSearch
  by_cases hlen : self.length = 0
  · simp [length_eq_zero_iff.mp hlen]
  · have hle := stepBack_le self time (self.length - 1)
    have hat : self.stepBack time (self.length - 1) < self.length := by omega
    have hlater : ∀ i (h : i < self.length), self.stepBack time (self.length - 1) < i →
        time < self[i].time := by
      intro i h hback
      rw [← checkpointAt_eq h]
      exact lt_time_of_stepBack_lt hback (by omega)
    simp only [hlen, if_false]
    split
    · next hbefore =>
      -- only the first checkpoint can be passed without a stop
      have hzero : self.stepBack time (self.length - 1) = 0 := by
        by_contra hne
        exact absurd (stepBack_time_le hne) (Nat.not_le.mpr hbefore)
      have hforall : ∀ c ∈ self, time < c.time := by
        intro c hc
        obtain ⟨i, hi, rfl⟩ := mem_iff_getElem.mp hc
        rcases Nat.eq_zero_or_pos i with rfl | hpos
        · rwa [hzero, checkpointAt_eq hi] at hbefore
        · exact hlater i hi (by omega)
      unfold valueAt
      rw [lastUpTo_of_forall_gt _ _ _ hforall]
    · next hin =>
      rw [checkpointAt_eq hat] at hin
      exact (valueAt_of_position hs hat (Nat.le_of_not_lt hin)
        (fun h ↦ hlater _ h (Nat.lt_succ_self _))).symm

end Search

section Built

variable {adds : List Checkpoint} {self : History}

theorem addAll_concat (adds : List Checkpoint) (c : Checkpoint) :
    addAll (adds ++ [c]) = addAll adds >>= fun self ↦ self.add c.time c.value := by
  unfold addAll
  rw [foldlM_append]
  simp only [foldlM_cons, foldlM_nil, bind_pure]

/-- A built history increases and has, at each time, the last value added up to it. -/
theorem addAll_spec (h : addAll adds = .ok self) :
    self.Sorted ∧ ∀ t, self.valueAt t = valueAt adds t := by
  induction adds using reverseRecOn generalizing self with
  | nil =>
    obtain rfl : [] = self := Except.ok.inj h
    exact ⟨increasing_nil _, fun _ ↦ rfl⟩
  | append_singleton adds c ih =>
    rw [addAll_concat] at h
    obtain ⟨before, hbefore, hadd⟩ := (bind_eq_ok ..).mp h
    obtain ⟨hs, hvalue⟩ := ih hbefore
    refine ⟨add_sorted hadd hs, fun t ↦ ?_⟩
    rw [add_valueAt hadd, hvalue, valueAt_concat]

/-- A built history is a step function: the two searches read at each time the last checkpoint up
to it, which holds the last value added up to it, and an addition keeps what is read before it. -/
theorem checkpoint_history_step_function (h : addAll adds = .ok self) (t : ℕ) :
    self.get t = self.getRecent t ∧ self.get t = self.valueAt t ∧ self.get t = valueAt adds t ∧
      ∀ u value self', self.add u value = .ok self' → t < u → self'.get t = self.get t := by
  obtain ⟨hs, hvalue⟩ := addAll_spec h
  rw [hs.get_eq_valueAt, hs.getRecent_eq_valueAt]
  refine ⟨rfl, rfl, hvalue t, fun u value self' hadd htu ↦ ?_⟩
  rw [(add_sorted hadd hs).get_eq_valueAt, add_valueAt hadd, if_neg (Nat.not_le.mpr htu)]

theorem checkpoint_history_step_function_overwritten :
    get [⟨3, 6⟩, ⟨7, 1⟩] 4 = getRecent [⟨3, 6⟩, ⟨7, 1⟩] 4 ∧
      get [⟨3, 6⟩, ⟨7, 1⟩] 4 = valueAt [⟨3, 6⟩, ⟨7, 1⟩] 4 ∧
      get [⟨3, 6⟩, ⟨7, 1⟩] 4 = valueAt [⟨3, 5⟩, ⟨3, 6⟩, ⟨7, 1⟩] 4 ∧
      ∀ u value self', add [⟨3, 6⟩, ⟨7, 1⟩] u value = .ok self' → 4 < u →
        self'.get 4 = get [⟨3, 6⟩, ⟨7, 1⟩] 4 :=
  checkpoint_history_step_function
    (show addAll [⟨3, 5⟩, ⟨3, 6⟩, ⟨7, 1⟩] = .ok [⟨3, 6⟩, ⟨7, 1⟩] by decide) 4

end Built

end History

end ColivingSpec
