import Mathlib.Data.List.Dedup
import Mathlib.Data.List.Perm.Subperm

/-!
# Distinct draws

A loop that draws one entry after the other and keeps each admissible one that it does not have
yet, until it has kept a given number. It ends just when the pool that it draws from has that many
distinct admissible entries, provided that each entry of the pool is drawn at some time.
-/

namespace ColivingSpec.Lib

open List

variable {α : Type} [DecidableEq α] (admissible : α → Bool) (draw : ℕ → Option α)

/-- The kept entries after one draw. -/
def keepDraw (kept : List α) : Option α → List α
  | none => kept
  | some x => if !admissible x || kept.contains x then kept else kept ++ [x]

/-- The loop from the draw at a position on; with fuel, since no draw needs to be kept. -/
def drawDistinct (size : ℕ) : ℕ → ℕ → List α → Option (List α)
  | 0, _, kept => if kept.length < size then none else some kept
  | fuel + 1, position, kept =>
    if kept.length < size then
      drawDistinct size fuel (position + 1) (keepDraw admissible kept (draw position))
    else some kept

/-- What all the draws before a position keep. -/
def keptBefore : ℕ → List α
  | 0 => []
  | position + 1 => keepDraw admissible (keptBefore position) (draw position)

/-- Distinct admissible entries of the pool. -/
structure KeptFrom (pool kept : List α) : Prop where
  nodup : kept.Nodup
  mem : ∀ x ∈ kept, x ∈ pool
  admissible : ∀ x ∈ kept, admissible x = true

variable {admissible draw} {pool kept : List α} {x : α} (drawn : Option α) {fuel : ℕ}

theorem keepDraw_of_kept (hx : admissible x = true → x ∈ kept) :
    keepDraw admissible kept (some x) = kept := by
  apply if_pos
  cases hadm : admissible x with
  | false => rfl
  | true => simpa using hx hadm

theorem keepDraw_of_new (hadm : admissible x = true) (hx : x ∉ kept) :
    keepDraw admissible kept (some x) = kept ++ [x] := by
  apply if_neg
  simp [hadm, hx]

variable (admissible kept) in
/-- A draw leaves the kept entries or appends the drawn one. -/
theorem keepDraw_cases :
    keepDraw admissible kept drawn = kept ∨
      ∃ x, drawn = some x ∧ admissible x = true ∧ x ∉ kept ∧
        keepDraw admissible kept drawn = kept ++ [x] := by
  cases drawn with
  | none => exact .inl rfl
  | some x =>
    by_cases hx : admissible x = true → x ∈ kept
    · exact .inl (keepDraw_of_kept hx)
    · obtain ⟨hadm, hnew⟩ := Classical.not_imp.mp hx
      exact .inr ⟨x, rfl, hadm, hnew, keepDraw_of_new hadm hnew⟩

theorem subset_keepDraw : kept ⊆ keepDraw admissible kept drawn := by
  rcases keepDraw_cases admissible kept drawn with h | ⟨x, -, -, -, h⟩
  · rw [h]
    exact fun y hy ↦ hy
  · rw [h]
    exact subset_append_left kept [x]

variable (admissible kept) in
theorem length_keepDraw_le :
    (keepDraw admissible kept drawn).length ≤ kept.length + 1 := by
  rcases keepDraw_cases admissible kept drawn with h | ⟨x, -, -, -, h⟩
  · rw [h]
    omega
  · simp [h]

theorem mem_keepDraw (hadm : admissible x = true) :
    x ∈ keepDraw admissible kept (some x) := by
  by_cases hx : x ∈ kept
  · exact subset_keepDraw _ hx
  · rw [keepDraw_of_new hadm hx]
    exact mem_append_right kept (mem_singleton_self x)

theorem KeptFrom.keepDraw {drawn : Option α} (h : KeptFrom admissible pool kept)
    (hdrawn : ∀ x, drawn = some x → x ∈ pool) :
    KeptFrom admissible pool (keepDraw admissible kept drawn) := by
  rcases keepDraw_cases admissible kept drawn with
    heq | ⟨x, hx, hadm, hnew, heq⟩
  · rwa [heq]
  · rw [heq]
    constructor
    · exact h.nodup.append (nodup_singleton x) (by simpa using hnew)
    · simpa [or_imp, forall_and] using And.intro h.mem (hdrawn x hx)
    · simpa [or_imp, forall_and] using And.intro h.admissible hadm

theorem keptFrom_keptBefore (hpool : ∀ k x, draw k = some x → x ∈ pool) (position : ℕ) :
    KeptFrom admissible pool (keptBefore admissible draw position) := by
  induction position with
  | zero => exact ⟨nodup_nil, by simp [keptBefore], by simp [keptBefore]⟩
  | succ position ih => exact ih.keepDraw (hpool position)

/-- There are at most as many kept entries as distinct admissible ones. -/
theorem KeptFrom.length_le (h : KeptFrom admissible pool kept) :
    kept.length ≤ (pool.filter admissible).dedup.length := by
  have hsub : kept ⊆ (pool.filter admissible).dedup := by
    intro x hx
    rw [mem_dedup, mem_filter]
    exact ⟨h.mem x hx, h.admissible x hx⟩
  exact (subperm_of_subset h.nodup hsub).length_le

theorem keptBefore_subset {first later : ℕ} (h : first ≤ later) :
    keptBefore admissible draw first ⊆ keptBefore admissible draw later := by
  induction h with
  | refl => exact fun x hx ↦ hx
  | step _ ih => exact fun x hx ↦ subset_keepDraw _ (ih hx)

/-- An admissible entry is kept once it has been drawn. -/
theorem mem_keptBefore {k position : ℕ} (hadm : admissible x = true) (hdraw : draw k = some x)
    (h : k < position) : x ∈ keptBefore admissible draw position := by
  apply keptBefore_subset h
  show x ∈ keepDraw admissible (keptBefore admissible draw k) (draw k)
  rw [hdraw]
  exact mem_keepDraw hadm

variable (admissible) in
/-- At some time every admissible entry of the pool is kept. -/
theorem exists_keptBefore_covers (hdrawn : ∀ x ∈ pool, ∃ k, draw k = some x) :
    ∃ position, ∀ x ∈ pool, admissible x = true → x ∈ keptBefore admissible draw position := by
  induction pool with
  | nil => exact ⟨0, by simp⟩
  | cons y pool ih =>
    obtain ⟨position, hposition⟩ := ih fun x hx ↦ hdrawn x (mem_cons_of_mem y hx)
    obtain ⟨k, hk⟩ := hdrawn y mem_cons_self
    use max position (k + 1)
    intro x hx hadm
    rcases mem_cons.mp hx with rfl | hx
    · exact mem_keptBefore hadm hk (by omega)
    · exact keptBefore_subset (Nat.le_max_left _ _) (hposition x hx hadm)

variable {size : ℕ}

/-- What the loop returns is what the draws before some position keep, and has the wanted size. -/
theorem drawDistinct_eq_some (position : ℕ) {result : List α}
    (hle : (keptBefore admissible draw position).length ≤ size)
    (h : drawDistinct admissible draw size fuel position (keptBefore admissible draw position) =
      some result) :
    result.length = size ∧ ∃ last, result = keptBefore admissible draw last := by
  induction fuel generalizing position with
  | zero =>
    rw [drawDistinct] at h
    split at h
    · cases h
    · cases h
      exact ⟨by omega, position, rfl⟩
  | succ fuel ih =>
    rw [drawDistinct] at h
    split at h
    · next hlt =>
      apply ih (position + 1) _ h
      have hgrows := length_keepDraw_le admissible
        (keptBefore admissible draw position) (draw position)
      show (keepDraw _ _ _).length ≤ size
      omega
    · cases h
      exact ⟨by omega, position, rfl⟩

/-- The loop returns once its fuel reaches draws that keep enough. -/
theorem exists_drawDistinct_eq_some (position : ℕ)
    (h : size ≤ (keptBefore admissible draw (position + fuel)).length) :
    ∃ result, drawDistinct admissible draw size fuel position
      (keptBefore admissible draw position) = some result := by
  induction fuel generalizing position with
  | zero => exact ⟨_, if_neg (by simpa using h)⟩
  | succ fuel ih =>
    rw [drawDistinct]
    split
    · apply ih (position + 1)
      rwa [show position + 1 + fuel = position + (fuel + 1) by omega]
    · exact ⟨_, rfl⟩

/-- The loop returns distinct admissible entries of the pool, as many as wanted. -/
theorem keptFrom_of_drawDistinct (hpool : ∀ k x, draw k = some x → x ∈ pool) {result : List α}
    (h : drawDistinct admissible draw size fuel 0 [] = some result) :
    KeptFrom admissible pool result ∧ result.length = size := by
  obtain ⟨hlength, last, rfl⟩ := drawDistinct_eq_some 0 (Nat.zero_le size) h
  exact ⟨keptFrom_keptBefore hpool last, hlength⟩

/-- The loop ends just when the pool has enough distinct admissible entries. -/
theorem exists_drawDistinct_iff (hpool : ∀ k x, draw k = some x → x ∈ pool)
    (hdrawn : ∀ x ∈ pool, ∃ k, draw k = some x) :
    (∃ fuel result, drawDistinct admissible draw size fuel 0 [] = some result) ↔
      size ≤ (pool.filter admissible).dedup.length := by
  constructor
  · intro ⟨fuel, result, h⟩
    obtain ⟨hkept, hlength⟩ := keptFrom_of_drawDistinct hpool h
    rw [← hlength]
    exact hkept.length_le
  · intro hsize
    obtain ⟨position, hcovers⟩ := exists_keptBefore_covers admissible hdrawn
    have hsub : (pool.filter admissible).dedup ⊆ keptBefore admissible draw position := by
      intro x hx
      rw [mem_dedup, mem_filter] at hx
      exact hcovers x hx.1 hx.2
    have hle := (subperm_of_subset (nodup_dedup _) hsub).length_le
    use position
    apply exists_drawDistinct_eq_some 0
    rw [Nat.zero_add]
    omega

end ColivingSpec.Lib
