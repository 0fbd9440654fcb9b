import Mathlib.Data.Int.Notation
import Mathlib.Data.List.Nodup
import Mathlib.Data.List.Pairwise

/-!
# Loops over slices

A loop that hands a list on in slices of a given size. When the function it calls may be
called on a list in parts, the loop does what one call on the whole list does.
-/

namespace ColivingSpec.Lib

open List

variable {σ α : Type}

/-- `for (i = 0; i < l.length; i += size) s = f(s, l.slice(i, i + size))`, for a positive
size. -/
def overSlices (size : ℕ) (f : σ → List α → σ) (s : σ) : List α → σ
  | [] => s
  | a :: l => overSlices size f (f s (a :: l.take (size - 1))) (l.drop (size - 1))
  termination_by l => l.length
  decreasing_by simp only [List.length_drop, List.length_cons]; omega

variable (size : ℕ) {l batches : List (List α)} {batch : List α}

/-- A function that may be called in parts does not see the slices. -/
theorem overSlices_eq {f : σ → List α → σ} (hnil : ∀ s, f s [] = s)
    (happend : ∀ s l l', f (f s l) l' = f s (l ++ l')) (s : σ) (l : List α) :
    overSlices size f s l = f s l := by
  induction s, l using overSlices.induct size f with
  | case1 s => rw [overSlices, hnil]
  | case2 s a l ih =>
    rw [overSlices, ih, happend, cons_append, take_append_drop]

/-- The slices of a list. -/
def slices (size : ℕ) : List α → List (List α)
  | [] => []
  | a :: l => (a :: l.take (size - 1)) :: slices size (l.drop (size - 1))
  termination_by l => l.length
  decreasing_by simp only [List.length_drop, List.length_cons]; omega

theorem overSlices_eq_foldl (f : σ → List α → σ) (s : σ) (l : List α) :
    overSlices size f s l = (slices size l).foldl f s := by
  induction s, l using overSlices.induct size f with
  | case1 s => rw [overSlices, slices, foldl_nil]
  | case2 s a l ih => rw [overSlices, slices, foldl_cons, ih]

theorem flatten_slices (l : List α) : (slices size l).flatten = l := by
  induction l using slices.induct size with
  | case1 => rw [slices, flatten_nil]
  | case2 a l ih =>
    rw [slices, flatten_cons, ih, cons_append, take_append_drop]

/-- An element of a list without repetitions is in one slice. -/
theorem eq_of_mem_slices {size : ℕ} {l : List α} (hl : l.Nodup) {a : α} {slice slice' : List α}
    (hslice : slice ∈ slices size l) (hslice' : slice' ∈ slices size l) (ha : a ∈ slice)
    (ha' : a ∈ slice') : slice = slice' := by
  rw [← flatten_slices size l, nodup_flatten] at hl
  by_contra hne
  have : Std.Symm (List.Disjoint : List α → List α → Prop) := ⟨fun _ _ h _ ha ha' ↦ h ha' ha⟩
  exact hl.2.forall hslice hslice' hne ha ha'

/-- A loop that reads a list by limit and offset up to a page that is not full, for as many pages
as given. -/
def overOffsets (limit : ℕ) (f : σ → List α → σ) : ℕ → σ → List α → σ
  | 0, s, _ => s
  | pages + 1, s, l =>
    if (l.take limit).length < limit then f s (l.take limit)
    else overOffsets limit f pages (f s (l.take limit)) (l.drop limit)

/-- A function that may be called in parts does not see the pages, if there are enough of them. -/
theorem overOffsets_eq {limit : ℕ} (hlimit : 0 < limit) {f : σ → List α → σ}
    (happend : ∀ s l l', f (f s l) l' = f s (l ++ l')) (pages : ℕ) (s : σ) (l : List α)
    (hpages : l.length < pages) : overOffsets limit f pages s l = f s l := by
  induction pages generalizing s l with
  | zero => omega
  | succ pages ih =>
    unfold overOffsets
    split
    · next hlast =>
      rw [length_take] at hlast
      rw [take_of_length_le (by omega)]
    · next hfull =>
      rw [length_take] at hfull
      have hrest : (l.drop limit).length < pages := by
        rw [length_drop]
        omega
      rw [ih _ _ hrest, happend, take_append_drop]

/-- The first batch that holds something, and the batches after it. A loop that hands each batch on
in slices takes its next slice from there. -/
def nextBatch : List (List α) → Option (List α × List (List α))
  | [] => none
  | [] :: batches => nextBatch batches
  | (a :: batch) :: batches => some (a :: batch, batches)

theorem nextBatch_eq_some (h : nextBatch l = some (batch, batches)) :
    batch ≠ [] ∧ ∃ done, l = done ++ batch :: batches ∧ done.flatten = [] := by
  induction l with
  | nil => cases h
  | cons first l ih =>
    cases first with
    | nil =>
      obtain ⟨hbatch, done, rfl, hdone⟩ := ih h
      exact ⟨hbatch, [] :: done, rfl, hdone⟩
    | cons a first =>
      cases h
      exact ⟨by simp, [], rfl, rfl⟩

/-- What is left is read from its last batch back. -/
theorem reverse_flatten_of_nextBatch (h : nextBatch l = some (batch, batches)) :
    l.reverse.flatten = batches.reverse.flatten ++ batch := by
  obtain ⟨-, done, rfl, hdone⟩ := nextBatch_eq_some h
  have hnone : done.reverse.flatten = [] := by
    simpa using hdone
  simp [hnone]

theorem flatten_of_nextBatch (h : nextBatch l = some (batch, batches)) :
    l.flatten = batch ++ batches.flatten := by
  obtain ⟨-, done, rfl, hdone⟩ := nextBatch_eq_some h
  rw [flatten_append, hdone, nil_append, flatten_cons]

theorem flatten_eq_nil_of_nextBatch (h : nextBatch l = none) :
    l.flatten = [] := by
  induction l with
  | nil => rfl
  | cons first l ih =>
    cases first with
    | nil => exact ih h
    | cons a first => cases h

end ColivingSpec.Lib

/-!
## Ranges of integers

A range is given by its first and its last integer. Ranges of which each begins after the end of the
one before it list every integer from the first to the last of them once, in order.
-/

namespace ColivingSpec.Lib

/-- The integers from `a` to `b`, in order. -/
def between (a b : ℤ) : List ℤ := (List.range (b + 1 - a).toNat).map fun i : ℕ ↦ a + i

variable {a b : ℤ} {ranges : List (ℤ × ℤ)}

theorem mem_between {n : ℤ} : n ∈ between a b ↔ a ≤ n ∧ n ≤ b := by
  unfold between
  rw [List.mem_map]
  constructor
  · rintro ⟨i, hi, rfl⟩
    have hlt := List.mem_range.mp hi
    omega
  · intro h
    refine ⟨(n - a).toNat, List.mem_range.mpr ?_, ?_⟩
    · omega
    · omega

theorem between_eq_nil (h : b < a) : between a b = [] := by
  apply List.eq_nil_iff_forall_not_mem.mpr
  intro n hn
  have := mem_between.mp hn
  omega

theorem between_append {c : ℤ} (hab : a ≤ b + 1) (hbc : b ≤ c) :
    between a b ++ between (b + 1) c = between a c := by
  unfold between
  have hlength : (c + 1 - a).toNat = (b + 1 - a).toNat + (c + 1 - (b + 1)).toNat := by omega
  rw [hlength, List.range_add, List.map_append, List.map_map]
  congr 1
  apply List.map_congr_left
  intro i _
  show b + 1 + (i : ℤ) = a + (((b + 1 - a).toNat + i : ℕ) : ℤ)
  omega

/-- One of the ranges has the integer. -/
def Covers (ranges : List (ℤ × ℤ)) (n : ℤ) : Prop := ∃ r ∈ ranges, r.1 ≤ n ∧ n ≤ r.2

instance (ranges : List (ℤ × ℤ)) (n : ℤ) : Decidable (Covers ranges n) := by
  unfold Covers
  infer_instance

theorem Covers.append_left {n : ℤ} (h : Covers ranges n) (more : List (ℤ × ℤ)) :
    Covers (ranges ++ more) n := by
  obtain ⟨r, hr, hn⟩ := h
  exact ⟨r, List.mem_append_left more hr, hn⟩

/-- Each range begins after the end of the one before it, the first at `a`, and the last ends before
`b`. No range is empty. -/
def Contiguous (a : ℤ) : List (ℤ × ℤ) → ℤ → Prop
  | [], b => a = b
  | r :: ranges, b => r.1 = a ∧ r.1 ≤ r.2 ∧ Contiguous (r.2 + 1) ranges b

theorem Contiguous.concat {c : ℤ} (h : Contiguous a ranges b) (hbc : b ≤ c) :
    Contiguous a (ranges ++ [(b, c)]) (c + 1) := by
  induction ranges generalizing a with
  | nil => exact ⟨h.symm, hbc, rfl⟩
  | cons r ranges ih => exact ⟨h.1, h.2.1, ih h.2.2⟩

theorem Contiguous.le (h : Contiguous a ranges b) : a ≤ b := by
  induction ranges generalizing a with
  | nil => exact Int.le_of_eq h
  | cons r ranges ih =>
    obtain ⟨rfl, hr, hrest⟩ := h
    have := ih hrest
    omega

end ColivingSpec.Lib
