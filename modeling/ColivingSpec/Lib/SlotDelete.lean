import Mathlib.Data.List.Nodup
import Mathlib.Data.List.Perm.Basic

/-!
# Deleting an array slot in place

Swapping the last element into a slot and then deleting that slot, without shrinking
the array, leaves the array as it was except for a zero in the slot. Swapping and then
shrinking the array erases the element. The module states what each does to membership
and to duplicates.
-/

namespace ColivingSpec.Lib

open List

variable {α : Type} [DecidableEq α]

/-- Copy the last element over the first occurrence of `x`, then zero that slot. -/
def deleteSlot (zero x : α) (xs : List α) : List α :=
  match xs.idxOf? x with
  | none => xs
  | some i => (xs.set i (xs.getLastD zero)).set i zero

/-- The live elements: those that are not the zero of a deleted slot. -/
def live (zero : α) (xs : List α) : List α := xs.filter (· ≠ zero)

variable {zero : α} {xs : List α} {x : α}

@[simp] theorem mem_live {y : α} : y ∈ live zero xs ↔ y ∈ xs ∧ y ≠ zero := by
  simp [live]

theorem live_concat (xs : List α) (hx : x ≠ zero) :
    live zero (xs ++ [x]) = live zero xs ++ [x] := by
  simp [live, filter_append, hx]

/-- The swapped-in element is overwritten at once: the slot is zeroed, nothing moves. -/
theorem deleteSlot_cons (zero x a : α) (xs : List α) :
    deleteSlot zero x (a :: xs) = if a = x then zero :: xs else a :: deleteSlot zero x xs := by
  unfold deleteSlot
  simp only [idxOf?, findIdx?_cons]
  by_cases h : a = x
  · simp [h]
  · have hb : (a == x) = false := by simpa using h
    cases hi : xs.findIdx? (· == x) with
    | none => simp [h, hb]
    | some i => simp [h, hb]

/-- The live elements lose the first occurrence of `x`. -/
theorem live_deleteSlot (hx : x ≠ zero) (xs : List α) :
    live zero (deleteSlot zero x xs) = (live zero xs).erase x := by
  induction xs with
  | nil => rfl
  | cons a xs ih =>
    rw [deleteSlot_cons]
    by_cases ha : a = x
    · subst ha
      simp [live, hx]
    · simp only [ha, if_false]
      by_cases hz : a = zero
      · simpa [live, hz] using ih
      · have hcons : ∀ l : List α, live zero (a :: l) = a :: live zero l := by
          intro l
          simp [live, hz]
        rw [hcons, hcons, ih, erase_cons_tail (by simpa using ha)]

/-- The slot of `x` is left as a hole. -/
theorem zero_mem_deleteSlot (hx : x ∈ xs) :
    zero ∈ deleteSlot zero x xs := by
  induction xs with
  | nil => exact absurd hx not_mem_nil
  | cons a xs ih =>
    rw [deleteSlot_cons]
    by_cases ha : a = x
    · simp [ha]
    · rw [if_neg ha]
      exact mem_cons_of_mem a (ih ((mem_cons.mp hx).resolve_left (Ne.symm ha)))

/-- Without a hole every element is live. -/
theorem live_of_notMem (h : zero ∉ xs) : live zero xs = xs := by
  refine filter_eq_self.mpr fun y hy ↦ decide_eq_true ?_
  rintro rfl
  exact h hy

omit [DecidableEq α] in
/-- Copying the last element over a slot and popping it drops the slot, up to order. -/
theorem set_dropLast_perm {i : ℕ} (hi : i < xs.length) {last : α} (hlast : xs.getLast? = some last) :
    ((xs.set i last).dropLast).Perm (xs.eraseIdx i) := by
  obtain ⟨init, rfl⟩ : ∃ init, xs = init ++ [last] := getLast?_eq_some_iff.mp hlast
  by_cases hinit : i < init.length
  · rw [set_append_left _ _ hinit, dropLast_concat, eraseIdx_append_of_lt_length hinit]
    exact (set_perm_cons_eraseIdx hinit last).trans (perm_append_singleton _ _).symm
  · obtain rfl : i = init.length := by
      simp only [length_append, length_singleton] at hi
      omega
    have hle : init.length ≤ init.length := Nat.le_refl _
    rw [set_append_right _ _ hle, eraseIdx_append_of_length_le hle]
    simp

/-- Erasing by swapping the last element into the slot of `x` and popping. -/
theorem swapPop_perm {last : α} (hx : x ∈ xs) (hlast : xs.getLast? = some last) :
    ((xs.set ((xs.idxOf? x).getD 0) last).dropLast).Perm (xs.erase x) := by
  obtain ⟨i, hi⟩ := Option.isSome_iff_exists.mp (isSome_idxOf?.mpr hx)
  rw [erase_eq_eraseIdx, hi]
  exact set_dropLast_perm (idxOf?_eq_some_iff.mp hi).1 hlast

end ColivingSpec.Lib
