import Mathlib.Data.List.Nodup
import Mathlib.Data.List.Perm.Subperm
import Mathlib.Data.List.Range

/-!
# Names with a number

A name that is taken gets a number after a dash. Numbers give different names, so that a search goes
on for no longer than there are taken names.
-/

namespace ColivingSpec.Lib

open List

/-- A name with a number after it; the number 0 is not written. -/
def numbered (name : List Char) (n : ℕ) : List Char :=
  if n = 0 then name else name ++ '-' :: Nat.toDigits 10 n

variable (name : List Char) {n fuel : ℕ}

@[simp] theorem numbered_zero : numbered name 0 = name := if_pos rfl

theorem numbered_of_pos (hn : 0 < n) :
    numbered name n = name ++ '-' :: Nat.toDigits 10 n := if_neg (by omega)

/-- Different numbers give different names. -/
theorem numbered_injective : Function.Injective (numbered name) := by
  intro m n heq
  rcases Nat.eq_zero_or_pos m with rfl | hm
  · rcases Nat.eq_zero_or_pos n with rfl | hn
    · rfl
    · rw [numbered_zero, numbered_of_pos name hn] at heq
      have hlength := congrArg length heq
      rw [length_append, length_cons] at hlength
      omega
  · rcases Nat.eq_zero_or_pos n with rfl | hn
    · rw [numbered_zero, numbered_of_pos name hm] at heq
      have hlength := congrArg length heq
      rw [length_append, length_cons] at hlength
      omega
    · rw [numbered_of_pos name hm, numbered_of_pos name hn] at heq
      have hdigits := (cons.inj (append_cancel_left heq)).2
      rw [← Nat.ofDigitChars_ten_toDigits (n := m), hdigits, Nat.ofDigitChars_ten_toDigits]

/-- A name with a number other than 0 ends in a decimal digit. -/
theorem exists_digit_of_numbered (hn : 0 < n) :
    ∃ c, (numbered name n).getLast? = some c ∧ c.isDigit = true := by
  have hne : Nat.toDigits 10 n ≠ [] := Nat.toDigits_ne_nil
  refine ⟨(Nat.toDigits 10 n).getLast hne, ?_, ?_⟩
  · rw [numbered_of_pos name hn, getLast?_append_of_ne_nil _ (cons_ne_nil _ _),
      getLast?_cons_of_ne_nil hne, getLast?_eq_some_getLast hne]
  · exact Nat.isDigit_of_mem_toDigits (by decide) (Nat.le_refl 10) (getLast_mem hne)

/-! ### The search for a free number -/

/-- The first number after `n` that is free, among `fuel` ones. -/
def firstFree (taken : ℕ → Bool) : ℕ → ℕ → Option ℕ
  | 0, _ => none
  | fuel + 1, n => if taken (n + 1) then firstFree taken fuel (n + 1) else some (n + 1)

variable {taken : ℕ → Bool}

theorem firstFree_eq_some {m : ℕ} (h : firstFree taken fuel n = some m) :
    taken m = false ∧ n < m := by
  induction fuel generalizing n with
  | zero => cases h
  | succ fuel ih =>
    unfold firstFree at h
    split at h
    · obtain ⟨hfree, hlt⟩ := ih h
      exact ⟨hfree, by omega⟩
    · next hfree =>
      rw [← Option.some.inj h]
      exact ⟨Bool.not_eq_true _ ▸ hfree, by omega⟩

/-- A search without an end finds all numbers taken. -/
theorem taken_of_firstFree_eq_none (h : firstFree taken fuel n = none) :
    ∀ i < fuel, taken (n + 1 + i) = true := by
  induction fuel generalizing n with
  | zero => intro i hi; omega
  | succ fuel ih =>
    unfold firstFree at h
    split at h
    · next htaken =>
      intro i hi
      cases i with
      | zero => exact htaken
      | succ i =>
        have hnext := ih h i (by omega)
        rw [show n + 1 + (i + 1) = n + 1 + 1 + i by omega]
        exact hnext
    · cases h

/-- Where a taken number stands for a name of its own, the search ends within as many steps as there
are names. -/
theorem firstFree_isSome {α : Type} {names : List α} {f : ℕ → α} (hinj : Function.Injective f)
    (htaken : ∀ n, taken n = true → f n ∈ names) (hfuel : names.length < fuel) (n : ℕ) :
    (firstFree taken fuel n).isSome = true := by
  by_contra hnone
  rw [Bool.not_eq_true, Option.isSome_eq_false_iff, Option.isNone_iff_eq_none] at hnone
  have hall := taken_of_firstFree_eq_none hnone
  have hnodup : ((range fuel).map fun i ↦ f (n + 1 + i)).Nodup := by
    apply Nodup.map _ nodup_range
    intro i j heq
    have := hinj heq
    omega
  have hsubset : (range fuel).map (fun i ↦ f (n + 1 + i)) ⊆ names := by
    intro a ha
    obtain ⟨i, hi, rfl⟩ := mem_map.mp ha
    exact htaken _ (hall i (mem_range.mp hi))
  have hle := (subperm_of_subset hnodup hsubset).length_le
  rw [length_map, length_range] at hle
  omega

end ColivingSpec.Lib
