import Mathlib.Algebra.BigOperators.Group.Finset.Basic

/-!
# Totals by owner

Keys have owners and weights. The keys of one owner are finitely many, whatever the keys are, and
their weights have a total. The module states what becomes of a total when one key changes hands.
-/

namespace ColivingSpec.Lib

variable {κ α M : Type} [AddCommMonoid M]

/-- The keys `o` owns are finitely many and weigh `total` together. -/
def OwnedTotal (owner : κ → α) (weight : κ → M) (o : α) (total : M) : Prop :=
  ∃ keys : Finset κ, (∀ k, k ∈ keys ↔ owner k = o) ∧ total = ∑ k ∈ keys, weight k

variable {owner : κ → α} {weight : κ → M} {o : α} {total : M} {k : κ}

/-- Who owns nothing has no total. -/
theorem OwnedTotal.zero (h : ∀ k, owner k ≠ o) : OwnedTotal owner weight o 0 :=
  ⟨∅, fun k ↦ by simp [h k], by simp⟩

/-- Weights matter for the owned keys only. -/
theorem OwnedTotal.congr {owner' : κ → α} {weight' : κ → M} (h : OwnedTotal owner weight o total)
    (howner : owner' = owner) (hweight : ∀ k, owner k = o → weight' k = weight k) :
    OwnedTotal owner' weight' o total := by
  subst howner
  obtain ⟨keys, hkeys, rfl⟩ := h
  exact ⟨keys, hkeys, (Finset.sum_congr rfl fun k hk ↦ hweight k ((hkeys k).mp hk)).symm⟩

variable [DecidableEq κ]

/-- A key that `o` gets adds its weight. -/
theorem OwnedTotal.insert (h : OwnedTotal owner weight o total) (hk : owner k ≠ o) :
    OwnedTotal (Function.update owner k o) weight o (total + weight k) := by
  obtain ⟨keys, hkeys, rfl⟩ := h
  have hnew : k ∉ keys := fun hmem ↦ hk ((hkeys k).mp hmem)
  refine ⟨Insert.insert k keys, fun j ↦ ?_, ?_⟩
  · by_cases hj : j = k
    · subst hj
      simp
    · simp [hj, hkeys j]
  · rw [Finset.sum_insert hnew, add_comm]

/-- A key that `o` loses takes its weight out. -/
theorem OwnedTotal.erase {o' : α} (h : OwnedTotal owner weight o total) (hk : owner k = o)
    (hne : o' ≠ o) : ∃ rest, total = rest + weight k ∧
      OwnedTotal (Function.update owner k o') weight o rest := by
  obtain ⟨keys, hkeys, rfl⟩ := h
  refine ⟨∑ j ∈ keys.erase k, weight j, ?_, keys.erase k, fun j ↦ ?_, rfl⟩
  · exact (Finset.sum_erase_add keys weight ((hkeys k).mpr hk)).symm
  · by_cases hj : j = k
    · subst hj
      simp [hne]
    · simp [hj, hkeys j]

/-- A key that passes between others changes nothing. -/
theorem OwnedTotal.update_of_ne {o' : α} (h : OwnedTotal owner weight o total) (hk : owner k ≠ o)
    (hne : o' ≠ o) : OwnedTotal (Function.update owner k o') weight o total := by
  obtain ⟨keys, hkeys, rfl⟩ := h
  refine ⟨keys, fun j ↦ ?_, rfl⟩
  by_cases hj : j = k
  · subst hj
    simp [hne, hkeys j, hk]
  · simp [hj, hkeys j]

end ColivingSpec.Lib
