import Mathlib.Algebra.Order.BigOperators.Group.Finset
import Mathlib.Algebra.BigOperators.Ring.Finset

/-!
# Rounded proportional shares

An amount split in proportion to weights, each part rounded down: the parts add up to
at most the amount, whatever the number of parts and wherever the rounding falls.
-/

namespace ColivingSpec.Lib

/-- Rounded quotients add up to at most the quotient of the sum. -/
theorem sum_div_le {ι : Type} (s : Finset ι) (f : ι → ℕ) (n : ℕ) :
    ∑ i ∈ s, f i / n ≤ (∑ i ∈ s, f i) / n := by
  rcases Nat.eq_zero_or_pos n with rfl | hn
  · simp
  · rw [Nat.le_div_iff_mul_le hn, Finset.sum_mul]
    exact Finset.sum_le_sum fun i _ ↦ Nat.div_mul_le_self _ _

/-- Shares of `amount` by weight, each rounded down, add up to at most `amount`. -/
theorem sum_share_le {ι : Type} (s : Finset ι) (weight : ι → ℕ) (amount total : ℕ)
    (htotal : ∑ i ∈ s, weight i ≤ total) : ∑ i ∈ s, weight i * amount / total ≤ amount := by
  calc ∑ i ∈ s, weight i * amount / total
      ≤ (∑ i ∈ s, weight i * amount) / total := sum_div_le s _ total
    _ ≤ total * amount / total := by
      rw [← Finset.sum_mul]
      exact Nat.div_le_div_right (Nat.mul_le_mul_right amount htotal)
    _ ≤ amount := by
      rcases Nat.eq_zero_or_pos total with rfl | hpos
      · simp
      · rw [Nat.mul_div_cancel_left amount hpos]

/-- Parts for the members of a list, at most their rounded shares and nothing for anybody else, add
up to at most `amount`, however often the list names a member. -/
theorem sum_listed_share_le {ι : Type} [Fintype ι] [DecidableEq ι] (l : List ι)
    (weight part : ι → ℕ) (amount total : ℕ)
    (hpart : ∀ i ∈ l, part i ≤ weight i * amount / total) (hoff : ∀ i, i ∉ l → part i = 0)
    (htotal : ∑ i ∈ l.toFinset, weight i ≤ total) : ∑ i, part i ≤ amount := by
  calc ∑ i, part i
      = ∑ i ∈ l.toFinset, part i :=
        (Finset.sum_subset (Finset.subset_univ _) fun i _ hi ↦
          hoff i fun hmem ↦ hi (List.mem_toFinset.mpr hmem)).symm
    _ ≤ ∑ i ∈ l.toFinset, weight i * amount / total :=
        Finset.sum_le_sum fun i hi ↦ hpart i (List.mem_toFinset.mp hi)
    _ ≤ amount := sum_share_le _ weight amount total htotal

end ColivingSpec.Lib
