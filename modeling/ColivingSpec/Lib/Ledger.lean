import Mathlib.Algebra.Order.BigOperators.Group.Finset
import Mathlib.Data.Fintype.BigOperators

/-!
# Double-entry stake ledger

Stake recorded four times over: by column in a staking book with a grand total, by
column as an owner's part and a delegated part, by pair of delegator and column,
and by delegator. `Balanced` says that the records agree and that custody covers
them. A column is revalued when its own entries move together and every other
column stays; that is all an operation has to show.
-/

namespace ColivingSpec.Lib

open Finset

variable {A : Type} [Fintype A]

/-- A sum over a mapping after one entry was written. -/
theorem sum_update_add [DecidableEq A] (f : A → ℕ) (a : A) (v : ℕ) :
    ∑ x, Function.update f a v x + f a = ∑ x, f x + v := by
  have hnew := add_sum_erase univ (Function.update f a v) (mem_univ a)
  have hold := add_sum_erase univ f (mem_univ a)
  have hrest : ∑ x ∈ univ.erase a, Function.update f a v x
      = ∑ x ∈ univ.erase a, f x :=
    sum_congr rfl fun x hx ↦ Function.update_of_ne (ne_of_mem_erase hx) v f
  rw [Function.update_self] at hnew
  omega

/-- Sums of mappings that differ in one entry. -/
theorem sum_add_eq_of_off [DecidableEq A] (f g : A → ℕ) (a : A) (h : ∀ x, x ≠ a → g x = f x) :
    ∑ x, g x + f a = ∑ x, f x + g a := by
  have hg : g = Function.update f a (g a) := by
    funext x
    by_cases hx : x = a
    · subst hx
      simp
    · simp [hx, h x hx]
  conv_lhs => rw [hg]
  exact sum_update_add f a (g a)

/-- One entry is at most the sum. -/
theorem le_sum (f : A → ℕ) (a : A) : f a ≤ ∑ x, f x :=
  single_le_sum_of_canonicallyOrdered (mem_univ a)

/-- The records of the ledger. -/
structure Ledger (A : Type) where
  staked : A → ℕ
  totalStaked : ℕ
  owned : A → ℕ
  delegated : A → ℕ
  /-- First the delegator, then the column. -/
  share : A → A → ℕ
  delegatorTotal : A → ℕ
  custody : ℕ

namespace Ledger

/-- All records agree. -/
structure Balanced (l : Ledger A) : Prop where
  split : ∀ c, l.staked c = l.owned c + l.delegated c
  shares : ∀ c, l.delegated c = ∑ d, l.share d c
  delegators : ∀ d, l.delegatorTotal d = ∑ c, l.share d c
  total : l.totalStaked = ∑ c, l.staked c
  covered : l.totalStaked ≤ l.custody

/-- Column `c` moves, and its own entries still agree. -/
structure Revalues (c : A) (l l' : Ledger A) : Prop where
  staked_off : ∀ x, x ≠ c → l'.staked x = l.staked x
  owned_off : ∀ x, x ≠ c → l'.owned x = l.owned x
  delegated_off : ∀ x, x ≠ c → l'.delegated x = l.delegated x
  share_off : ∀ d x, x ≠ c → l'.share d x = l.share d x
  split : l'.staked c = l'.owned c + l'.delegated c
  shares : l'.delegated c = ∑ d, l'.share d c
  delegators : ∀ d, l'.delegatorTotal d + l.share d c = l.delegatorTotal d + l'.share d c
  total : l'.totalStaked + l.staked c = l.totalStaked + l'.staked c
  custody : l.custody + l'.staked c ≤ l'.custody + l.staked c

/-- Revaluing a column keeps the ledger balanced. -/
theorem Revalues.balanced [DecidableEq A] {c : A} {l l' : Ledger A} (h : Revalues c l l')
    (hl : Balanced l) :
    Balanced l' where
  split x := by
    by_cases hx : x = c
    · rw [hx]
      exact h.split
    · rw [h.staked_off x hx, h.owned_off x hx, h.delegated_off x hx, hl.split]
  shares x := by
    by_cases hx : x = c
    · rw [hx]
      exact h.shares
    · rw [h.delegated_off x hx, hl.shares]
      exact sum_congr rfl fun d _ ↦ (h.share_off d x hx).symm
  delegators d := by
    have hsum := sum_add_eq_of_off (l.share d) (l'.share d) c (h.share_off d)
    have hstep := h.delegators d
    have hold := hl.delegators d
    omega
  total := by
    have hsum := sum_add_eq_of_off l.staked l'.staked c h.staked_off
    have hstep := h.total
    have hold := hl.total
    omega
  covered := by
    have hstep := h.total
    have hcustody := h.custody
    have hold := hl.covered
    omega

/-- Only custody grows. -/
theorem Balanced.of_custody_le {l l' : Ledger A} (hl : Balanced l) (hstaked : l'.staked = l.staked)
    (htotal : l'.totalStaked = l.totalStaked) (howned : l'.owned = l.owned)
    (hdelegated : l'.delegated = l.delegated) (hshare : l'.share = l.share)
    (hdelegator : l'.delegatorTotal = l.delegatorTotal) (hcustody : l.custody ≤ l'.custody) :
    Balanced l' where
  split c := by rw [hstaked, howned, hdelegated]; exact hl.split c
  shares c := by rw [hdelegated, hshare]; exact hl.shares c
  delegators d := by rw [hdelegator, hshare]; exact hl.delegators d
  total := by rw [htotal, hstaked]; exact hl.total
  covered := htotal ▸ hl.covered.trans hcustody

/-- One account's column is at most the grand total. -/
theorem Balanced.staked_le {l : Ledger A} (hl : Balanced l) (c : A) :
    l.staked c ≤ l.totalStaked := by
  rw [hl.total]
  exact le_sum l.staked c

/-- What all accounts own and delegate together is the grand total. -/
theorem Balanced.sum_holdings {l : Ledger A} (hl : Balanced l) :
    ∑ a, (l.owned a + l.delegatorTotal a) = l.totalStaked := by
  have hswap : ∑ d, l.delegatorTotal d = ∑ c, l.delegated c := by
    simp only [hl.delegators, hl.shares]
    exact sum_comm
  rw [hl.total, sum_add_distrib, hswap, ← sum_add_distrib]
  exact sum_congr rfl fun c _ ↦ (hl.split c).symm

end Ledger

end ColivingSpec.Lib

/-!
## Weighted votes

Every voter has a choice and a weight; the tally of a choice is the weight of those who
made it. A ballot changes the choice and the weight of one voter, and with them the
tallies of the old and the new choice.
-/

namespace ColivingSpec.Lib

variable {A V : Type} [Fintype A] [DecidableEq A] [DecidableEq V]

/-- Weight of the voters whose choice is `v`. -/
def tally (choice : A → V) (weight : A → ℕ) (v : V) : ℕ := ∑ a with choice a = v, weight a

/-- Number of voters whose choice is not `v`. -/
def ballots (choice : A → V) (v : V) : ℕ := Finset.card {a | choice a ≠ v}

variable {choice : A → V} {weight : A → ℕ} {a : A} {v : V}

omit [DecidableEq A] in
/-- Nobody chose `v`. -/
theorem tally_eq_zero (h : ∀ a, choice a ≠ v) : tally choice weight v = 0 :=
  Finset.sum_eq_zero fun a ha ↦ absurd (Finset.mem_filter.mp ha).2 (h a)

/-- The ballot of `a` leaves the tally of its old choice and enters that of the new one. -/
theorem tally_update_add (choice : A → V) (weight : A → ℕ) (a : A) (u : V) (n : ℕ) (v : V) :
    tally (Function.update choice a u) (Function.update weight a n) v
        + (if choice a = v then weight a else 0)
      = tally choice weight v + (if u = v then n else 0) := by
  have hsum := sum_add_eq_of_off (fun x ↦ if choice x = v then weight x else 0)
    (fun x ↦ if Function.update choice a u x = v then Function.update weight a n x else 0) a
    fun x hx ↦ by simp only [Function.update_of_ne hx]
  simpa only [tally, Finset.sum_filter, Function.update_self] using hsum

omit [DecidableEq A] in
/-- Two tallies are covered together by what covers each voter of either. -/
theorem tally_add_tally_le {u : V} (huv : u ≠ v) {bound : A → ℕ}
    (h : ∀ a, choice a = u ∨ choice a = v → weight a ≤ bound a) :
    tally choice weight u + tally choice weight v ≤ ∑ a, bound a := by
  simp only [tally, Finset.sum_filter, ← Finset.sum_add_distrib]
  refine Finset.sum_le_sum fun a _ ↦ ?_
  by_cases hu : choice a = u
  · have hv : choice a ≠ v := fun hv ↦ huv (hu.symm.trans hv)
    simpa [hu, huv] using h a (.inl hu)
  · by_cases hv : choice a = v
    · simpa [hv, huv.symm] using h a (.inr hv)
    · simp [hu, hv]

/-- A first ballot counts, a changed one does not count again. -/
theorem ballots_update (choice : A → V) (a : A) {u v : V} (hu : u ≠ v) :
    ballots (Function.update choice a u) v + (if choice a = v then 0 else 1)
      = ballots choice v + 1 := by
  have hsum := sum_add_eq_of_off (fun x ↦ if choice x ≠ v then 1 else 0)
    (fun x ↦ if Function.update choice a u x ≠ v then 1 else 0) a
    fun x hx ↦ by simp only [Function.update_of_ne hx]
  simp only [ballots, Finset.card_filter]
  simpa [hu] using hsum

end ColivingSpec.Lib
