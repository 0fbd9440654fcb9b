import Mathlib.Order.Nat
import Mathlib.Tactic.Common

/-!
# Step histories

A list of entries with strictly increasing keys describes a step function: at a
point it has the last entry whose key is at most that point. The module gives the
lookup, its laws under appending and overwriting the newest entry, and the
characterisation a search over positions needs.
-/

namespace ColivingSpec.Lib.StepHistory

open List

variable {α : Type} (key : α → ℕ)

/-- Keys strictly increase along the list. -/
def Increasing (l : List α) : Prop := l.Pairwise (fun a b ↦ key a < key b)

/-- The last entry whose key is at most `t`. -/
def lastUpTo (t : ℕ) (l : List α) : Option α := (l.filter (fun a ↦ key a ≤ t)).getLast?

/-- The empty history is increasing. -/
theorem increasing_nil : Increasing key ([] : List α) := List.Pairwise.nil

variable (t : ℕ) (l : List α)

/-- A new newest entry must exceed every earlier key. -/
theorem increasing_concat (a : α) :
    Increasing key (l ++ [a]) ↔ Increasing key l ∧ ∀ b ∈ l, key b < key a := by
  simp [Increasing, pairwise_append]

/-- The newest entry answers for its own key and after it. -/
theorem lastUpTo_concat (a : α) :
    lastUpTo key t (l ++ [a]) = if key a ≤ t then some a else lastUpTo key t l := by
  unfold lastUpTo
  split <;> simp_all [filter_append]

/-- A lookup at or after every key is the newest entry. -/
theorem lastUpTo_of_forall_le (h : ∀ a ∈ l, key a ≤ t) :
    lastUpTo key t l = l.getLast? := by
  unfold lastUpTo
  rw [filter_eq_self.mpr (by simpa using h)]

/-- A lookup before every key finds nothing. -/
theorem lastUpTo_of_forall_gt (h : ∀ a ∈ l, t < key a) :
    lastUpTo key t l = none := by
  unfold lastUpTo
  rw [filter_eq_nil_iff.mpr (by simpa using h)]
  rfl

variable {key}

/-- Positions order keys. -/
theorem Increasing.key_lt {l : List α} (hl : Increasing key l) {i j : ℕ} (hij : i < j)
    (hi : i < l.length) (hj : j < l.length) : key l[i] < key l[j] :=
  pairwise_iff_getElem.mp hl i j hi hj hij

/-- A position whose key is at most `t`, the next key being beyond `t`, is the lookup. -/
theorem Increasing.lastUpTo_eq_getElem {l : List α} (hl : Increasing key l) {t i : ℕ}
    (hi : i < l.length) (hle : key l[i] ≤ t)
    (hnext : ∀ h : i + 1 < l.length, t < key l[i + 1]) : lastUpTo key t l = some l[i] := by
  have hdrop : ∀ a ∈ l.drop (i + 1), t < key a := by
    intro a ha
    obtain ⟨j, hj, rfl⟩ := mem_iff_getElem.mp ha
    rw [length_drop] at hj
    rw [getElem_drop]
    have hfirst := hnext (by omega)
    by_cases h0 : j = 0
    · subst h0
      exact hfirst
    · exact hfirst.trans (hl.key_lt (by omega) (by omega) (by omega))
  have hsplit : l = l.take i ++ [l[i]] ++ l.drop (i + 1) := by
    rw [take_append_getElem, take_append_drop]
  have hempty : (l.drop (i + 1)).filter (fun a ↦ key a ≤ t) = [] :=
    filter_eq_nil_iff.mpr (by simpa using hdrop)
  calc lastUpTo key t l
      = ((l.take i ++ [l[i]] ++ l.drop (i + 1)).filter (fun a ↦ key a ≤ t)).getLast? := by
        rw [← hsplit]; rfl
    _ = lastUpTo key t (l.take i ++ [l[i]]) := by
        rw [filter_append, hempty, append_nil]; rfl
    _ = some l[i] := by rw [lastUpTo_concat, if_pos hle]

/-- Keys below the newest one are below it strictly. -/
theorem Increasing.forall_le_getLast {l : List α} (hl : Increasing key l) {c : α}
    (hc : l.getLast? = some c) : ∀ a ∈ l, key a ≤ key c := by
  obtain ⟨init, rfl⟩ := getLast?_eq_some_iff.mp hc
  intro a ha
  rcases mem_append.mp ha with hinit | hlast
  · exact ((increasing_concat key init c).mp hl).2 a hinit |>.le
  · rw [mem_singleton.mp hlast]

end ColivingSpec.Lib.StepHistory
