import Mathlib.Data.List.Induction
import Mathlib.Data.List.Nodup
import Mathlib.Order.Nat

/-!
# Chains linked by parents

Entries name their parent, and have a number. A segment of a chain is a list of entries with
consecutive numbers, each the parent of the next. Two segments that start at one number and have
an entry in common agree up to it, so each is a common prefix followed by entries of its own.
-/

namespace ColivingSpec.Lib

open List

variable {α : Type} (parentOf : α → α) (numberOf : α → ℕ)

/-- Consecutive entries of a chain, the first with the number `base`. -/
structure Segment (base : ℕ) (l : List α) : Prop where
  number : ∀ i (hi : i < l.length), numberOf l[i] = base + i
  parent : ∀ i (hi : i + 1 < l.length), parentOf l[i + 1] = l[i]

namespace Segment

variable {parentOf numberOf} {base : ℕ} {l l' : List α}

/-- No entry occurs twice. -/
theorem nodup (h : Segment parentOf numberOf base l) : l.Nodup := by
  rw [nodup_iff_injective_get]
  intro i j hij
  apply Fin.ext
  have hi := h.number i i.isLt
  have hj := h.number j j.isLt
  have heq : l[(i : ℕ)] = l[(j : ℕ)] := hij
  rw [heq] at hi
  omega

/-- The first entries of a segment. -/
theorem of_isInitial (h : Segment parentOf numberOf base l) (hpre : l' <+: l) :
    Segment parentOf numberOf base l' := by
  obtain ⟨rest, rfl⟩ := hpre
  constructor
  · intro i hi
    have := h.number i (by rw [length_append]; omega)
    rwa [getElem_append_left hi] at this
  · intro i hi
    have := h.parent i (by rw [length_append]; omega)
    rwa [getElem_append_left hi, getElem_append_left (by omega)] at this

/-- The entries from a number on. -/
theorem drop (h : Segment parentOf numberOf base l) (n : ℕ) :
    Segment parentOf numberOf (base + n) (l.drop n) := by
  constructor
  · intro i hi
    rw [length_drop] at hi
    rw [getElem_drop, h.number (n + i) (by omega)]
    omega
  · intro i hi
    rw [length_drop] at hi
    rw [getElem_drop, getElem_drop]
    exact h.parent (n + i) (by omega)

/-- The number of an entry is not below the first one. -/
theorem le_number (h : Segment parentOf numberOf base l) {a : α} (ha : a ∈ l) :
    base ≤ numberOf a := by
  obtain ⟨i, hi, rfl⟩ := mem_iff_getElem.mp ha
  rw [h.number i hi]
  omega

/-- The parent of an entry behind others. -/
theorem parent_concat {a b : α} (h : Segment parentOf numberOf base (l ++ [a, b])) :
    parentOf b = a := by
  have := h.parent l.length (by simp)
  simpa using this

/-- Segments that start at one number and have an entry in common agree up to it. -/
theorem take_eq (h : Segment parentOf numberOf base l) (h' : Segment parentOf numberOf base l')
    (i : ℕ) (hi : i < l.length) (hi' : i < l'.length) (heq : l[i] = l'[i]) :
    l.take (i + 1) = l'.take (i + 1) := by
  induction i with
  | zero =>
    rw [take_succ_eq_append_getElem hi, take_succ_eq_append_getElem hi', heq]
    simp
  | succ i ih =>
    have hparent : l[i] = l'[i] := by
      rw [← h.parent i hi, ← h'.parent i hi', heq]
    rw [take_succ_eq_append_getElem hi, take_succ_eq_append_getElem hi', heq,
      ih (by omega) (by omega) hparent]

/-- An entry in common has one place in both. -/
theorem exists_getElem (h : Segment parentOf numberOf base l)
    (h' : Segment parentOf numberOf base l') {a : α} (ha : a ∈ l) (ha' : a ∈ l') :
    ∃ i, ∃ (hi : i < l.length) (hi' : i < l'.length), l[i] = a ∧ l'[i] = a := by
  obtain ⟨i, hi, hia⟩ := mem_iff_getElem.mp ha
  obtain ⟨j, hj, hja⟩ := mem_iff_getElem.mp ha'
  have hij : i = j := by
    have hnumber := h.number i hi
    have hnumber' := h'.number j hj
    rw [hia] at hnumber
    rw [hja] at hnumber'
    omega
  subst hij
  exact ⟨i, hi, hj, hia, hja⟩

/-- Two segments are a common prefix and entries that are not in the other. -/
theorem exists_fork (h : Segment parentOf numberOf base l)
    (h' : Segment parentOf numberOf base l') :
    ∃ common own own', l = common ++ own ∧ l' = common ++ own' ∧
      (∀ a ∈ own, a ∉ l') ∧ ∀ a ∈ own', a ∉ l := by
  -- The length of the common prefix is the number of places up to which both agree.
  induction l using reverseRecOn with
  | nil => exact ⟨[], [], l', rfl, rfl, by simp, by simp⟩
  | append_singleton l a ih =>
    by_cases ha : a ∈ l'
    · obtain ⟨i, hi, hi', hia, hia'⟩ := h.exists_getElem h' (by simp) ha
      have hlast : i = l.length := by
        rw [length_append, length_singleton] at hi
        by_contra hne
        rw [getElem_append_left (by omega)] at hia
        have hmem : a ∈ l := hia ▸ getElem_mem _
        exact (nodup_append.mp h.nodup).2.2 a hmem a (mem_singleton_self a) rfl
      subst hlast
      have htake := h.take_eq h' l.length hi hi' (hia.trans hia'.symm)
      rw [take_of_length_le (by simp)] at htake
      refine ⟨l ++ [a], [], l'.drop (l.length + 1), by simp, ?_, by simp, ?_⟩
      · rw [htake, take_append_drop]
      · intro b hb hmem
        have hb' : b ∈ l'.take (l.length + 1) := by rwa [← htake]
        exact disjoint_take_drop h'.nodup (le_refl _) hb' hb
    · obtain ⟨common, own, own', rfl, rfl, hown, hown'⟩ := ih (h.of_isInitial (prefix_append _ _))
      refine ⟨common, own ++ [a], own', by simp, rfl, ?_, ?_⟩
      · intro b hb
        rcases mem_append.mp hb with hb | hb
        · exact hown b hb
        · rw [mem_singleton.mp hb]
          exact ha
      · intro b hb hmem
        rcases mem_append.mp hmem with hmem | hmem
        · exact hown' b hb hmem
        · rw [mem_singleton.mp hmem] at hb
          exact ha (mem_append_right _ hb)

end Segment

end ColivingSpec.Lib
