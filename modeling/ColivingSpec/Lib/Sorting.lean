import ColivingSpec.Lib.Checked
import Mathlib.Algebra.Order.Ring.Rat
import Mathlib.Data.List.Basic

/-!
# Sorting

What a stable sort does to a part of a list, and what a sort makes of a comparator that does not
always give the same answer.
-/

/-!
## Sorting a part of a list

A stable sort keeps the order of what compares alike, so a part of a list comes out in one order
whether it is taken before the sort or after it.
-/

namespace ColivingSpec.Lib

open List

variable {α : Type}

end ColivingSpec.Lib

/-!
## Comparators whose answers vary

A comparator that may draw its answer at random, or fail. It is a weak order when the pairs that it
decides are ordered and those that it leaves to chance are alike; then the order that any sort by
comparisons gives is right for all pairs that are decided.
-/

namespace ColivingSpec.Lib

variable {ι Ω : Type} (compare : ι → ι → Ω → Except String ℚ)

/-- The first comes before the second, whatever is drawn. -/
def Before (a b : ι) : Prop := ∀ ω, ∃ c, compare a b ω = .ok c ∧ c < 0

/-- The first comes after the second, whatever is drawn. -/
def After (a b : ι) : Prop := ∀ ω, ∃ c, compare a b ω = .ok c ∧ 0 < c

/-- The answer is that they are alike, or either order may be drawn. -/
def Undecided (a b : ι) : Prop :=
  (∀ ω, compare a b ω = .ok 0) ∨
    (∃ ω c, compare a b ω = .ok c ∧ c < 0) ∧ (∃ ω c, compare a b ω = .ok c ∧ 0 < c) ∧
      ∀ ω, Succeeds (compare a b ω)

/-- Of two entries one comes first, whichever is asked for first, or they are left undecided; and
both relations are transitive. -/
structure WeakOrder : Prop where
  consistent : ∀ {a b}, a ≠ b →
    Before compare a b ∧ After compare b a ∨ After compare a b ∧ Before compare b a ∨
      Undecided compare a b ∧ Undecided compare b a
  before_trans : ∀ {a b c}, a ≠ b → b ≠ c → a ≠ c → Before compare a b → Before compare b c →
    Before compare a c
  undecided_trans : ∀ {a b c}, a ≠ b → b ≠ c → a ≠ c → Undecided compare a b →
    Undecided compare b c → Undecided compare a c

/-- A comparison of two entries, asked for in either order, may have put the first one first. -/
def Compared (a b : ι) : Prop :=
  (∃ ω c, compare a b ω = .ok c ∧ c ≤ 0) ∨ ∃ ω c, compare b a ω = .ok c ∧ 0 ≤ c

/-- What a sort by comparisons may return: all entries, once each, in which two neighbours have been
compared. -/
structure Arranges (l : List ι) : Prop where
  nodup : l.Nodup
  complete : ∀ a, a ∈ l
  compared : l.IsChain (Compared compare)

variable {compare} [Nonempty Ω] {a b c : ι}

theorem Before.not_after (h : Before compare a b) : ¬ After compare a b := by
  intro hafter
  obtain ⟨ω⟩ := ‹Nonempty Ω›
  obtain ⟨x, hx, hneg⟩ := h ω
  obtain ⟨y, hy, hpos⟩ := hafter ω
  cases hx.symm.trans hy
  exact lt_asymm hneg hpos

theorem Before.not_undecided (h : Before compare a b) : ¬ Undecided compare a b := by
  intro hundecided
  obtain ⟨ω⟩ := ‹Nonempty Ω›
  rcases hundecided with hzero | ⟨-, ⟨ω', y, hy, hpos⟩, -⟩
  · obtain ⟨x, hx, hneg⟩ := h ω
    cases hx.symm.trans (hzero ω)
    exact lt_irrefl _ hneg
  · obtain ⟨x, hx, hneg⟩ := h ω'
    cases hx.symm.trans hy
    exact lt_asymm hneg hpos

theorem After.not_undecided (h : After compare a b) : ¬ Undecided compare a b := by
  intro hundecided
  obtain ⟨ω⟩ := ‹Nonempty Ω›
  rcases hundecided with hzero | ⟨⟨ω', y, hy, hneg⟩, -, -⟩
  · obtain ⟨x, hx, hpos⟩ := h ω
    cases hx.symm.trans (hzero ω)
    exact lt_irrefl _ hpos
  · obtain ⟨x, hx, hpos⟩ := h ω'
    cases hx.symm.trans hy
    exact lt_asymm hneg hpos

namespace WeakOrder

omit [Nonempty Ω] in
/-- An entry that does not come before another comes after it or is undecided. -/
theorem of_not_before (h : WeakOrder compare) (hne : a ≠ b) (hnot : ¬ Before compare b a) :
    Before compare a b ∨ Undecided compare a b := by
  rcases h.consistent hne with hbefore | hafter | hundecided
  · exact .inl hbefore.1
  · exact absurd hafter.2 hnot
  · exact .inr hundecided.1

theorem not_before_trans (h : WeakOrder compare) (hab : a ≠ b) (hbc : b ≠ c) (hac : a ≠ c)
    (hba : ¬ Before compare b a) (hcb : ¬ Before compare c b) : ¬ Before compare c a := by
  intro hca
  rcases h.of_not_before hab hba with hbefore | hundecided
  · exact hcb (h.before_trans hac.symm hab hbc.symm hca hbefore)
  · rcases h.of_not_before hbc hcb with hbefore | hundecided'
    · exact hba (h.before_trans hbc hac.symm hab.symm hbefore hca)
    · have hac' := h.undecided_trans hab hbc hac hundecided hundecided'
      rcases h.consistent hac with hdecided | hdecided | hundecided
      · exact hdecided.1.not_undecided hac'
      · exact hdecided.1.not_undecided hac'
      · exact hca.not_undecided hundecided.2

/-- What a comparison put first does not come after. -/
theorem not_before_of_compared (h : WeakOrder compare) (hne : a ≠ b) (hab : Compared compare a b) :
    ¬ Before compare b a := by
  intro hba
  have hafter : After compare a b := by
    rcases h.consistent hne with hdecided | hdecided | hundecided
    · exact absurd hdecided.2 hba.not_after
    · exact hdecided.1
    · exact absurd hundecided.2 hba.not_undecided
  rcases hab with ⟨ω, x, hx, hle⟩ | ⟨ω, x, hx, hle⟩
  · obtain ⟨y, hy, hpos⟩ := hafter ω
    cases hx.symm.trans hy
    exact not_lt_of_ge hle hpos
  · obtain ⟨y, hy, hneg⟩ := hba ω
    cases hx.symm.trans hy
    exact not_lt_of_ge hle hneg

/-- In what a sort returns no entry comes after one that it is before. -/
theorem pairwise_of_isChain (h : WeakOrder compare) {l : List ι} (hnodup : l.Nodup)
    (hchain : l.IsChain (Compared compare)) : l.Pairwise fun a b ↦ ¬ Before compare b a := by
  induction l with
  | nil => exact List.Pairwise.nil
  | cons a l ih =>
    cases l with
    | nil => exact List.pairwise_singleton _ a
    | cons b l =>
      obtain ⟨hab, hrest⟩ := List.isChain_cons_cons.mp hchain
      obtain ⟨ha, hbl⟩ := List.nodup_cons.mp hnodup
      have hpairs := ih hbl hrest
      have hne : a ≠ b := fun heq ↦ ha (heq ▸ List.mem_cons_self)
      have hba := h.not_before_of_compared hne hab
      refine List.pairwise_cons.mpr ⟨fun c hc ↦ ?_, hpairs⟩
      rcases List.mem_cons.mp hc with rfl | hcl
      · exact hba
      · have hbc : b ≠ c := fun heq ↦ (List.nodup_cons.mp hbl).1 (heq ▸ hcl)
        have hac : a ≠ c := fun heq ↦ ha (heq ▸ hc)
        exact h.not_before_trans hne hbc hac hba ((List.pairwise_cons.mp hpairs).1 c hcl)

/-- A comparator that decides by a key, and leaves entries with one key undecided, is a weak
order. -/
theorem of_key {κ : Type} [LinearOrder κ] (key : ι → κ)
    (hlt : ∀ {a b}, a ≠ b → key a < key b → Before compare a b ∧ After compare b a)
    (heq : ∀ {a b}, a ≠ b → key a = key b → Undecided compare a b) : WeakOrder compare := by
  have hkey_of_before : ∀ {a b}, a ≠ b → Before compare a b → key a < key b := by
    intro a b hne hbefore
    rcases lt_trichotomy (key a) (key b) with h | h | h
    · exact h
    · exact absurd (heq hne h) hbefore.not_undecided
    · exact absurd (hlt hne.symm h).2 hbefore.not_after
  have hkey_of_undecided : ∀ {a b}, a ≠ b → Undecided compare a b → key a = key b := by
    intro a b hne hundecided
    rcases lt_trichotomy (key a) (key b) with h | h | h
    · exact absurd hundecided (hlt hne h).1.not_undecided
    · exact h
    · exact absurd hundecided (hlt hne.symm h).2.not_undecided
  constructor
  · intro a b hne
    rcases lt_trichotomy (key a) (key b) with h | h | h
    · exact .inl (hlt hne h)
    · exact .inr (.inr ⟨heq hne h, heq hne.symm h.symm⟩)
    · exact .inr (.inl (hlt hne.symm h).symm)
  · intro a b c hab hbc hac h h'
    exact (hlt hac ((hkey_of_before hab h).trans (hkey_of_before hbc h'))).1
  · intro a b c hab hbc hac h h'
    exact heq hac ((hkey_of_undecided hab h).trans (hkey_of_undecided hbc h'))

end WeakOrder

end ColivingSpec.Lib
