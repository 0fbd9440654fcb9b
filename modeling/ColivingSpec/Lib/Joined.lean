import Mathlib.Data.List.Infix

/-!
# Names joined by a separator

A name is written as parts, each after a separator, and read by splitting it at the separator.
The separator may be longer than one letter, so a part can make new occurrences of it at its
edges. A part is clean when it makes none, and names of clean parts are read as they were
written: by splitting, and by any pattern with as many separators. A pattern has stars, each of
which stands for any letters.
-/

namespace ColivingSpec.Lib.Joined

open List

variable {α : Type}

variable (sep part : List α)

/-- The parts, each after a separator. -/
def joined (parts : List (List α)) : List α := parts.flatMap (sep ++ ·)

@[simp] theorem joined_nil : joined sep [] = [] := rfl

@[simp] theorem joined_cons (parts : List (List α)) :
    joined sep (part :: parts) = sep ++ part ++ joined sep parts := rfl

/-- What stands before the first occurrence of a letter, and what stands after it, are read back. -/
theorem append_cons_inj [DecidableEq α] {a : α} {before before' after after' : List α}
    (hbefore : a ∉ before) (hbefore' : a ∉ before')
    (h : before ++ a :: after = before' ++ a :: after') : before = before' ∧ after = after' := by
  have hsplit := congrArg (splitOn a) h
  rw [splitOn_append_cons_self_of_not_mem hbefore,
    splitOn_append_cons_self_of_not_mem hbefore'] at hsplit
  obtain ⟨rfl, -⟩ := cons.inj hsplit
  exact ⟨rfl, (cons.inj (append_cancel_left h)).2⟩

/-- Between two separators the part makes no further occurrence of one. -/
def Clean : Prop :=
  ∀ before after, sep ++ part ++ sep = before ++ sep ++ after → before = [] ∨ after = []

/-- Being clean is checked at the places where a separator could begin. -/
theorem clean_iff :
    Clean sep part ↔
      ∀ i < (sep ++ part).length, 0 < i → ¬ sep <+: (sep ++ part ++ sep).drop i := by
  constructor
  · rintro hclean i hi hpos ⟨after, hafter⟩
    have hsplit : sep ++ part ++ sep = (sep ++ part ++ sep).take i ++ sep ++ after := by
      rw [append_assoc _ sep after, hafter, take_append_drop]
    rcases hclean _ _ hsplit with hbefore | hnil
    · have hlength := congrArg length hbefore
      simp only [length_take, length_append, length_nil] at hlength hi
      omega
    · have hlength := congrArg length hafter
      rw [hnil] at hlength
      simp only [length_drop, length_append, length_nil] at hlength hi
      omega
  · intro hnone before after hsplit
    by_contra hne
    rw [not_or] at hne
    have hbefore := length_pos_of_ne_nil hne.1
    have hafter := length_pos_of_ne_nil hne.2
    have hlength := congrArg length hsplit
    simp only [length_append] at hlength
    refine hnone before.length ?_ hbefore ⟨after, ?_⟩
    · simp only [length_append]
      omega
    · rw [hsplit, append_assoc, drop_left]

instance [DecidableEq α] (sep part : List α) : Decidable (Clean sep part) :=
  decidable_of_iff _ (clean_iff sep part).symm

variable (part : List α) {sep : List α} {parts : List (List α)}

/-- A separator that begins in what precedes further parts also begins there when only one more
separator follows. -/
theorem overlap_of_joined {after : List α} {first : α} {gap : List α} {rest : List (List α)}
    (h : sep ++ after = first :: gap ++ joined sep rest) :
    ∃ extra, extra ≠ [] ∧ first :: gap ++ sep = sep ++ extra := by
  cases rest with
  | nil =>
    rw [joined_nil, append_nil] at h
    refine ⟨after ++ sep, ?_, by rw [← h, append_assoc]⟩
    intro hnil
    obtain ⟨hafter, hsep⟩ := append_eq_nil_iff.mp hnil
    rw [hafter, hsep] at h
    cases h
  | cons part rest =>
    rw [joined_cons, append_assoc sep, ← append_assoc (first :: gap)] at h
    rcases append_eq_append_iff.mp h with ⟨extra, hextra, -⟩ | ⟨extra, hextra, -⟩
    · refine ⟨extra, ?_, hextra⟩
      rintro rfl
      have hlength := congrArg length hextra
      simp only [length_append, length_cons, length_nil] at hlength
      omega
    · have hlength := congrArg length hextra
      simp only [length_append, length_cons] at hlength
      omega

/-- A separator among clean parts stands where one of them begins. -/
theorem exists_of_joined_eq (hsep : sep ≠ []) (hclean : ∀ part ∈ parts, Clean sep part)
    {before after : List α} (h : joined sep parts = before ++ sep ++ after) :
    ∃ left right, parts = left ++ right ∧ right ≠ [] ∧ joined sep left = before ∧
      joined sep right = sep ++ after := by
  induction parts generalizing before with
  | nil =>
    have hnil := (append_eq_nil_iff.mp h.symm).1
    exact absurd (append_eq_nil_iff.mp hnil).2 hsep
  | cons part rest ih =>
    by_cases hbefore : before = []
    · subst hbefore
      exact ⟨[], part :: rest, rfl, cons_ne_nil _ _, rfl, h⟩
    · rw [joined_cons, append_assoc before] at h
      rcases append_eq_append_iff.mp h with ⟨gap, hgap, hrest⟩ | ⟨gap, hpart, hafter⟩
      · -- the separator begins after this part
        rw [hgap]
        rw [← append_assoc] at hrest
        obtain ⟨left, right, hparts, hright, hleft, hafter⟩ :=
          ih (fun q hq ↦ hclean q (mem_cons_of_mem _ hq)) hrest
        refine ⟨part :: left, right, by rw [hparts]; rfl, hright, ?_, hafter⟩
        rw [joined_cons, hleft]
      · cases gap with
        | nil =>
          rw [append_nil] at hpart
          refine ⟨[part], rest, rfl, ?_, ?_, ?_⟩
          · rintro rfl
            exact hsep (append_eq_nil_iff.mp hafter).1
          · rw [joined_cons, joined_nil, append_nil, hpart]
          · exact hafter.symm
        | cons first gap =>
          -- the separator would begin inside the part, or inside the separator before it
          obtain ⟨extra, hextra, hoverlap⟩ := overlap_of_joined hafter
          have hsplit : sep ++ part ++ sep = before ++ sep ++ extra := by
            rw [hpart, append_assoc, hoverlap, append_assoc]
          rcases hclean part mem_cons_self before extra hsplit with hnil | hnil
          · exact absurd hnil hbefore
          · exact absurd hnil hextra

/-- Clean parts are at least as many as the separators in any other reading. -/
theorem length_le_of_joined_eq (hsep : sep ≠ []) {others : List (List α)}
    (hclean : ∀ part ∈ parts, Clean sep part) (h : joined sep parts = joined sep others) :
    others.length ≤ parts.length := by
  induction others generalizing parts with
  | nil => exact Nat.zero_le _
  | cons other others ih =>
    cases others with
    | nil =>
      cases parts with
      | nil => exact absurd (append_eq_nil_iff.mp (append_eq_nil_iff.mp h.symm).1).1 hsep
      | cons part parts => exact Nat.succ_le_succ (Nat.zero_le _)
    | cons next others =>
      rw [joined_cons, joined_cons, append_assoc sep next, ← append_assoc] at h
      obtain ⟨left, right, rfl, -, hleft, hright⟩ := exists_of_joined_eq hsep hclean h
      have hothers := ih (fun part hpart ↦ hclean part (mem_append_right left hpart))
        (by rw [hright, joined_cons, append_assoc])
      have hpos : 0 < left.length := by
        apply length_pos_of_ne_nil
        rintro rfl
        exact hsep (append_eq_nil_iff.mp hleft.symm).1
      rw [length_append, length_cons]
      omega

/-- Clean parts are the only reading with that many separators. -/
theorem eq_of_joined_eq (hsep : sep ≠ []) {others : List (List α)}
    (hclean : ∀ part ∈ parts, Clean sep part) (h : joined sep parts = joined sep others)
    (hlength : parts.length = others.length) : parts = others := by
  induction others generalizing parts with
  | nil => exact eq_nil_of_length_eq_zero hlength
  | cons other others ih =>
    cases others with
    | nil =>
      obtain ⟨part, rfl⟩ := length_eq_one_iff.mp hlength
      simp only [joined_cons, joined_nil, append_nil] at h
      rw [append_cancel_left h]
    | cons next others =>
      have hfirst := h
      rw [joined_cons, joined_cons, append_assoc sep next, ← append_assoc] at hfirst
      obtain ⟨left, right, rfl, -, hleft, hright⟩ := exists_of_joined_eq hsep hclean hfirst
      have hcleanRight : ∀ part ∈ right, Clean sep part :=
        fun part hpart ↦ hclean part (mem_append_right left hpart)
      have hrest : joined sep right = joined sep (next :: others) := by
        rw [hright, joined_cons, append_assoc]
      have hle := length_le_of_joined_eq hsep hcleanRight hrest
      have hpos : 0 < left.length := by
        apply length_pos_of_ne_nil
        rintro rfl
        exact hsep (append_eq_nil_iff.mp hleft.symm).1
      rw [length_append, length_cons] at hlength
      have hone : left.length = 1 := by omega
      obtain ⟨part, rfl⟩ := length_eq_one_iff.mp hone
      simp only [joined_cons, joined_nil, append_nil] at hleft
      rw [append_cancel_left hleft, ih hcleanRight hrest (by omega)]
      rfl

variable [DecidableEq α]

/-- Splitting at each separator from the left: `skip` letters of the separator are still to be
passed, and `current` is the part being read, last letter first. -/
def splitFrom (sep : List α) : ℕ → List α → List α → List (List α)
  | _, current, [] => [current.reverse]
  | skip + 1, current, _ :: rest => splitFrom sep skip current rest
  | 0, current, letter :: rest =>
    if sep <+: letter :: rest then current.reverse :: splitFrom sep (sep.length - 1) [] rest
    else splitFrom sep 0 (letter :: current) rest

/-- The parts of a text between its separators. -/
def split (sep text : List α) : List (List α) := splitFrom sep 0 [] text

theorem splitFrom_skip (sep current passed rest : List α) :
    splitFrom sep passed.length current (passed ++ rest) = splitFrom sep 0 current rest := by
  induction passed with
  | nil => rfl
  | cons letter passed ih => exact ih

/-- What precedes the first separator is read as one part. -/
theorem splitFrom_part (sep current part rest : List α)
    (h : ∀ before letter after, part = before ++ letter :: after →
      ¬ sep <+: letter :: after ++ rest) :
    splitFrom sep 0 current (part ++ rest) =
      splitFrom sep 0 (part.reverse ++ current) rest := by
  induction part generalizing current with
  | nil => rfl
  | cons letter part ih =>
    have hnot := h [] letter part rfl
    rw [cons_append] at hnot ⊢
    rw [splitFrom, if_neg hnot, ih]
    · rw [reverse_cons, append_assoc, singleton_append]
    · intro before next after hpart
      exact h (letter :: before) next after (by rw [hpart, cons_append])

theorem splitFrom_sep (hsep : sep ≠ []) (current rest : List α) :
    splitFrom sep 0 current (sep ++ rest) = current.reverse :: splitFrom sep 0 [] rest := by
  cases sep with
  | nil => exact absurd rfl hsep
  | cons letter tail =>
    have hprefix : letter :: tail <+: letter :: (tail ++ rest) := ⟨rest, rfl⟩
    rw [cons_append, splitFrom, if_pos hprefix]
    congr 1
    exact splitFrom_skip _ [] tail rest

/-- A clean part that further parts follow is read as it was written. -/
theorem splitFrom_clean (hsep : sep ≠ []) {part : List α} (hclean : Clean sep part)
    (rest : List (List α)) :
    splitFrom sep 0 [] (part ++ joined sep rest) =
      splitFrom sep 0 part.reverse (joined sep rest) := by
  rw [splitFrom_part, append_nil]
  rintro before letter after rfl ⟨following, hfollowing⟩
  obtain ⟨extra, hextra, hoverlap⟩ := overlap_of_joined hfollowing
  have hsplit : sep ++ (before ++ letter :: after) ++ sep = sep ++ before ++ sep ++ extra := by
    rw [append_assoc, append_assoc, hoverlap]
    simp only [append_assoc]
  rcases hclean _ _ hsplit with hnil | hnil
  · exact hsep (append_eq_nil_iff.mp hnil).1
  · exact hextra hnil

/-- Names of clean parts are split as they were joined. -/
theorem split_append_joined (hsep : sep ≠ []) (part : List α) (parts : List (List α))
    (hclean : ∀ p ∈ part :: parts, Clean sep p) :
    split sep (part ++ joined sep parts) = part :: parts := by
  induction parts generalizing part with
  | nil =>
    rw [split, splitFrom_clean hsep (hclean part mem_cons_self)]
    rw [joined_nil, splitFrom, reverse_reverse]
  | cons next parts ih =>
    rw [split, splitFrom_clean hsep (hclean part mem_cons_self)]
    rw [joined_cons, append_assoc, splitFrom_sep hsep, reverse_reverse]
    exact congrArg _ (ih next fun p hp ↦ hclean p (mem_cons_of_mem part hp))

/-- A text matches a pattern: a star stands for any letters, another letter for itself. -/
def starMatch (star : α) : List α → List α → Bool
  | [], text => text.isEmpty
  | letter :: pattern, text =>
    if letter = star then text.tails.any (starMatch star pattern)
    else
      match text with
      | [] => false
      | first :: rest => decide (letter = first) && starMatch star pattern rest

theorem starMatch_star (star : α) (pattern text : List α) :
    starMatch star (star :: pattern) text = true ↔
      ∃ passed rest, text = passed ++ rest ∧ starMatch star pattern rest = true := by
  rw [starMatch.eq_def]
  simp only [if_true, any_eq_true]
  constructor
  · rintro ⟨rest, hrest, hmatch⟩
    obtain ⟨passed, hpassed⟩ := (mem_tails _ _).mp hrest
    exact ⟨passed, rest, hpassed.symm, hmatch⟩
  · rintro ⟨passed, rest, rfl, hmatch⟩
    exact ⟨rest, (mem_tails _ _).mpr ⟨passed, rfl⟩, hmatch⟩

theorem starMatch_literal {star : α} {literal : List α} (h : star ∉ literal)
    (pattern text : List α) :
    starMatch star (literal ++ pattern) text = true ↔
      ∃ rest, text = literal ++ rest ∧ starMatch star pattern rest = true := by
  induction literal generalizing text with
  | nil => simp
  | cons letter literal ih =>
    rw [mem_cons, not_or] at h
    rw [cons_append, starMatch.eq_def]
    simp only [if_neg (Ne.symm h.1)]
    cases text with
    | nil => simp
    | cons first text =>
      rw [Bool.and_eq_true, decide_eq_true_iff, ih h.2]
      constructor
      · rintro ⟨rfl, rest, rfl, hmatch⟩
        exact ⟨rest, rfl, hmatch⟩
      · rintro ⟨rest, htext, hmatch⟩
        obtain ⟨rfl, rfl⟩ := cons.inj htext
        exact ⟨rfl, rest, rfl, hmatch⟩

end ColivingSpec.Lib.Joined
