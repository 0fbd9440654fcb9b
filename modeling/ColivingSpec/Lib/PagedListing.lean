import Mathlib.Data.Int.Notation
import Mathlib.Data.List.Basic

/-!
# Paged listings

A listing that grows at its front is read from there backwards, one page at a time: each
request names the key of the last entry seen. A reader that stops at the first entry it
already knows collects what is new, as long as what it knows is the oldest part.
-/

namespace ColivingSpec.Lib

open List

section Paging

variable {α κ σ : Type} [DecidableEq κ] (key : α → κ)

/-- The entries that follow the one with the given key; without a key, all of them. -/
def after (l : List α) : Option κ → List α
  | none => l
  | some k => (l.dropWhile fun a ↦ decide (key a ≠ k)).tail

/-- Requests the page after the last entry seen until a page is empty or the step stops.
The first argument is the number of requests that are answered; the flag says that the loop
ended before they ran out. -/
def overPages (page : Option κ → List α) (step : σ → List α → σ × Bool) :
    ℕ → Option κ → σ → σ × Bool
  | 0, _, s => (s, false)
  | answers + 1, before, s =>
    match page before with
    | [] => (s, true)
    | a :: entries =>
      let next := step s (a :: entries)
      if next.2 then (next.1, true)
      else overPages page step answers (some (key ((a :: entries).getLast (by simp)))) next.1

variable {key}

theorem after_append {l a b : List α} (hl : (l.map key).Nodup) (h : l = a ++ b) (ha : a ≠ []) :
    after key l (some (key (a.getLast ha))) = b := by
  subst h
  induction a with
  | nil => exact absurd rfl ha
  | cons x a ih =>
    have hkeys := hl
    simp only [cons_append, map_cons, nodup_cons] at hkeys
    obtain ⟨hx, hrest⟩ := hkeys
    cases a with
    | nil => simp [after]
    | cons y a =>
      have hne : key x ≠ key ((y :: a).getLast (by simp)) := by
        intro heq
        apply hx
        rw [heq, map_append]
        exact mem_append_left _ (mem_map_of_mem (getLast_mem _))
      have htail := ih (by simp) hrest
      simp only [after] at htail ⊢
      rw [getLast_cons (by simp), cons_append, dropWhile_cons_of_pos (by simpa)]
      exact htail

variable (key) in
theorem after_suffix (l : List α) (before : Option κ) : after key l before <:+ l := by
  cases before with
  | none => exact suffix_rfl
  | some k => exact (tail_suffix _).trans (dropWhile_suffix _)

/-- The last entry of what was read is where the rest begins. -/
theorem after_getLast {l read rest : List α} {before : Option κ} (hl : (l.map key).Nodup)
    (h : after key l before = read ++ rest) (hread : read ≠ []) :
    after key l (some (key (read.getLast hread))) = rest := by
  obtain ⟨front, hfront⟩ := after_suffix key l before
  rw [h, ← append_assoc] at hfront
  have hne : front ++ read ≠ [] := by simp [hread]
  have := after_append hl hfront.symm hne
  rwa [getLast_append_of_ne_nil hne hread] at this

section

variable {step : σ → List α → σ × Bool} {l : List α} {limit : ℕ} {before : Option κ}
  {I : List α → σ → Prop} {F : σ → Prop}

/-- What one page establishes, a loop over the pages that comes to its end establishes: `I`
holds of what has been read, `F` of the result. -/
theorem overPages_induct (hlimit : 0 < limit) (hl : (l.map key).Nodup)
    (hstep : ∀ read page rest s, after key l before = read ++ (page ++ rest) → page ≠ [] →
      I read s → if (step s page).2 then F (step s page).1 else I (read ++ page) (step s page).1)
    (hend : ∀ s, I (after key l before) s → F s) {answers : ℕ} {s : σ} (hs : I [] s)
    (hdone : (overPages key (fun b ↦ (after key l b).take limit) step answers before s).2) :
    F (overPages key (fun b ↦ (after key l b).take limit) step answers before s).1 := by
  suffices hloop : ∀ (answers : ℕ) (at' : Option κ) (read rest : List α) (s : σ),
      after key l before = read ++ rest → after key l at' = rest → I read s →
      (overPages key (fun b ↦ (after key l b).take limit) step answers at' s).2 →
      F (overPages key (fun b ↦ (after key l b).take limit) step answers at' s).1 from
    hloop answers before [] _ s rfl rfl hs hdone
  intro answers
  induction answers with
  | zero =>
    intro at' read rest s _ _ _ hdone
    simp [overPages] at hdone
  | succ answers ih =>
    intro at' read rest s hread hat hi hdone
    unfold overPages at hdone ⊢
    simp only [hat] at hdone ⊢
    cases hpage : rest.take limit with
    | nil =>
      have hrest : rest = [] := (take_eq_nil_iff.mp hpage).resolve_left (by omega)
      apply hend
      rwa [hread, hrest, append_nil]
    | cons a entries =>
      rw [hpage] at hdone
      have hsplit : rest = (a :: entries) ++ rest.drop limit := by
        rw [← hpage, take_append_drop]
      have hpart := hstep read (a :: entries) (rest.drop limit) s (by rw [← hsplit, hread])
        (by simp) hi
      by_cases hstop : (step s (a :: entries)).2 = true
      · simp only [hstop, if_true] at hpart ⊢
        exact hpart
      · simp only [hstop] at hpart hdone ⊢
        have hread' : after key l before = (read ++ (a :: entries)) ++ rest.drop limit := by
          rw [append_assoc, ← hsplit, hread]
        have hnext := after_getLast hl hread' (by simp)
        rw [getLast_append_of_ne_nil (by simp) (by simp)] at hnext
        exact ih _ _ _ _ hread' hnext hpart hdone

/-- With more answers than entries the loop comes to its end. -/
theorem overPages_ends (hl : (l.map key).Nodup) {answers : ℕ}
    (hanswers : (after key l before).length < answers) (s : σ) :
    (overPages key (fun b ↦ (after key l b).take limit) step answers before s).2 = true := by
  induction answers generalizing before s with
  | zero => omega
  | succ answers ih =>
    unfold overPages
    cases hpage : (after key l before).take limit with
    | nil => rfl
    | cons a entries =>
      by_cases hstop : (step s (a :: entries)).2 = true
      · simp only [hstop, if_true]
      · simp only [hstop]
        apply ih
        have hsplit : after key l before
            = (a :: entries) ++ (after key l before).drop limit := by
          rw [← hpage, take_append_drop]
        rw [after_getLast hl hsplit (by simp)]
        have hlen := congrArg length hsplit
        simp only [length_append, length_cons] at hlen
        omega

end

end Paging

section Known

variable {α : Type} {p stop : α → Bool} {l newer older : List α}

/-- When the entries known are the oldest of those that count, a reader that stops at the
first known one has read the others. -/
theorem filter_takeWhile_eq (h : l.filter p = newer ++ older)
    (hnewer : ∀ a ∈ newer, stop a = false) (holder : ∀ a ∈ older, stop a = true)
    (hstop : ∀ a ∈ l, stop a = true → p a = true) :
    (l.takeWhile fun a ↦ !stop a).filter p = newer := by
  induction l generalizing newer with
  | nil =>
    have hnil : newer = [] := (append_eq_nil_iff.mp h.symm).1
    simp [hnil]
  | cons a l ih =>
    have hrest := fun b hb ↦ hstop b (mem_cons_of_mem a hb)
    cases hp : p a with
    | false =>
      have hgo : stop a = false := by
        by_contra hs
        have := hstop a mem_cons_self (by simpa using hs)
        simp [hp] at this
      rw [filter_cons_of_neg (by simp [hp])] at h
      rw [takeWhile_cons_of_pos (by simp [hgo]), filter_cons_of_neg (by simp [hp])]
      exact ih h hnewer hrest
    | true =>
      rw [filter_cons_of_pos hp] at h
      cases newer with
      | nil =>
        have ha : a ∈ older := by
          rw [nil_append] at h
          exact h ▸ mem_cons_self
        rw [takeWhile_cons_of_neg (by simp [holder a ha]), filter_nil]
      | cons b newer =>
        obtain ⟨rfl, hl⟩ := cons.inj h
        have hgo := hnewer a mem_cons_self
        rw [takeWhile_cons_of_pos (by simp [hgo]), filter_cons_of_pos hp,
          ih hl (fun c hc ↦ hnewer c (mem_cons_of_mem a hc)) hrest]

end Known

section Offsets

variable {ε α : Type}

/-- The pages from an offset on, up to the first one that is empty, and what they list together. -/
inductive ReadsPages (page : ℤ → Except ε (List α)) (limit : ℤ) : ℤ → List α → Prop
  | last (offset : ℤ) : page offset = .ok [] → ReadsPages page limit offset []
  | more (offset : ℤ) (entries rest : List α) : page offset = .ok entries → entries ≠ [] →
      ReadsPages page limit (offset + limit) rest → ReadsPages page limit offset (entries ++ rest)

/-- A page that does not depend on the offset ends nothing unless it is empty. -/
theorem readsPages_iff_of_eq {page : ℤ → Except ε (List α)} {first : Except ε (List α)}
    (h : ∀ offset, page offset = first) (limit offset : ℤ) (entries : List α) :
    ReadsPages page limit offset entries ↔ first = .ok [] ∧ entries = [] := by
  constructor
  · intro hreads
    induction hreads with
    | last offset hlast =>
      rw [h] at hlast
      exact ⟨hlast, rfl⟩
    | more offset entries rest hpage hne _ ih =>
      rw [h, ih.1] at hpage
      cases hpage
      exact absurd rfl hne
  · rintro ⟨hfirst, rfl⟩
    apply ReadsPages.last
    rw [h, hfirst]

end Offsets

end ColivingSpec.Lib
