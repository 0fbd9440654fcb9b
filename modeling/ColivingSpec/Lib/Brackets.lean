import Mathlib.Data.List.Basic

/-!
# Logs of what begins and ends

The entries of a log about a key, and logs in which every key that begins is brought to an end.
-/

namespace ColivingSpec.Lib

variable {α κ : Type*} [DecidableEq κ] (key : α → Option κ)

/-- The entries about a key, in order. -/
def about (k : κ) (log : List α) : List α := log.filter fun entry ↦ key entry = some k

/-- The entries about a key that begins are complete. -/
def Bracketed (begins : κ → α) (Complete : κ → List α → Prop) (log : List α) : Prop :=
  ∀ k, begins k ∈ log → Complete k (about key k log)

variable {key} {k : κ} {log log' : List α} {begins : κ → α} {Complete : κ → List α → Prop}

theorem mem_about {entry : α} : entry ∈ about key k log ↔ entry ∈ log ∧ key entry = some k := by
  simp [about]

theorem about_append : about key k (log ++ log') = about key k log ++ about key k log' :=
  List.filter_append ..

theorem about_eq_nil (h : ∀ entry ∈ log, key entry ≠ some k) : about key k log = [] := by
  rw [about, List.filter_eq_nil_iff]
  intro entry hentry
  simpa using h entry hentry

theorem bracketed_nil : Bracketed key begins Complete [] := by
  intro k hk
  cases hk

/-- Two logs about different keys are complete together exactly when both are. -/
theorem bracketed_append (hbegins : ∀ k, key (begins k) = some k)
    (hapart : ∀ entry ∈ log, ∀ entry' ∈ log', ∀ k, key entry = some k → key entry' ≠ some k) :
    Bracketed key begins Complete (log ++ log') ↔
      Bracketed key begins Complete log ∧ Bracketed key begins Complete log' := by
  have hleft : ∀ k, begins k ∈ log → about key k (log ++ log') = about key k log := by
    intro k hk
    have hnone : about key k log' = [] :=
      about_eq_nil fun entry hentry ↦ hapart _ hk entry hentry k (hbegins k)
    rw [about_append, hnone, List.append_nil]
  have hright : ∀ k, begins k ∈ log' → about key k (log ++ log') = about key k log' := by
    intro k hk
    have hnone : about key k log = [] :=
      about_eq_nil fun entry hentry heq ↦ hapart entry hentry _ hk k heq (hbegins k)
    rw [about_append, hnone, List.nil_append]
  constructor
  · intro h
    constructor
    · intro k hk
      rw [← hleft k hk]
      exact h k (List.mem_append_left _ hk)
    · intro k hk
      rw [← hright k hk]
      exact h k (List.mem_append_right _ hk)
  · rintro ⟨h, h'⟩ k hk
    obtain hk | hk := List.mem_append.mp hk
    · rw [hleft k hk]
      exact h k hk
    · rw [hright k hk]
      exact h' k hk

end ColivingSpec.Lib
