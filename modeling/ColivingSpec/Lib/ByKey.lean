import ColivingSpec.Lib.Dict
import Mathlib.Data.List.TakeWhile

/-!
# Steps by key

A run of steps, each of which has a key and touches the cell of its key only, takes a cell through
the steps of its key. A dictionary written step by step keeps the last step of each key, and lists
the keys in the order in which they first came.
-/

namespace ColivingSpec.Lib

open List

variable {κ ε α : Type} [DecidableEq κ] (key : ε → κ)

/-- The steps of a key, in their order. -/
def withKey (k : κ) (es : List ε) : List ε := es.filter (key · = k)

/-- The steps before the first one of a key. -/
def beforeKey (k : κ) (es : List ε) : List ε := es.takeWhile (key · ≠ k)

variable {key} (k : κ) (e : ε) (es : List ε) {γ : Type}

@[simp] theorem withKey_nil : withKey key k [] = [] := rfl

theorem withKey_cons :
    withKey key k (e :: es) = if key e = k then e :: withKey key k es else withKey key k es := by
  simp only [withKey, filter_cons, decide_eq_true_eq]

theorem withKey_concat :
    withKey key k (es ++ [e]) =
      if key e = k then withKey key k es ++ [e] else withKey key k es := by
  rw [withKey, filter_append, filter_singleton, withKey]
  by_cases heq : key e = k
  · rw [if_pos heq, decide_eq_true heq]
    rfl
  · rw [if_neg heq, decide_eq_false heq]
    exact append_nil _

theorem mem_withKey {k : κ} {es : List ε} {e : ε} : e ∈ withKey key k es ↔ e ∈ es ∧ key e = k := by
  simp only [withKey, mem_filter, decide_eq_true_eq]

theorem beforeKey_cons :
    beforeKey key k (e :: es) = if key e = k then [] else e :: beforeKey key k es := by
  unfold beforeKey
  by_cases heq : key e = k
  · simp [heq]
  · simp [heq]

/-! ### Cells -/

variable (key) in
/-- A cell goes through the steps of its key. -/
theorem cell_foldl {σ : Type} {one : σ → ε → σ} (cell : σ → κ → γ) (step : ε → γ → γ)
    (Inv : σ → Prop) (hinv : ∀ s e, Inv s → Inv (one s e))
    (hcell : ∀ s e, Inv s → ∀ k, cell (one s e) k = if key e = k then step e (cell s k) else cell s k)
    (es : List ε) : ∀ s, Inv s → ∀ k,
      cell (es.foldl one s) k = (withKey key k es).foldl (fun c e ↦ step e c) (cell s k) := by
  induction es with
  | nil => intro s _ k; rfl
  | cons e es ih =>
    intro s hs k
    rw [foldl_cons, ih _ (hinv s e hs), hcell s e hs, withKey_cons]
    by_cases heq : key e = k
    · rw [if_pos heq, if_pos heq, foldl_cons]
    · rw [if_neg heq, if_neg heq]

/-- Where a step leaves nothing to the steps after it, only the first one counts. -/
theorem foldl_absorbed {step : ε → γ → γ} {e : ε} {es : List ε} {c : γ}
    (habsorb : ∀ e' ∈ es, step e' (step e c) = step e c) :
    (e :: es).foldl (fun c e ↦ step e c) c = step e c := by
  rw [foldl_cons]
  induction es with
  | nil => rfl
  | cons e' es ih =>
    rw [foldl_cons, habsorb e' mem_cons_self]
    exact ih fun other hother ↦ habsorb other (mem_cons_of_mem _ hother)

variable (key) in
/-- A batch that takes each cell through the last step of its key alone leaves what the steps leave
one by one exactly where the last step of each key does what the first one does. -/
theorem batch_eq_each_iff {σ : Type} {batch : σ → List ε → σ} (cell : σ → κ → γ) (step : ε → γ → γ)
    (Inv : σ → Prop) (hinv : ∀ s es, Inv s → Inv (batch s es))
    (hbatch : ∀ s es, Inv s → ∀ k, cell (batch s es) k =
      (withKey key k es).getLast?.elim (cell s k) fun e ↦ step e (cell s k))
    (habsorb : ∀ e e' c, key e' = key e → step e' (step e c) = step e c) {s : σ} (hs : Inv s)
    (es : List ε) :
    (∀ k, cell (batch s es) k = cell (es.foldl (fun s e ↦ batch s [e]) s) k) ↔
      ∀ k first last, (withKey key k es).head? = some first →
        (withKey key k es).getLast? = some last → step last (cell s k) = step first (cell s k) := by
  have hone : ∀ s e, Inv s → ∀ k,
      cell (batch s [e]) k = if key e = k then step e (cell s k) else cell s k := by
    intro s e hs k
    rw [hbatch s [e] hs, withKey_cons, withKey_nil]
    by_cases heq : key e = k
    · rw [if_pos heq, if_pos heq]
      rfl
    · rw [if_neg heq, if_neg heq]
      rfl
  have heach := cell_foldl key cell step Inv (fun s e ↦ hinv s [e]) hone es s hs
  have hfirst : ∀ {k first rest}, withKey key k es = first :: rest →
      (withKey key k es).foldl (fun c e ↦ step e c) (cell s k) = step first (cell s k) := by
    intro k first rest hlist
    have hkey : ∀ e ∈ first :: rest, key e = k := by
      intro e he
      exact (mem_withKey.mp (hlist ▸ he)).2
    rw [hlist]
    apply foldl_absorbed
    intro e he
    apply habsorb
    rw [hkey e (mem_cons_of_mem _ he), hkey first mem_cons_self]
  constructor
  · intro hsame k first last hhead hlast
    obtain ⟨rest, hlist⟩ := head?_eq_some_iff.mp hhead
    have hcell := hsame k
    rw [hbatch s es hs, heach, hlast, hfirst hlist] at hcell
    exact hcell
  · intro hagree k
    rw [hbatch s es hs, heach]
    cases hlist : withKey key k es with
    | nil => rfl
    | cons first rest =>
      rw [← hlist, hfirst hlist, hlist]
      cases hlast : (first :: rest).getLast? with
      | none => cases getLast?_eq_none_iff.mp hlast
      | some last =>
        exact hagree k first last (by rw [hlist]; rfl) (by rw [hlist, hlast])

/-! ### Dictionaries written step by step -/

section Written

variable (key) (value : ε → α)

/-- A key has the value of its last step. -/
theorem get?_foldl_set (es : List ε) (d : Dict κ α) (k : κ) :
    (es.foldl (fun d e ↦ d.set (key e) (value e)) d).get? k =
      ((withKey key k es).getLast?.map value).or (d.get? k) := by
  induction es using reverseRecOn with
  | nil => rfl
  | append_singleton es e ih =>
    rw [foldl_concat, Dict.get?_set, withKey_concat, ih]
    by_cases heq : key e = k
    · rw [if_pos heq, if_pos heq, getLast?_concat]
      rfl
    · rw [if_neg heq, if_neg heq]

/-- A key whose steps are all one step has its value. -/
theorem get?_foldl_set_of_mem {es : List ε} {e : ε} (he : e ∈ es)
    (hall : ∀ e' ∈ es, key e' = key e → e' = e) (d : Dict κ α) :
    (es.foldl (fun d e ↦ d.set (key e) (value e)) d).get? (key e) = some (value e) := by
  rw [get?_foldl_set key]
  have hmem : e ∈ withKey key (key e) es := mem_withKey.mpr ⟨he, rfl⟩
  obtain ⟨last, hlast⟩ := Option.ne_none_iff_exists'.mp
    (getLast?_eq_none_iff.not.mpr (ne_nil_of_mem hmem))
  obtain ⟨hin, hkey⟩ := mem_withKey.mp (mem_of_getLast? hlast)
  rw [hlast, hall last hin hkey]
  rfl

/-- A key without a step keeps its value. -/
theorem get?_foldl_set_of_not_mem {es : List ε} {k : κ} (hnone : ∀ e ∈ es, key e ≠ k)
    (d : Dict κ α) : (es.foldl (fun d e ↦ d.set (key e) (value e)) d).get? k = d.get? k := by
  rw [get?_foldl_set key, withKey, filter_eq_nil_iff.mpr]
  · rfl
  · intro e he
    simpa using hnone e he

end Written

/-! ### The order of keys -/

theorem Entries.keys_set (a : α) (l : List (κ × α)) :
    (Entries.set k a l).map Prod.fst =
      if k ∈ l.map Prod.fst then l.map Prod.fst else l.map Prod.fst ++ [k] := by
  induction l with
  | nil => rfl
  | cons entry rest ih =>
    unfold Entries.set
    by_cases heq : entry.1 = k
    · simp [heq]
    · rw [if_neg heq, map_cons, ih, map_cons]
      by_cases hmem : k ∈ rest.map Prod.fst
      · rw [if_pos hmem, if_pos (mem_cons_of_mem _ hmem)]
      · have hnot : k ∉ entry.1 :: rest.map Prod.fst :=
          not_mem_cons_of_ne_of_not_mem (Ne.symm heq) hmem
        rw [if_neg hmem, if_neg hnot, cons_append]

/-- The keys stand in the order in which they first came. -/
theorem keys_foldl_set (value : ε → α) (es : List ε) :
    (es.foldl (fun d e ↦ d.set (key e) (value e)) (Dict.empty : Dict κ α)).items.map Prod.fst =
      (es.map key).eraseDups := by
  induction es using reverseRecOn with
  | nil => rfl
  | append_singleton es e ih =>
    rw [foldl_concat, map_append, map_singleton, eraseDups_append, ← ih]
    refine (Entries.keys_set _ _ _).trans ?_
    rw [ih]
    by_cases hmem : key e ∈ es.map key
    · have hgone : [key e].removeAll (es.map key) = [] := by
        rw [removeAll, filter_singleton]
        simp only [elem_eq_mem, hmem, decide_true, Bool.not_true, cond_false]
      rw [if_pos (mem_eraseDups.mpr hmem), hgone, eraseDups_nil, append_nil]
    · have hstays : [key e].removeAll (es.map key) = [key e] := by
        rw [removeAll, filter_singleton]
        simp only [elem_eq_mem, hmem, decide_false, Bool.not_false, cond_true]
      rw [if_neg (mt mem_eraseDups.mp hmem), hstays]
      rfl

theorem beforeKey_filter {k : κ} {p : ε → Bool} (hk : ∀ e, key e = k → p e = true) (es : List ε) :
    beforeKey key k (es.filter p) = (beforeKey key k es).filter p := by
  induction es with
  | nil => rfl
  | cons e es ih =>
    rw [beforeKey_cons]
    by_cases heq : key e = k
    · rw [filter_cons_of_pos (hk e heq), beforeKey_cons, if_pos heq, if_pos heq]
      rfl
    · rw [if_neg heq]
      by_cases hp : p e = true
      · rw [filter_cons_of_pos hp, beforeKey_cons, if_neg heq, ih, filter_cons_of_pos hp]
      · rw [filter_cons_of_neg hp, ih, filter_cons_of_neg hp]

theorem map_beforeKey :
    (beforeKey key k es).map key = beforeKey id k (es.map key) := by
  induction es with
  | nil => rfl
  | cons e es ih =>
    rw [map_cons, beforeKey_cons, beforeKey_cons]
    by_cases heq : key e = k
    · rw [if_pos heq, if_pos (show id (key e) = k from heq)]
      rfl
    · rw [if_neg heq, if_neg (show ¬ id (key e) = k from heq), map_cons, ih]

/-- What comes before a key is the same with and without repetitions. -/
theorem beforeKey_eraseDups (l : List κ) :
    beforeKey id k l.eraseDups = (beforeKey id k l).eraseDups := by
  induction hlen : l.length using Nat.strongRecOn generalizing l with
  | ind n ih =>
    cases l with
    | nil => rfl
    | cons a l =>
      rw [eraseDups_cons, beforeKey_cons, beforeKey_cons]
      by_cases heq : id a = k
      · rw [if_pos heq, if_pos heq]
        rfl
      · have hshort : (l.filter fun b ↦ !b == a).length < n := by
          rw [← hlen, length_cons]
          exact Nat.lt_succ_of_le (length_filter_le _ l)
        rw [if_neg heq, if_neg heq, ih _ hshort _ rfl, beforeKey_filter, eraseDups_cons]
        rintro b rfl
        simpa using Ne.symm heq

/-- The keys that a dictionary lists before a key are those of the steps before its first one. -/
theorem keys_beforeKey_foldl_set (value : ε → α) (k : κ) (es : List ε) :
    (beforeKey Prod.fst k
        (es.foldl (fun d e ↦ d.set (key e) (value e)) (Dict.empty : Dict κ α)).items).map Prod.fst =
      ((beforeKey key k es).map key).eraseDups := by
  rw [map_beforeKey, keys_foldl_set, beforeKey_eraseDups, map_beforeKey]

end ColivingSpec.Lib
