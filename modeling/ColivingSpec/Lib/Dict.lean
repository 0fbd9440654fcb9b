import Mathlib.Data.List.Induction
import Mathlib.Data.List.Nodup

/-!
# Dictionaries

A dictionary lists its entries in the order in which their keys were first set; setting a key
that is there replaces its value where it stands. A dictionary of dictionaries is addressed by
two keys, and its values are listed outer key by outer key.
-/

namespace ColivingSpec.Lib

open List

variable {κ ν α : Type}

namespace Entries

variable [DecidableEq κ]

/-- The value of the key. -/
def get? (k : κ) : List (κ × α) → Option α
  | [] => none
  | entry :: rest => if entry.1 = k then some entry.2 else get? k rest

/-- The value of the key is replaced, or the key is added at the end. -/
def set (k : κ) (a : α) : List (κ × α) → List (κ × α)
  | [] => [(k, a)]
  | entry :: rest => if entry.1 = k then (k, a) :: rest else entry :: set k a rest

variable (k : κ) (a : α) {l : List (κ × α)}

theorem get?_set (l : List (κ × α)) (k' : κ) :
    get? k' (set k a l) = if k = k' then some a else get? k' l := by
  induction l with
  | nil => rfl
  | cons entry rest ih =>
    unfold set
    split
    · next heq => simp only [get?, heq]; split <;> rfl
    · next hne =>
      simp only [get?, ih]
      by_cases hk : k = k'
      · subst hk
        rw [if_neg hne, if_pos rfl, if_pos rfl]
      · simp only [if_neg hk]

theorem mem_keys_set (l : List (κ × α)) (k' : κ) :
    k' ∈ (set k a l).map Prod.fst ↔ k' = k ∨ k' ∈ l.map Prod.fst := by
  induction l with
  | nil => simp [set]
  | cons entry rest ih =>
    unfold set
    split
    · next heq => simp [heq]
    · simp only [map_cons, mem_cons, ih]
      tauto

theorem nodup_keys_set (h : (l.map Prod.fst).Nodup) :
    ((set k a l).map Prod.fst).Nodup := by
  induction l with
  | nil => exact nodup_singleton k
  | cons entry rest ih =>
    obtain ⟨hnot, hrest⟩ := nodup_cons.mp h
    unfold set
    split
    · next heq => exact nodup_cons.mpr ⟨heq ▸ hnot, hrest⟩
    · next hne =>
      refine nodup_cons.mpr ⟨?_, ih hrest⟩
      intro hmem
      rcases (mem_keys_set k a rest entry.1).mp hmem with heq | hin
      · exact hne heq
      · exact hnot hin

theorem mem_iff_get? (h : (l.map Prod.fst).Nodup) (k : κ) (a : α) :
    (k, a) ∈ l ↔ get? k l = some a := by
  induction l with
  | nil => simp [get?]
  | cons entry rest ih =>
    obtain ⟨hnot, hrest⟩ := nodup_cons.mp h
    unfold get?
    rw [mem_cons, ih hrest]
    split
    · next heq =>
      constructor
      · rintro (rfl | hget)
        · rfl
        · exact absurd (mem_map_of_mem ((ih hrest).mpr hget)) (heq ▸ hnot)
      · intro hsome
        cases hsome
        exact .inl (by rw [← heq])
    · next hne =>
      apply or_iff_right
      rintro rfl
      exact hne rfl

/-- A key that is set to the value it has leaves the entries as they are. -/
theorem set_get? {k : κ} {a : α} (h : get? k l = some a) : set k a l = l := by
  induction l with
  | nil => cases h
  | cons entry rest ih =>
    unfold get? at h
    unfold set
    split at h
    · next heq =>
      rw [if_pos heq, ← Option.some.inj h, ← heq]
    · next hne => rw [if_neg hne, ih h]

/-- A key that is not there is added at the end. -/
theorem set_of_not_mem {k : κ} {a : α} (h : k ∉ l.map Prod.fst) :
    set k a l = l ++ [(k, a)] := by
  induction l with
  | nil => rfl
  | cons entry rest ih =>
    rw [map_cons, mem_cons, not_or] at h
    unfold set
    rw [if_neg (Ne.symm h.1), ih h.2, cons_append]

/-- The values that are shown of the entries tell what the value of a key was set to. -/
theorem eq_of_map_filter_set {β : Type} (p : α → Bool) (g : α → β) {k : κ} {a : α} (a' : α)
    (h : get? k l = some a) (hp : p a = true) (hp' : p a' = true)
    (heq : ((set k a' l).filter fun entry ↦ p entry.2).map (fun entry ↦ g entry.2) =
      (l.filter fun entry ↦ p entry.2).map fun entry ↦ g entry.2) : g a' = g a := by
  induction l with
  | nil => cases h
  | cons entry rest ih =>
    unfold get? at h
    unfold set at heq
    split at h
    · next hkey =>
      have hvalue := Option.some.inj h
      rw [if_pos hkey] at heq
      simp only [filter_cons, hp', hvalue, hp, if_true, map_cons] at heq
      exact (cons.inj heq).1
    · next hkey =>
      rw [if_neg hkey] at heq
      by_cases hshown : p entry.2 = true
      · simp only [filter_cons, hshown, if_true, map_cons] at heq
        exact ih h (cons.inj heq).2
      · simp only [filter_cons, hshown] at heq
        exact ih h heq

theorem get?_map_values {β : Type} (f : α → β) (l : List (κ × α)) (k : κ) :
    get? k (l.map fun entry ↦ (entry.1, f entry.2)) = (get? k l).map f := by
  induction l with
  | nil => rfl
  | cons entry rest ih =>
    simp only [map_cons, get?, ih]
    split <;> rfl

end Entries

/-- A dictionary: its entries, no two of one key. -/
structure Dict (κ α : Type) where
  items : List (κ × α)
  nodup : (items.map Prod.fst).Nodup

namespace Dict

/-- No entries. -/
def empty : Dict κ α := ⟨[], List.nodup_nil⟩

variable [DecidableEq κ]

/-- The value of a key. -/
def get? (d : Dict κ α) (k : κ) : Option α := Entries.get? k d.items

/-- The dictionary with the key set. -/
def set (d : Dict κ α) (k : κ) (a : α) : Dict κ α :=
  ⟨Entries.set k a d.items, Entries.nodup_keys_set k a d.nodup⟩

variable (k : κ) (d : Dict κ α) (a : α)

@[simp] theorem get?_empty : (empty : Dict κ α).get? k = none := rfl

theorem get?_set (k' : κ) :
    (d.set k a).get? k' = if k = k' then some a else d.get? k' :=
  Entries.get?_set k a d.items k'

theorem set_get? {d : Dict κ α} {k : κ} {a : α} (h : d.get? k = some a) : d.set k a = d := by
  obtain ⟨items, nodup⟩ := d
  have hitems : Entries.set k a items = items := Entries.set_get? h
  unfold set
  simp only [hitems]

/-- A dictionary with a key that was set is not empty. -/
theorem items_set_ne_nil : (d.set k a).items ≠ [] := by
  have hmem := (Entries.mem_keys_set k a d.items k).mpr (.inl rfl)
  intro hnil
  have hitems : Entries.set k a d.items = [] := hnil
  rw [hitems] at hmem
  cases hmem

theorem mem_items : (k, a) ∈ d.items ↔ d.get? k = some a :=
  Entries.mem_iff_get? d.nodup k a

omit [DecidableEq κ] in
theorem nodup_map_values {β : Type} (f : α → β) :
    ((d.items.map fun entry ↦ (entry.1, f entry.2)).map Prod.fst).Nodup := by
  rw [map_map]
  exact d.nodup

/-- The dictionary with each value changed. -/
def mapValues {β : Type} (d : Dict κ α) (f : α → β) : Dict κ β :=
  ⟨d.items.map fun entry ↦ (entry.1, f entry.2), d.nodup_map_values f⟩

theorem get?_mapValues {β : Type} (f : α → β) (k : κ) :
    (d.mapValues f).get? k = (d.get? k).map f :=
  Entries.get?_map_values f d.items k

omit [DecidableEq κ] in
theorem nodup_map_keys {f : κ → ν} (hf : Function.Injective f) :
    ((d.items.map fun entry ↦ (f entry.1, entry.2)).map Prod.fst).Nodup := by
  have hmap := d.nodup.map hf
  rw [map_map] at hmap ⊢
  exact hmap

/-- The dictionary with each key written in another form. -/
def mapKeys (d : Dict κ α) (f : κ → ν) (hf : Function.Injective f) : Dict ν α :=
  ⟨d.items.map fun entry ↦ (f entry.1, entry.2), d.nodup_map_keys hf⟩

/-- Each entry merged into the value that its key has. -/
def mergeAll {β : Type} (f : β → Option α → α) (d : Dict κ α) (entries : List (κ × β)) : Dict κ α :=
  entries.foldl (fun d entry ↦ d.set entry.1 (f entry.2 (d.get? entry.1))) d

/-- Entries of different keys do not meet. -/
theorem get?_mergeAll {β : Type} (f : β → Option α → α) (d : Dict κ α) {entries : List (κ × β)}
    (h : (entries.map Prod.fst).Nodup) (k : κ) : (d.mergeAll f entries).get? k
      = match Entries.get? k entries with
        | some b => some (f b (d.get? k))
        | none => d.get? k := by
  induction entries generalizing d with
  | nil => rfl
  | cons entry rest ih =>
    obtain ⟨hnot, hrest⟩ := nodup_cons.mp h
    have hstep : d.mergeAll f (entry :: rest)
        = (d.set entry.1 (f entry.2 (d.get? entry.1))).mergeAll f rest := rfl
    rw [hstep, ih _ hrest, Dict.get?_set, Entries.get?]
    by_cases hk : entry.1 = k
    · have hnone : Entries.get? k rest = none := by
        refine Option.eq_none_iff_forall_ne_some.mpr fun b hb ↦ hnot ?_
        rw [hk]
        exact mem_map_of_mem ((Entries.mem_iff_get? hrest k b).mpr hb)
      rw [if_pos hk, if_pos hk, hnone, ← hk]
    · rw [if_neg hk, if_neg hk]

end Dict

/-- A dictionary of dictionaries. -/
abbrev NestedDict (κ ν α : Type) := Dict κ (Dict ν α)

namespace NestedDict

variable [DecidableEq κ] [DecidableEq ν]

variable (d : NestedDict κ ν α)

/-- The value under two keys. -/
def find? (k : κ) (n : ν) : Option α := (d.get? k).bind (·.get? n)

/-- The value under two keys is set. -/
def setEntry (k : κ) (n : ν) (a : α) : NestedDict κ ν α :=
  d.set k (((d.get? k).getD Dict.empty).set n a)

/-- The values, outer key by outer key. -/
def values : List α :=
  d.items.flatMap fun inner ↦ inner.2.items.map Prod.snd

theorem find?_empty (k : κ) (n : ν) :
    find? (Dict.empty : NestedDict κ ν α) k n = none := rfl

variable (d : NestedDict κ ν α)

theorem find?_setEntry (k : κ) (n : ν) (a : α) (k' : κ) (n' : ν) :
    find? (setEntry d k n a) k' n' = if k = k' ∧ n = n' then some a else find? d k' n' := by
  unfold find? setEntry
  rw [Dict.get?_set]
  by_cases hk : k = k'
  · subst hk
    simp only [if_true, Option.bind_some, Dict.get?_set, true_and]
    cases d.get? k with
    | none => rfl
    | some inner => rfl
  · simp only [hk, false_and, if_false]

/-- The last of the values that were set under two keys. -/
theorem find?_foldl_setEntry {k : κ} {n : ν} (triples : List (κ × ν × α)) :
    find? (triples.foldl (fun d t ↦ setEntry d t.1 t.2.1 t.2.2) (Dict.empty : NestedDict κ ν α)) k n
      = ((triples.filter fun t ↦ t.1 = k ∧ t.2.1 = n).getLast?).map (·.2.2) := by
  induction triples using reverseRecOn with
  | nil => rfl
  | append_singleton triples t ih =>
    rw [foldl_concat, find?_setEntry, filter_append, filter_singleton, ih]
    by_cases ht : t.1 = k ∧ t.2.1 = n
    · simp [ht]
    · simp [ht]

theorem mem_values (a : α) :
    a ∈ values d ↔ ∃ k n, find? d k n = some a := by
  unfold values find?
  simp only [mem_flatMap, mem_map, Prod.exists, exists_eq_right, Dict.mem_items,
    Option.bind_eq_some_iff]
  constructor
  · rintro ⟨k, inner, hinner, n, ha⟩
    exact ⟨k, n, inner, hinner, ha⟩
  · rintro ⟨k, n, inner, hinner, ha⟩
    exact ⟨k, inner, hinner, n, ha⟩

/-- What values under different keys have to each other. -/
theorem pairwise_values {R : α → α → Prop}
    (h : ∀ k n a k' n' a', find? d k n = some a → find? d k' n' = some a' →
      (k = k' → n ≠ n') → R a a') :
    (values d).Pairwise R := by
  have hentry : ∀ inner ∈ d.items, ∀ item ∈ inner.2.items,
      find? d inner.1 item.1 = some item.2 := by
    intro inner hinner item hitem
    rw [find?, (d.mem_items inner.1 inner.2).mp hinner]
    exact (inner.2.mem_items item.1 item.2).mp hitem
  unfold values
  rw [pairwise_flatMap]
  constructor
  · intro inner hinner
    rw [pairwise_map]
    have hnodup := pairwise_map.mp inner.2.nodup
    refine hnodup.imp_of_mem ?_
    intro item item' hitem hitem' hne
    exact h _ _ _ _ _ _ (hentry inner hinner item hitem) (hentry inner hinner item' hitem')
      fun _ ↦ hne
  · have hnodup := pairwise_map.mp d.nodup
    refine hnodup.imp_of_mem ?_
    intro inner inner' hinner hinner' hne a ha b hb
    obtain ⟨item, hitem, rfl⟩ := mem_map.mp ha
    obtain ⟨item', hitem', rfl⟩ := mem_map.mp hb
    exact h _ _ _ _ _ _ (hentry inner hinner item hitem) (hentry inner' hinner' item' hitem')
      fun heq ↦ absurd heq hne

end NestedDict

end ColivingSpec.Lib

/-!
## Dictionaries with several values

A multiple dictionary lists its entries in the order in which they were added, and a key may have
several of them. Reading it as a plain dictionary keeps the first value of each key. Nothing is lost
by that only when no key has two entries.
-/

namespace ColivingSpec.Lib.MultiDict

variable {κ α : Type} [DecidableEq κ]

/-- All values of the key. -/
def getlist (k : κ) (l : List (κ × α)) : List α :=
  (l.filter fun entry ↦ decide (entry.1 = k)).map Prod.snd

/-- Each key with its first value, in the order in which the keys were first added. -/
def items : List (κ × α) → List (κ × α)
  | [] => []
  | entry :: rest => entry :: (items rest).filter fun other ↦ decide (other.1 ≠ entry.1)

theorem items_filter (p : κ → Bool) (l : List (κ × α)) :
    items (l.filter fun entry ↦ p entry.1) = (items l).filter fun entry ↦ p entry.1 := by
  induction l with
  | nil => rfl
  | cons entry rest ih =>
    by_cases hp : p entry.1 = true
    · rw [List.filter_cons, if_pos hp, items, items, List.filter_cons, if_pos hp, ih,
        List.filter_filter, List.filter_filter]
      congr 2
      ext other
      exact Bool.and_comm _ _
    · rw [List.filter_cons, if_neg hp, items, List.filter_cons, if_neg hp, ih, List.filter_filter]
      apply List.filter_congr
      intro other _
      -- an entry that passes has another key than the one that does not
      by_cases hkey : other.1 = entry.1
      · rw [hkey, Bool.eq_false_iff.mpr hp, Bool.false_and]
      · rw [decide_eq_true hkey, Bool.and_true]

variable {l : List (κ × α)}

/-- A key without a second entry is read as it is. -/
theorem items_of_nodup (h : (l.map Prod.fst).Nodup) : items l = l := by
  induction l with
  | nil => rfl
  | cons entry rest ih =>
    obtain ⟨hnot, hrest⟩ := List.nodup_cons.mp h
    rw [items, ih hrest, List.filter_eq_self.mpr]
    intro other hother
    apply decide_eq_true
    intro hkey
    exact hnot (hkey ▸ List.mem_map.mpr ⟨other, hother, rfl⟩)

/-- A further value of a key is not seen. -/
theorem items_concat_of_mem {k : κ} (a : α) (h : k ∈ l.map Prod.fst) :
    items (l ++ [(k, a)]) = items l := by
  induction l with
  | nil => cases h
  | cons entry rest ih =>
    rw [List.cons_append, items, items]
    by_cases hrest : k ∈ rest.map Prod.fst
    · rw [ih hrest]
    · have hk : k = entry.1 := (List.mem_cons.mp h).resolve_right hrest
      have hnone : ∀ l : List (κ × α), (items (l ++ [(k, a)])).filter
          (fun other ↦ decide (other.1 ≠ k)) = (items l).filter fun other ↦ decide (other.1 ≠ k) := by
        intro l
        rw [← items_filter (fun key ↦ decide (key ≠ k)), List.filter_append,
          ← items_filter (fun key ↦ decide (key ≠ k)) l]
        simp
      rw [← hk, hnone rest]

theorem getlist_concat (k : κ) (a : α) (l : List (κ × α)) :
    getlist k (l ++ [(k, a)]) = getlist k l ++ [a] := by
  simp [getlist]

theorem getlist_filter {p : κ → Bool} {k : κ} (hp : p k = true) (l : List (κ × α)) :
    getlist k (l.filter fun entry ↦ p entry.1) = getlist k l := by
  unfold getlist
  rw [List.filter_filter]
  congr 1
  apply List.filter_congr
  intro entry _
  by_cases hkey : entry.1 = k
  · rw [hkey, hp, Bool.and_true]
  · rw [decide_eq_false hkey, Bool.false_and]

/-- Without second entries the order of the keys does not matter. -/
theorem getlist_eq_of_perm {l' : List (κ × α)} (h : l.Perm l') (hl : (l.map Prod.fst).Nodup) (k : κ) :
    getlist k l = getlist k l' := by
  have hperm : (getlist k l).Perm (getlist k l') := (h.filter _).map _
  have hshort : (getlist k l).length ≤ 1 := by
    have hkeys : ((l.filter fun entry ↦ decide (entry.1 = k)).map Prod.fst).Nodup :=
      hl.sublist (List.filter_sublist.map _)
    have hall : ∀ key ∈ (l.filter fun entry ↦ decide (entry.1 = k)).map Prod.fst, key = k := by
      intro key hmem
      obtain ⟨entry, hentry, rfl⟩ := List.mem_map.mp hmem
      exact of_decide_eq_true (List.mem_filter.mp hentry).2
    have hlength := List.nodup_iff_count_le_one.mp hkeys k
    rw [List.eq_replicate_of_mem hall, List.count_replicate_self, List.length_map] at hlength
    rw [getlist, List.length_map]
    exact hlength
  cases hlist : getlist k l with
  | nil =>
    rw [hlist] at hperm
    exact (List.nil_perm.mp hperm).symm
  | cons a rest =>
    rw [hlist] at hperm hshort
    have hrest : rest = [] := by
      apply List.eq_nil_of_length_eq_zero
      rw [List.length_cons] at hshort
      omega
    rw [hrest] at hperm ⊢
    exact List.singleton_perm.mp hperm

end ColivingSpec.Lib.MultiDict
