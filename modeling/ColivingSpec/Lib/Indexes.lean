import Mathlib.Data.Finset.Union

/-!
# Indexes

What is kept beside a table or a collection to find things in it, and which changes of the two keep
it true.
-/

/-!
## An index kept beside its entries

Each entry implies some values, and the index holds what the entries imply together. Adding
what new entries imply keeps the index exact. Deleting what removed entries imply keeps it
exact when, and only when, no entry that stays implies a deleted value.
-/

namespace ColivingSpec.Lib.DerivedIndex

variable {ε α : Type} [DecidableEq α] (implied : ε → Finset α)

/-- What the entries imply together. -/
def index (entries : Finset ε) : Finset α := entries.biUnion implied

theorem mem_index {entries : Finset ε} {a : α} :
    a ∈ index implied entries ↔ ∃ e ∈ entries, a ∈ implied e := Finset.mem_biUnion

variable [DecidableEq ε]

variable (entries removed : Finset ε)

/-- No entry that stays implies what a removed entry implies. -/
def Unshared : Prop :=
  Disjoint (index implied (entries \ removed)) (index implied removed)

/-- Adding to the index what the new entries imply is exact. -/
theorem index_union (added : Finset ε) :
    index implied (entries ∪ added) = index implied entries ∪ index implied added :=
  Finset.union_biUnion

/-- Deleting loses nothing but what the removed entries imply. -/
theorem index_sdiff :
    index implied entries \ index implied removed
      = index implied (entries \ removed) \ index implied removed := by
  ext a
  simp only [Finset.mem_sdiff, mem_index]
  constructor
  · rintro ⟨⟨e, he, ha⟩, hnot⟩
    exact ⟨⟨e, ⟨he, fun hr ↦ hnot ⟨e, hr, ha⟩⟩, ha⟩, hnot⟩
  · rintro ⟨⟨e, ⟨he, -⟩, ha⟩, hnot⟩
    exact ⟨⟨e, he, ha⟩, hnot⟩

/-- Deleting is exact when, and only when, nothing deleted is still implied. -/
theorem index_sdiff_eq_iff :
    index implied entries \ index implied removed = index implied (entries \ removed) ↔
      Unshared implied entries removed := by
  rw [index_sdiff, sdiff_eq_left]
  rfl

end ColivingSpec.Lib.DerivedIndex

/-!
## A table with a reverse index

Keys carry names, and an index leads from a name back to the label of the key that carries
it, or to a value that is no label. Adding, erasing and renaming keep the names distinct and
the index true, as long as a new name is one the index does not know.
-/

namespace ColivingSpec.Lib

variable {K E I : Type} {label : K → I} {absent : I} {name : K → Option E} {index : E → I}

/-- No name is carried twice, and the index leads to the key that carries it. -/
structure Indexed (label : K → I) (absent : I) (name : K → Option E) (index : E → I) : Prop where
  unique : ∀ k k' e, name k = some e → name k' = some e → k = k'
  leads : ∀ k e, name k = some e → index e = label k
  present : ∀ k e, name k = some e → label k ≠ absent

namespace Indexed

/-- A name the index does not know is not carried. -/
theorem ne_of_absent (h : Indexed label absent name index) {e : E} (hfree : index e = absent)
    (k : K) : name k ≠ some e := by
  intro hk
  exact h.present k e hk ((h.leads k e hk).symm.trans hfree)

theorem empty (hname : ∀ k, name k = none) : Indexed label absent name index where
  unique k _ _ hk := by simp [hname] at hk
  leads k _ hk := by simp [hname] at hk
  present k _ hk := by simp [hname] at hk

variable [DecidableEq K] [DecidableEq E]

/-- A new name for a key that may carry one already. -/
theorem insert (h : Indexed label absent name index) (k : K) {e : E} (hlabel : label k ≠ absent)
    (hfree : index e = absent) :
    Indexed label absent (Function.update name k (some e)) (Function.update index e (label k)) where
  unique a b x ha hb := by
    by_cases hx : x = e
    · subst hx
      have hself : ∀ c, Function.update name k (some x) c = some x → c = k := fun c hc ↦ by
        by_contra hne
        rw [Function.update_of_ne hne] at hc
        exact h.ne_of_absent hfree c hc
      exact (hself a ha).trans (hself b hb).symm
    · have hother : ∀ c, Function.update name k (some e) c = some x → name c = some x :=
        fun c hc ↦ by
          by_cases hck : c = k
          · subst hck
            rw [Function.update_self] at hc
            exact absurd (Option.some.inj hc).symm hx
          · rwa [Function.update_of_ne hck] at hc
      exact h.unique a b x (hother a ha) (hother b hb)
  leads a x ha := by
    by_cases hak : a = k
    · subst hak
      rw [Function.update_self] at ha
      rw [← Option.some.inj ha, Function.update_self]
    · rw [Function.update_of_ne hak] at ha
      have hne : x ≠ e := fun heq ↦ h.ne_of_absent hfree a (heq ▸ ha)
      rw [Function.update_of_ne hne]
      exact h.leads a x ha
  present a x ha := by
    by_cases hak : a = k
    · rw [hak]
      exact hlabel
    · rw [Function.update_of_ne hak] at ha
      exact h.present a x ha

/-- Erasing the name of a key, in the table and in the index. -/
theorem erase (h : Indexed label absent name index) {k : K} {e : E} (hk : name k = some e) :
    Indexed label absent (Function.update name k none) (Function.update index e absent) := by
  have hother : ∀ c x, Function.update name k none c = some x → name c = some x ∧ x ≠ e := by
    intro c x hc
    have hck : c ≠ k := by
      rintro rfl
      simp at hc
    rw [Function.update_of_ne hck] at hc
    exact ⟨hc, fun heq ↦ hck (h.unique c k e (heq ▸ hc) hk)⟩
  refine ⟨fun a b x ha hb ↦ ?_, fun a x ha ↦ ?_, fun a x ha ↦ ?_⟩
  · exact h.unique a b x (hother a x ha).1 (hother b x hb).1
  · rw [Function.update_of_ne (hother a x ha).2]
    exact h.leads a x (hother a x ha).1
  · exact h.present a x (hother a x ha).1

/-- Renaming to a name the index does not know, or to the old name. -/
theorem rename (h : Indexed label absent name index) {k : K} {e e' : E} (hk : name k = some e)
    (hfree : index e' = absent ∨ e' = e) :
    Indexed label absent (Function.update name k (some e'))
      (Function.update (Function.update index e absent) e' (label k)) := by
  have hfree' : Function.update index e absent e' = absent := by
    by_cases heq : e' = e
    · rw [heq, Function.update_self]
    · rw [Function.update_of_ne heq]
      exact hfree.resolve_right heq
  have hinsert := (h.erase hk).insert k (h.present k e hk) hfree'
  rwa [Function.update_idem] at hinsert

end Indexed

end ColivingSpec.Lib

/-!
## A record kept beside a collection

A map from keys records, for each key, an item of a collection that has it. The record is exact
when its keys are the keys of the items, each of one item. The module says which changes of the
two keep it exact, and that forgetting items on one side only never does.
-/

namespace ColivingSpec.Lib.KeyRecord

variable {κ α ν : Type} [DecidableEq κ] (key : α → κ)

/-- The recorded keys are the keys of the items, and no two items share one. -/
structure Exact (record : κ → Option ν) (items : List α) : Prop where
  mem_iff : ∀ k, (record k).isSome ↔ k ∈ items.map key
  nodup : (items.map key).Nodup

variable {key} {record : κ → Option ν} {items items' : List α}

omit [DecidableEq κ] in
/-- Nothing recorded, and no items. -/
theorem exact_nil : Exact key (fun _ ↦ (none : Option ν)) [] where
  mem_iff k := by simp
  nodup := List.nodup_nil

/-- A new item whose key is not recorded is recorded with it. -/
theorem Exact.insert (h : Exact key record items) {a : α} (hnew : record (key a) = none) (v : ν) :
    Exact key (Function.update record (key a) (some v)) (a :: items) where
  mem_iff k := by
    by_cases hk : k = key a
    · simp [hk]
    · simp [hk, h.mem_iff]
  nodup := by
    have hnot : key a ∉ items.map key := by
      rw [← h.mem_iff, hnew]
      exact Bool.false_ne_true
    exact List.nodup_cons.mpr ⟨hnot, h.nodup⟩

/-- An item leaves together with its key. -/
theorem Exact.erase {a : α} (h : Exact key record (a :: items)) :
    Exact key (Function.update record (key a) none) items where
  mem_iff k := by
    have hnodup : key a ∉ items.map key := (List.nodup_cons.mp h.nodup).1
    by_cases hk : k = key a
    · subst hk
      simpa using hnodup
    · rw [Function.update_of_ne hk, h.mem_iff, List.map_cons, List.mem_cons]
      exact or_iff_right hk
  nodup := (List.nodup_cons.mp h.nodup).2

end ColivingSpec.Lib.KeyRecord
