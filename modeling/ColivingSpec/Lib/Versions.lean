import Mathlib.Data.List.Induction
import Mathlib.Data.List.Nodup
import ColivingSpec.Lib.Checked

/-!
# Versions of entities

A table that keeps every version of an entity, with a mark on the current one. A write adds a
version, and may first take the mark from the versions of the entity that were written before.
Whether one version of an entity is left with the mark can be told from the writes.
-/

namespace ColivingSpec.Lib

open List

variable {κ α τ : Type}

/-- A version of an entity. -/
structure Version (κ α : Type) where
  id : κ
  isCurrent : Bool
  data : α
  deriving DecidableEq

/-- What a write adds, and whether it demotes what was written of the entity. -/
structure Write (κ α : Type) where
  demotes : Bool
  id : κ
  data : α

namespace Version

def demote (v : Version κ α) : Version κ α := { v with isCurrent := false }

variable (v : Version κ α)

@[simp] theorem id_demote : v.demote.id = v.id := rfl

@[simp] theorem isCurrent_demote : v.demote.isCurrent = false := rfl

@[simp] theorem data_demote : v.demote.data = v.data := rfl

theorem demote_of_not_current {v : Version κ α} (h : v.isCurrent = false) : v.demote = v := by
  obtain ⟨id, isCurrent, data⟩ := v
  cases h
  rfl

variable (p : κ → Bool)

/-- Demote what meets `p`. -/
def demoteIf (v : Version κ α) : Version κ α := if p v.id then v.demote else v

@[simp] theorem id_demoteIf (v : Version κ α) : (v.demoteIf p).id = v.id := by
  unfold demoteIf
  split <;> rfl

@[simp] theorem data_demoteIf (v : Version κ α) : (v.demoteIf p).data = v.data := by
  unfold demoteIf
  split <;> rfl

end Version

namespace Write

/-- The version that is added. -/
def version (w : Write κ α) : Version κ α := ⟨w.id, true, w.data⟩

variable (w : Write κ α)

@[simp] theorem id_version : w.version.id = w.id := rfl

@[simp] theorem isCurrent_version : w.version.isCurrent = true := rfl

@[simp] theorem data_version : w.version.data = w.data := rfl

end Write

variable [DecidableEq κ]

variable (versions : List (Version κ α)) (id : κ)

/-- One write. -/
def write (w : Write κ α) : List (Version κ α) :=
  (if w.demotes then versions.map (Version.demoteIf (· = w.id)) else versions) ++ [w.version]

/-- Writes in turn. -/
def writeAll (ws : List (Write κ α)) : List (Version κ α) :=
  ws.foldl write versions

/-- The versions of an entity. -/
def versionsOf (versions : List (Version κ α)) : List (Version κ α) :=
  versions.filter fun v ↦ v.id = id

/-- The writes to an entity. -/
def writesOf (ws : List (Write κ α)) : List (Write κ α) := ws.filter fun w ↦ w.id = id

/-- The versions of an entity with the mark. -/
def currentOf (versions : List (Version κ α)) : List (Version κ α) :=
  versions.filter fun v ↦ v.isCurrent ∧ v.id = id

variable {id : κ} {versions : List (Version κ α)} {ws : List (Write κ α)} {w : Write κ α}

theorem currentOf_eq (id : κ) (versions : List (Version κ α)) :
    currentOf id versions = (versionsOf id versions).filter Version.isCurrent := by
  unfold currentOf versionsOf
  simp

variable {v : Version κ α}

theorem mem_currentOf :
    v ∈ currentOf id versions ↔ v ∈ versions ∧ v.isCurrent = true ∧ v.id = id := by
  simp [currentOf]

@[simp] theorem versionsOf_append (l l' : List (Version κ α)) :
    versionsOf id (l ++ l') = versionsOf id l ++ versionsOf id l' :=
  filter_append ..

@[simp] theorem writesOf_append (l l' : List (Write κ α)) :
    writesOf id (l ++ l') = writesOf id l ++ writesOf id l' :=
  filter_append ..

theorem versionsOf_map_demoteIf (p : κ → Bool) (id : κ) (versions : List (Version κ α)) :
    versionsOf id (versions.map (Version.demoteIf p))
      = if p id then (versionsOf id versions).map Version.demote else versionsOf id versions := by
  induction versions with
  | nil => simp [versionsOf]
  | cons v vs ih =>
    unfold versionsOf at *
    by_cases hid : v.id = id
    · subst hid
      by_cases hp : p v.id <;> simp_all [Version.demoteIf]
    · simp [hid, ih]

/-- A write changes the versions of its entity. -/
theorem versionsOf_write (id : κ) (versions : List (Version κ α)) (w : Write κ α) :
    versionsOf id (write versions w)
      = if w.id = id then write (versionsOf id versions) w else versionsOf id versions := by
  unfold write
  by_cases hid : w.id = id
  · subst hid
    cases w.demotes
    · simp [versionsOf]
    · have hmap : versionsOf w.id (versions.map (Version.demoteIf (· = w.id)))
          = (versionsOf w.id versions).map (Version.demoteIf (· = w.id)) := by
        rw [versionsOf_map_demoteIf]
        simp only [decide_true, ↓reduceIte]
        refine map_congr_left fun v hv ↦ ?_
        have hv' : v.id = w.id := by
          simpa [versionsOf] using (mem_filter.mp hv).2
        simp [Version.demoteIf, hv']
      rw [if_pos rfl, if_pos rfl, versionsOf_append, hmap]
      simp [versionsOf]
  · have hno : ¬ id = w.id := fun h ↦ hid h.symm
    cases w.demotes
    · simp [versionsOf, hid]
    · rw [if_pos rfl, versionsOf_append, versionsOf_map_demoteIf]
      simp [versionsOf, hid, hno]

/-- Only the writes to an entity change its versions. -/
theorem versionsOf_writeAll (id : κ) (versions : List (Version κ α)) (ws : List (Write κ α)) :
    versionsOf id (writeAll versions ws) = writeAll (versionsOf id versions) (writesOf id ws) := by
  induction ws generalizing versions with
  | nil => rfl
  | cons w ws ih =>
    rw [writeAll, foldl_cons, ← writeAll, ih, versionsOf_write]
    unfold writesOf
    by_cases hid : w.id = id
    · rw [if_pos hid, filter_cons_of_pos (by simpa using hid)]
      rfl
    · rw [if_neg hid, filter_cons_of_neg (by simpa using hid)]

theorem writeAll_concat (versions : List (Version κ α)) (ws : List (Write κ α)) (w : Write κ α) :
    writeAll versions (ws ++ [w]) = write (writeAll versions ws) w :=
  foldl_concat ..

/-- The version written last is the last one. -/
@[simp] theorem getLast?_write (versions : List (Version κ α)) (w : Write κ α) :
    (write versions w).getLast? = some w.version := by
  rw [write, getLast?_concat]

/-- One version of the entity is left with the mark: it was written once, or the last write demoted
the others. -/
def Settles (ws : List (Write κ α)) : Prop :=
  ∃ first w, ws = first ++ [w] ∧ (first = [] ∨ w.demotes = true)

theorem mem_writeAll_id (hws : ∀ w ∈ ws, w.id = id) (hv : v ∈ writeAll [] ws) : v.id = id := by
  induction ws using reverseRecOn generalizing v with
  | nil => cases hv
  | append_singleton ws w ih =>
    have hfirst : ∀ v ∈ writeAll [] ws, v.id = id := fun v hv ↦
      ih (fun w hw ↦ hws w (mem_append_left _ hw)) hv
    rw [writeAll_concat, write] at hv
    rcases mem_append.mp hv with hold | hnew
    · split at hold
      · obtain ⟨v', hv', rfl⟩ := mem_map.mp hold
        rw [Version.id_demoteIf]
        exact hfirst v' hv'
      · exact hfirst v hold
    · rw [mem_singleton.mp hnew]
      exact hws w (mem_append_right _ mem_cons_self)

theorem write_demotes (hversions : ∀ v ∈ versions, v.id = w.id) (hw : w.demotes = true) :
    write versions w = versions.map Version.demote ++ [w.version] := by
  rw [write, if_pos hw]
  congr 1
  refine map_congr_left fun v hv ↦ ?_
  simp [Version.demoteIf, hversions v hv]

/-- The data of the versions are what was written. -/
theorem map_data_writeAll (ws : List (Write κ α)) :
    (writeAll [] ws).map Version.data = ws.map Write.data := by
  induction ws using reverseRecOn with
  | nil => rfl
  | append_singleton ws w ih =>
    rw [writeAll_concat, write, map_append, map_append, ← ih]
    congr 1
    split
    · simp [map_map, Function.comp_def]
    · rfl

@[simp] theorem writeAll_eq_nil_iff : writeAll versions ws = [] ↔ versions = [] ∧ ws = [] := by
  induction ws using reverseRecOn with
  | nil => simp [writeAll]
  | append_singleton ws w ih => simp [writeAll_concat, write]

/-- The versions that settling writes leave: all but the last are demoted. -/
theorem writeAll_of_settles (hws : ∀ w ∈ ws, w.id = id) {first : List (Write κ α)}
    (heq : ws = first ++ [w]) (hsettles : first = [] ∨ w.demotes = true) :
    writeAll [] ws = (first.map fun w ↦ w.version.demote) ++ [w.version] := by
  subst heq
  have hid : w.id = id := hws w (mem_append_right _ mem_cons_self)
  have hfirst : ∀ w ∈ first, w.id = id := fun w hw ↦ hws w (mem_append_left _ hw)
  rw [writeAll_concat]
  rcases hsettles with rfl | hdemotes
  · unfold write
    split <;> rfl
  · rw [write_demotes (fun v hv ↦ (mem_writeAll_id hfirst hv).trans hid.symm) hdemotes]
    congr 1
    apply ext_getElem?
    intro i
    have hdata := congrArg (·[i]?) (map_data_writeAll first)
    simp only [getElem?_map] at hdata ⊢
    cases hv : (writeAll [] first)[i]? with
    | none =>
      rw [hv] at hdata
      cases hw : first[i]? with
      | none => rfl
      | some w' =>
        rw [hw] at hdata
        cases hdata
    | some v =>
      rw [hv] at hdata
      cases hw : first[i]? with
      | none =>
        rw [hw] at hdata
        cases hdata
      | some w' =>
        rw [hw] at hdata
        have hvid := mem_writeAll_id hfirst (mem_of_getElem? hv)
        have hwid := hfirst w' (mem_of_getElem? hw)
        have hvdata : v.data = w'.data := Option.some.inj hdata
        simp only [Option.map_some, Version.demote, Write.version, hvid, hwid, hvdata]

/-- Exactly settling writes leave one version with the mark. -/
theorem filter_isCurrent_writeAll_iff (hws : ∀ w ∈ ws, w.id = id) :
    (writeAll [] ws).filter Version.isCurrent = [v] ↔
      Settles ws ∧ (ws.getLast?.map Write.version) = some v := by
  induction ws using reverseRecOn with
  | nil =>
    refine iff_of_false (fun h ↦ by cases h) ?_
    rintro ⟨-, h⟩
    cases h
  | append_singleton first w =>
    rw [getLast?_concat, Option.map_some]
    constructor
    · intro h
      by_cases hsettles : first = [] ∨ w.demotes = true
      · rw [writeAll_of_settles hws rfl hsettles] at h
        have hnone : (first.map fun w ↦ w.version.demote).filter Version.isCurrent = [] := by
          simp
        rw [filter_append, hnone] at h
        exact ⟨⟨first, w, rfl, hsettles⟩, congrArg some (singleton_inj.mp h)⟩
      · -- The version written before the last one has the mark too.
        obtain ⟨hne, hkeeps⟩ := not_or.mp hsettles
        obtain ⟨before, w', rfl⟩ := (eq_nil_or_concat first).resolve_left hne
        rw [writeAll_concat, write, if_neg hkeeps, filter_append, concat_eq_append,
          writeAll_concat, write, filter_append] at h
        have hone : ∀ w : Write κ α, [w.version].filter Version.isCurrent = [w.version] :=
          fun w ↦ rfl
        have hlength := congrArg length h
        rw [hone, hone] at hlength
        simp only [length_append, length_singleton] at hlength
        omega
    · rintro ⟨⟨first', w', heq, hsettles⟩, hv⟩
      obtain ⟨rfl, hlast⟩ := append_inj' heq rfl
      obtain rfl := singleton_inj.mp hlast
      have hnone : (first.map fun w ↦ w.version.demote).filter Version.isCurrent = [] := by
        simp
      rw [writeAll_of_settles hws rfl hsettles, filter_append, hnone, ← Option.some.inj hv]
      rfl

section Saved

variable (marks : κ → Bool) (rows : List (Version κ α)) (ws : List (Write κ α))

/-- What is left of a table when entities have been demoted and versions written. -/
theorem versionsOf_saved (id : κ) :
    versionsOf id (rows.map (Version.demoteIf marks) ++ writeAll [] ws)
      = (if marks id then (versionsOf id rows).map Version.demote else versionsOf id rows)
          ++ writeAll [] (writesOf id ws) := by
  rw [versionsOf_append, versionsOf_map_demoteIf, versionsOf_writeAll]
  rfl

variable {marks rows ws}

theorem currentOf_saved (h : marks id = true) :
    currentOf id (rows.map (Version.demoteIf marks) ++ writeAll [] ws)
      = (writeAll [] (writesOf id ws)).filter Version.isCurrent := by
  rw [currentOf_eq, versionsOf_saved, if_pos h, filter_append]
  simp

theorem currentOf_saved_of_unmarked (h : marks id = false) (hws : writesOf id ws = []) :
    currentOf id (rows.map (Version.demoteIf marks) ++ writeAll [] ws) = currentOf id rows := by
  rw [currentOf_eq, versionsOf_saved, hws, h, currentOf_eq]
  simp [writeAll]

end Saved

/-- Rows have distinct keys when those of each entity have. -/
theorem nodup_map_iff_versionsOf {β : Type} [DecidableEq β] (key : Version κ α → β)
    (hkey : ∀ v v', key v = key v' → v.id = v'.id) (versions : List (Version κ α)) :
    (versions.map key).Nodup ↔ ∀ id, ((versionsOf id versions).map key).Nodup := by
  constructor
  · intro h id
    exact h.sublist (filter_sublist.map key)
  · intro h
    induction versions with
    | nil => exact nodup_nil
    | cons v vs ih =>
      rw [map_cons, nodup_cons]
      constructor
      · intro hmem
        obtain ⟨v', hv', heq⟩ := mem_map.mp hmem
        have hv := h v.id
        unfold versionsOf at hv
        rw [filter_cons_of_pos (by simp), map_cons, nodup_cons] at hv
        refine hv.1 (mem_map.mpr ⟨v', mem_filter.mpr ⟨hv', ?_⟩, heq⟩)
        simpa using hkey v' v heq
      · refine ih fun id ↦ (h id).sublist (Sublist.map key ?_)
        exact (sublist_cons_self v vs).filter _

end ColivingSpec.Lib
