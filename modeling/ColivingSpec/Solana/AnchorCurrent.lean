import ColivingSpec.Solana.AnchorInstructions

/-!
# Current rows of the data program

The indexer leaves the last version of each entity as its one current row, unless a failed
transaction names a user that no successful instruction writes, a user is created after another
instruction for it, or the batch cannot be stored as a whole.
-/

namespace ColivingSpec.AnchorRecords

open Lib List

/-! ### Versions written -/

section Written

variable {make : Entities → Parsed → Option (Lib.Write ℕ Fields)} {entities : Entities}
  {ps : List Parsed} {p : Parsed} {id : ℕ}

theorem writes_cons : entities.writes make (p :: ps)
    = (make entities p).toList ++ (entities.apply make p).writes make ps := rfl

theorem after_cons : entities.after make (p :: ps) = (entities.apply make p).after make ps := rfl

/-- The version written last is the current one. -/
theorem after_eq (id : ℕ) : entities.after make ps id
    = match (writesOf id (entities.writes make ps)).getLast? with
      | some w => some w.version
      | none => entities id := by
  induction ps generalizing entities with
  | nil => rfl
  | cons p ps ih =>
    rw [after_cons, ih, writes_cons, writesOf_append]
    unfold Entities.apply
    cases make entities p with
    | none => rfl
    | some w =>
      dsimp only [Option.toList_some, Entities.put]
      by_cases hid : w.id = id
      · have hone : writesOf id [w] = [w] := filter_cons_of_pos (by simpa using hid)
        rw [hone, singleton_append, getLast?_cons]
        cases (writesOf id (Entities.writes make (Function.update entities w.id (some w.version))
            ps)).getLast? with
        | none =>
          subst hid
          simp
        | some last => rfl
      · have hone : writesOf id [w] = [] := filter_cons_of_neg (by simpa using hid)
        rw [hone, nil_append, Function.update_of_ne (Ne.symm hid)]

theorem isSome_put {w : Lib.Write ℕ Fields} :
    (entities.put w id).isSome = true ↔ (entities id).isSome = true ∨ w.id = id := by
  unfold Entities.put
  by_cases h : id = w.id
  · rw [h, Function.update_self]
    simp
  · rw [Function.update_of_ne h]
    simp [Ne.symm h]

/-- Versions of an entity that is there demote those before them. -/
theorem demotes_of_writes (hmake : ∀ entities p w, make entities p = some w →
    w.demotes = (entities w.id).isSome) (hid : (entities id).isSome = true) :
    ∀ w ∈ writesOf id (entities.writes make ps), w.demotes = true := by
  induction ps generalizing entities with
  | nil => exact fun _ h ↦ absurd h not_mem_nil
  | cons p ps ih =>
    rw [writes_cons, writesOf_append]
    unfold Entities.apply
    cases hw : make entities p with
    | none => exact ih hid
    | some w =>
      intro w' hw'
      rcases mem_append.mp hw' with hone | hrest
      · obtain ⟨hmem, hwid⟩ := mem_filter.mp hone
        obtain rfl := mem_singleton.mp hmem
        rw [hmake _ _ _ hw, of_decide_eq_true hwid]
        exact hid
      · exact ih (isSome_put.mpr (.inl hid)) w' hrest

/-- Entities that are not created twice keep one current version. -/
theorem settles_of_writes (hmake : ∀ entities p w, make entities p = some w →
    w.demotes = (entities w.id).isSome) (hne : writesOf id (entities.writes make ps) ≠ []) :
    Settles (writesOf id (entities.writes make ps)) := by
  induction ps generalizing entities with
  | nil => exact absurd rfl hne
  | cons p ps ih =>
    rw [writes_cons, writesOf_append] at hne ⊢
    unfold Entities.apply at hne ⊢
    cases hw : make entities p with
    | none =>
      rw [hw] at hne
      exact ih hne
    | some w =>
      rw [hw] at hne
      by_cases hid : w.id = id
      · have hone : writesOf id (some w).toList = [w] :=
          filter_cons_of_pos (by simpa using hid)
        rw [hone]
        have hput : ((entities.put w) id).isSome = true := isSome_put.mpr (.inr hid)
        have hall : ∀ w' ∈ writesOf id ((entities.put w).writes make ps), w'.demotes = true :=
          demotes_of_writes hmake hput
        rcases eq_nil_or_concat (writesOf id ((entities.put w).writes make ps)) with
          hnil | ⟨first, last, hlast⟩
        · rw [hnil]
          exact ⟨[], w, rfl, .inl rfl⟩
        · refine ⟨w :: first, last, ?_, .inr (hall last ?_)⟩
          · rw [hlast, concat_eq_append]
            rfl
          · rw [hlast]
            simp
      · have hone : writesOf id (some w).toList = [] :=
          filter_cons_of_neg (by simpa using hid)
        rw [hone, nil_append] at hne ⊢
        exact ih hne

/-- A version is written by an instruction. -/
theorem exists_of_mem_writes {w : Lib.Write ℕ Fields} (hw : w ∈ entities.writes make ps) :
    ∃ p ∈ ps, ∃ entities, make entities p = some w := by
  induction ps generalizing entities with
  | nil => cases hw
  | cons p ps ih =>
    rcases mem_append.mp hw with hone | hrest
    · exact ⟨p, mem_cons_self, entities, Option.mem_toList.mp hone⟩
    · obtain ⟨q, hq, h⟩ := ih hrest
      exact ⟨q, mem_cons_of_mem _ hq, h⟩

/-- The embedded user ids do not matter where they are not read. -/
theorem writes_map_strip (hmake : ∀ entities p, make entities p.strip = make entities p) :
    entities.writes make (ps.map Parsed.strip) = entities.writes make ps := by
  induction ps generalizing entities with
  | nil => rfl
  | cons p ps ih =>
    rw [map_cons, writes_cons, writes_cons, hmake, ih]
    unfold Entities.apply
    rw [hmake]

end Written

section Users

variable {c : Config} {metadata : String → Option Metadata} {entities : Entities} {ps : List Parsed}

/-- The user that an instruction creates. -/
def Instruction.creates : Instruction → Option ℕ
  | .createUser data => some data.userId
  | _ => none

theorem digitalContentWrite_strip (p : Parsed) :
    digitalContentWrite c metadata entities p.strip
      = digitalContentWrite c metadata entities p := by
  obtain ⟨tx, instruction⟩ := p
  cases instruction <;> rfl

theorem digitalContent_of_write {p : Parsed} {w : Lib.Write ℕ Fields}
    (h : digitalContentWrite c metadata entities p = some w) :
    p.instruction.digitalContent = some w.id := by
  unfold digitalContentWrite at h
  split at h
  · next data hp =>
    rw [hp]
    split at h
    · next htype _ =>
      obtain ⟨fields, -, rfl⟩ := Option.map_eq_some_iff.mp h
      simp [Instruction.digitalContent, htype]
    · next htype _ =>
      obtain ⟨fields, -, rfl⟩ := Option.map_eq_some_iff.mp h
      simp [Instruction.digitalContent, htype]
    · cases h
  · cases h

theorem demotes_digitalContentWrite {p : Parsed} {w : Lib.Write ℕ Fields}
    (h : digitalContentWrite c metadata entities p = some w) :
    w.demotes = (entities w.id).isSome := by
  unfold digitalContentWrite at h
  split at h
  · split at h
    · next hnone =>
      obtain ⟨fields, -, rfl⟩ := Option.map_eq_some_iff.mp h
      rw [hnone]
      rfl
    · next hsome =>
      obtain ⟨fields, -, rfl⟩ := Option.map_eq_some_iff.mp h
      rw [hsome]
      rfl
    · cases h
  · cases h

/-- There is a user when there was one or it has been created. -/
theorem isSome_after_userWrite (id : ℕ) :
    (entities.after (userWrite c metadata) ps id).isSome = true ↔
      (entities id).isSome = true ∨ ∃ p ∈ ps, p.instruction.creates = some id := by
  induction ps generalizing entities with
  | nil => simp [Entities.after]
  | cons p ps ih =>
    rw [after_cons, ih]
    have hone : (entities.apply (userWrite c metadata) p id).isSome = true ↔
        (entities id).isSome = true ∨ p.instruction.creates = some id := by
      unfold Entities.apply
      cases hw : userWrite c metadata entities p with
      | none =>
        refine (or_iff_left ?_).symm
        intro hcreates
        obtain ⟨tx, instruction⟩ := p
        cases instruction <;> cases hcreates
        cases hw
      | some w =>
        rw [isSome_put]
        refine or_congr_right' fun hnone ↦ ?_
        -- A revision is of a user that is there.
        have hrevision : ∀ {userId : ℕ} {fields : Row → Fields},
            ((entities userId).map fun row ↦ (⟨true, userId, fields row⟩ : Lib.Write ℕ Fields))
              = some w → w.id ≠ id := by
          rintro userId fields h rfl
          obtain ⟨row, hrow, rfl⟩ := Option.map_eq_some_iff.mp h
          exact hnone (by rw [hrow]; rfl)
        obtain ⟨tx, instruction⟩ := p
        cases instruction with
        | initUser userId user =>
          exact iff_of_false (hrevision hw) (by simp [Instruction.creates])
        | initUserSol user userAuthority userId =>
          cases userId with
          | none => cases hw
          | some userId => exact iff_of_false (hrevision hw) (by simp [Instruction.creates])
        | createUser data =>
          cases hw
          simp [Instruction.creates]
        | manageEntity data => cases hw
        | other instructionName => cases hw
    rw [hone]
    simp only [mem_cons, exists_eq_or_imp, or_assoc]

end Users

/-! ### What is saved -/

namespace Models

variable {m : Models} {ws : List (Lib.Write ℕ Fields)}

theorem records_writeAll : (m.writeAll ws).records = Lib.writeAll m.records ws := by
  induction ws generalizing m with
  | nil => rfl
  | cons w ws ih => exact ih (m := m.write w)

theorem get_writeAll (id : ℕ) :
    (m.writeAll ws).get id = Lib.writeAll (m.get id) (writesOf id ws) := by
  induction ws generalizing m with
  | nil => rfl
  | cons w ws ih =>
    rw [writeAll, foldl_cons, ← writeAll, ih, get_write]
    unfold writesOf
    by_cases hid : w.id = id
    · rw [if_pos hid, filter_cons_of_pos (by simpa using hid)]
      rfl
    · rw [if_neg hid, filter_cons_of_neg (by simpa using hid)]

/-- The rows found are demoted with the versions that replace them. -/
theorem versionsOf_loaded_writeAll (id : ℕ) :
    versionsOf id (m.writeAll ws).loaded
      = if (writesOf id ws).any Lib.Write.demotes then (versionsOf id m.loaded).map Version.demote
        else versionsOf id m.loaded := by
  induction ws generalizing m with
  | nil => rfl
  | cons w ws ih =>
    rw [writeAll, foldl_cons, ← writeAll, ih]
    have hloaded : versionsOf id (m.write w).loaded
        = if w.id = id ∧ w.demotes = true then (versionsOf id m.loaded).map Version.demote
          else versionsOf id m.loaded := by
      unfold write
      cases hdemotes : w.demotes with
      | false => simp
      | true =>
        rw [if_pos rfl, versionsOf_map_demoteIf]
        simp [eq_comm]
    rw [hloaded]
    unfold writesOf
    by_cases hid : w.id = id
    · rw [filter_cons_of_pos (by simpa using hid), any_cons]
      cases w.demotes <;> simp [hid, Function.comp_def, Version.demote]
    · rw [filter_cons_of_neg (by simpa using hid)]
      simp [hid]

end Models

section Saved

variable {s : Schema} {rows rows' : List Row} {ws : List (Lib.Write ℕ Fields)} {marks : ℕ → Bool}
  {id : ℕ}

/-- A stored table holds only what is accepted, under distinct keys. -/
theorem saveRows_eq_ok : saveRows s rows (Lib.writeAll [] ws) = .ok rows' ↔
    (∀ w ∈ ws, s.accepts w.data.columns = true) ∧
      ((rows ++ Lib.writeAll [] ws).map key).Nodup ∧ rows ++ Lib.writeAll [] ws = rows' := by
  unfold saveRows
  rw [require_bind_eq_ok, require_bind_eq_ok, pure_eq_ok]
  refine and_congr_left' ?_
  have hdata := map_data_writeAll ws
  constructor
  · intro h w hw
    have hmem : w.data ∈ (Lib.writeAll [] ws).map Version.data := by
      rw [hdata]
      exact mem_map_of_mem hw
    obtain ⟨row, hrow, heq⟩ := mem_map.mp hmem
    rw [← heq]
    exact h row hrow
  · intro h row hrow
    have hmem : row.data ∈ ws.map Lib.Write.data := by
      rw [← hdata]
      exact mem_map_of_mem hrow
    obtain ⟨w, hw, heq⟩ := mem_map.mp hmem
    rw [← heq]
    exact h w hw

theorem id_of_mem_writesOf : ∀ w ∈ writesOf id ws, w.id = id := fun _ hw ↦
  of_decide_eq_true (mem_filter.mp hw).2

theorem id_of_mem_versionsOf : ∀ row ∈ versionsOf id rows, row.id = id := fun _ hrow ↦
  of_decide_eq_true (mem_filter.mp hrow).2

/-- The keys of the versions of an entity with one current version. -/
theorem nodup_keys_of_settles (hsettles : Settles (writesOf id ws)) :
    (((versionsOf id rows).map Version.demote ++ Lib.writeAll [] (writesOf id ws)).map key).Nodup ↔
      DistinctVersions rows ws id := by
  obtain ⟨first, w, heq, hlast⟩ := hsettles
  have hids : ∀ w' ∈ first, w'.id = id := fun w' hw' ↦
    id_of_mem_writesOf w' (heq ▸ mem_append_left _ hw')
  have hkeys : ((versionsOf id rows).map Version.demote ++
      Lib.writeAll [] (writesOf id ws)).map key
        = ((versionsOf id rows).map (fun row ↦ row.data.txhash) ++
            first.map fun w ↦ w.data.txhash).map (fun txhash ↦ (false, id, txhash))
          ++ [(true, w.id, w.data.txhash)] := by
    rw [writeAll_of_settles id_of_mem_writesOf heq hlast]
    simp only [map_append, map_map, ← append_assoc, map_cons, map_nil]
    congr 2
    · refine map_congr_left fun row hrow ↦ ?_
      simp [key, id_of_mem_versionsOf row hrow]
    · refine map_congr_left fun w' hw' ↦ ?_
      simp [key, hids w' hw']
  rw [hkeys, nodup_append_comm, singleton_append, nodup_cons, DistinctVersions, heq,
    dropLast_concat]
  refine (and_iff_right ?_).trans (nodup_map_iff fun txhash txhash' h ↦ ?_)
  · simp
  · simpa using h

/-- Keys are distinct when those of the versions of each entity that is marked are. -/
theorem nodup_saved_iff (hkeys : (rows.map key).Nodup)
    (hmarks : ∀ id, writesOf id ws ≠ [] → marks id = true)
    (hsettles : ∀ id, marks id = true → Settles (writesOf id ws)) :
    ((rows.map (Version.demoteIf marks) ++ Lib.writeAll [] ws).map key).Nodup ↔
      ∀ id, marks id = true → DistinctVersions rows ws id := by
  have hid : ∀ row row' : Row, key row = key row' → row.id = row'.id := fun row row' h ↦
    congrArg (fun k ↦ k.2.1) h
  rw [nodup_map_iff_versionsOf key hid]
  refine forall_congr' fun id ↦ ?_
  rw [versionsOf_saved]
  cases hmark : marks id with
  | true =>
    rw [if_pos rfl, nodup_keys_of_settles (hsettles id hmark)]
    simp
  | false =>
    have hnil : writesOf id ws = [] := by
      by_contra hne
      rw [hmarks id hne] at hmark
      cases hmark
    have hrows := (nodup_map_iff_versionsOf key hid rows).mp hkeys id
    rw [hnil]
    simpa [Lib.writeAll] using hrows

variable {make : Entities → Parsed → Option (Lib.Write ℕ Fields)} {ps : List Parsed} {row : Row}

/-- The one current row of an entity is its version after the instructions, if the writes to it
settle. -/
theorem currentOf_saved_iff (hone : ∀ id, (currentOf id rows).length ≤ 1)
    (hws : ws = (stored rows).writes make ps)
    (hmarks : ∀ id, writesOf id ws ≠ [] → marks id = true)
    (hafter : ((stored rows).after make ps id).isSome = true) :
    currentOf id (rows.map (Version.demoteIf marks) ++ Lib.writeAll [] ws) = [row] ↔
      (marks id = true → Settles (writesOf id ws)) ∧
        (stored rows).after make ps id = some row := by
  rw [after_eq, ← hws] at hafter ⊢
  cases hmark : marks id with
  | true =>
    rw [currentOf_saved hmark, filter_isCurrent_writeAll_iff id_of_mem_writesOf]
    simp only [forall_const]
    refine and_congr_right fun ⟨first, w, heq, _⟩ ↦ ?_
    rw [heq, getLast?_concat]
    rfl
  | false =>
    have hnil : writesOf id ws = [] := by
      by_contra hne
      rw [hmarks id hne] at hmark
      cases hmark
    rw [currentOf_saved_of_unmarked hmark hnil, hnil]
    rw [hnil] at hafter
    simp only [getLast?_nil, stored, Bool.false_eq_true, false_implies, true_and] at hafter ⊢
    obtain ⟨row', hrow'⟩ := Option.isSome_iff_exists.mp hafter
    rw [Models.eq_toList_head? (hone id), hrow']
    simp

/-- Before rows are demoted, the key of a new current one may be that of an old one. -/
theorem nodup_unflushed_iff (hkeys : (rows.map key).Nodup)
    (hsettles : ∀ id, writesOf id ws ≠ [] → Settles (writesOf id ws))
    (hdistinct : ∀ id, writesOf id ws ≠ [] → DistinctVersions rows ws id) :
    ((rows ++ Lib.writeAll [] ws).map key).Nodup ↔
      ∀ row ∈ rows, row.isCurrent = true → ∀ w ∈ ws, w.id = row.id →
        w.data.txhash ≠ row.data.txhash := by
  have hid : ∀ row row' : Row, key row = key row' → row.id = row'.id := fun row row' h ↦
    congrArg (fun k ↦ k.2.1) h
  have hone : ∀ id, writesOf id ws ≠ [] →
      (((versionsOf id rows ++ Lib.writeAll [] (writesOf id ws)).map key).Nodup ↔
        ∀ row ∈ versionsOf id rows, row.isCurrent = true → ∀ w ∈ writesOf id ws,
          w.data.txhash ≠ row.data.txhash) := by
    intro id hne
    have hd := hdistinct id hne
    have hnew := (nodup_keys_of_settles (hsettles id hne)).mpr hd
    obtain ⟨first, last, heq, hlast⟩ := hsettles id hne
    rw [map_append, nodup_append] at hnew
    rw [DistinctVersions, heq, dropLast_concat, nodup_append] at hd
    rw [map_append, nodup_append,
      and_iff_right ((nodup_map_iff_versionsOf key hid rows).mp hkeys id),
      and_iff_right hnew.2.1, writeAll_of_settles id_of_mem_writesOf heq hlast, heq]
    have hlastId : last.id = id := id_of_mem_writesOf last
      (heq ▸ mem_append_right _ mem_cons_self)
    constructor
    · intro h row hrow hcurrent w hw heqTx
      rcases mem_append.mp hw with hfirst | hw
      · exact hd.2.2 _ (mem_map_of_mem hrow) _ (mem_map_of_mem hfirst) heqTx.symm
      · obtain rfl := mem_singleton.mp hw
        refine h (key row) (mem_map_of_mem hrow) (key w.version)
          (mem_map_of_mem (mem_append_right _ mem_cons_self)) ?_
        simp [key, hcurrent, heqTx, hlastId, id_of_mem_versionsOf row hrow]
    · rintro h a ha b hb rfl
      obtain ⟨row, hrow, rfl⟩ := mem_map.mp ha
      obtain ⟨v, hv, hkey⟩ := mem_map.mp hb
      have htx : v.data.txhash = row.data.txhash := congrArg (fun k ↦ k.2.2) hkey
      rcases mem_append.mp hv with hfirst | hv
      · obtain ⟨w, hw, rfl⟩ := mem_map.mp hfirst
        exact hd.2.2 _ (mem_map_of_mem hrow) _ (mem_map_of_mem hw) htx.symm
      · obtain rfl := mem_singleton.mp hv
        have hcurrent : row.isCurrent = true := (congrArg Prod.fst hkey).symm
        exact h row hrow hcurrent last (mem_append_right _ mem_cons_self) htx
  have hversions : ∀ id, versionsOf id (rows ++ Lib.writeAll [] ws)
      = versionsOf id rows ++ Lib.writeAll [] (writesOf id ws) := fun id ↦ by
    rw [versionsOf_append, versionsOf_writeAll]
    rfl
  rw [nodup_map_iff_versionsOf key hid]
  simp only [hversions]
  constructor
  · intro h row hrow hcurrent w hw hwid
    have hmem : w ∈ writesOf row.id ws := mem_filter.mpr ⟨hw, decide_eq_true hwid⟩
    exact (hone row.id (ne_nil_of_mem hmem)).mp (h row.id) row
      (mem_filter.mpr ⟨hrow, decide_eq_true rfl⟩) hcurrent w hmem
  · intro h id
    by_cases hne : writesOf id ws = []
    · rw [hne]
      simpa [Lib.writeAll] using (nodup_map_iff_versionsOf key hid rows).mp hkeys id
    · refine (hone id hne).mpr fun row hrow hcurrent w hw ↦ ?_
      have hwid : w.id = row.id :=
        (id_of_mem_writesOf w hw).trans (id_of_mem_versionsOf row hrow).symm
      exact h row (mem_filter.mp hrow).1 hcurrent w (mem_filter.mp hw).1 hwid

end Saved

/-! ### The batch -/

section Batch

variable {c : Config} {metadata : String → Option Metadata} {db : Database}
  {batch : List ParsedTx}

/-- The ids collected in a batch. -/
def namedUsers (db : Database) (batch : List ParsedTx) : List ℕ :=
  collect Instruction.revises (indexed db batch)

def namedDigitalContents (db : Database) (batch : List ParsedTx) : List ℕ :=
  collect Instruction.digitalContent (indexed db batch)

theorem mem_collect {of : Instruction → Option ℕ} {ps : List Parsed} {id : ℕ} :
    id ∈ collect of ps ↔ ∃ p ∈ ps, of p.instruction = some id := by
  simp [collect]

/-- The models after the handlers have run. -/
def savedUsers (c : Config) (metadata : String → Option Metadata) (db : Database)
    (batch : List ParsedTx) : Models :=
  Models.writeAll ⟨load db.users (namedUsers db batch), []⟩ (userWrites c metadata db batch)

def savedDigitalContents (c : Config) (metadata : String → Option Metadata) (db : Database)
    (batch : List ParsedTx) : Models :=
  Models.writeAll ⟨load db.digitalContents (namedDigitalContents db batch), []⟩
    (digitalContentWrites c metadata db batch)

/-- The users with records are the ones that are touched. -/
theorem get_savedUsers_ne_nil_iff (hdb : db.Valid) (id : ℕ) :
    (savedUsers c metadata db batch).get id ≠ [] ↔ Touched c metadata db batch id := by
  have hfound : Models.get ⟨load db.users (namedUsers db batch), []⟩ id ≠ [] ↔
      (stored db.users id).isSome = true ∧
        ∃ p ∈ indexed db batch, p.instruction.revises = some id := by
    unfold Models.get stored
    rw [append_nil, Models.versionsOf_load hdb.users, ← mem_collect, ← namedUsers]
    split
    · next hnamed =>
      rw [and_iff_left hnamed]
      cases currentOf id db.users <;> simp
    · next hnamed => simp [hnamed]
  rw [savedUsers, Models.get_writeAll, Ne, writeAll_eq_nil_iff, not_and_or]
  exact or_congr_left hfound

/-- Only current rows have a mark to lose. -/
theorem map_demoteIf_current {rows : List Row} {p marks : ℕ → Bool}
    (h : ∀ row ∈ rows, row.isCurrent = true → p row.id = marks row.id) :
    (rows.map fun row ↦ row.demoteIf fun id ↦ row.isCurrent && p id)
      = rows.map (Version.demoteIf marks) := by
  refine map_congr_left fun row hrow ↦ ?_
  unfold Version.demoteIf
  cases hcurrent : row.isCurrent with
  | true => simp only [Bool.true_and, h row hrow hcurrent]
  | false => simp [Version.demote_of_not_current hcurrent]

theorem invalidateOldRecords_eq (users : List Row) (m : Models) :
    invalidateOldRecords users m = users.map (Version.demoteIf fun id ↦ !(m.get id).isEmpty) :=
  map_demoteIf_current fun _ _ _ ↦ rfl

/-- The digital contents that are written are demoted in the database. -/
theorem demoted_digitalContents (hdb : db.Valid) :
    (db.digitalContents.map fun row ↦ row.demoteIf fun id ↦ row.isCurrent &&
        (versionsOf id (savedDigitalContents c metadata db batch).loaded).any fun other ↦
          !other.isCurrent)
      = db.digitalContents.map (Version.demoteIf fun id ↦
          !(writesOf id (digitalContentWrites c metadata db batch)).isEmpty) := by
  refine map_demoteIf_current fun row hrow hcurrent ↦ ?_
  have hmem : row ∈ currentOf row.id db.digitalContents := mem_currentOf.mpr ⟨hrow, hcurrent, rfl⟩
  have hstored : (stored db.digitalContents row.id).isSome = true := by
    unfold stored
    cases hnil : currentOf row.id db.digitalContents with
    | nil =>
      rw [hnil] at hmem
      cases hmem
    | cons => rfl
  rw [savedDigitalContents, Models.versionsOf_loaded_writeAll,
    Models.versionsOf_load hdb.digitalContents]
  by_cases hnil : writesOf row.id (digitalContentWrites c metadata db batch) = []
  · have hall : ∀ v ∈ (if row.id ∈ namedDigitalContents db batch then
        currentOf row.id db.digitalContents else []), v.isCurrent = true := by
      intro v hv
      split at hv
      · exact (mem_currentOf.mp hv).2.1
      · cases hv
    rw [hnil, any_nil, if_neg Bool.false_ne_true]
    simpa using hall
  · obtain ⟨w, hw⟩ := exists_mem_of_ne_nil _ hnil
    have hdemotes : w.demotes = true :=
      demotes_of_writes (fun _ _ _ ↦ demotes_digitalContentWrite) hstored w hw
    have hnamed : row.id ∈ namedDigitalContents db batch := by
      obtain ⟨hmem, hid⟩ := mem_filter.mp hw
      obtain ⟨p, hp, entities, hmake⟩ := exists_of_mem_writes hmem
      refine mem_collect.mpr ⟨p, (mem_filter.mp hp).1, ?_⟩
      rw [digitalContent_of_write hmake, of_decide_eq_true hid]
    have hany : (writesOf row.id (digitalContentWrites c metadata db batch)).any Lib.Write.demotes
        = true := any_eq_true.mpr ⟨w, hw, hdemotes⟩
    rw [if_pos hany, if_pos hnamed]
    have hdemoted : ((currentOf row.id db.digitalContents).map Version.demote).any
        (fun other ↦ !other.isCurrent) = true :=
      any_eq_true.mpr ⟨_, mem_map_of_mem hmem, rfl⟩
    rw [hdemoted]
    simp [hnil]

/-- What `extract_ids` finds in a batch. -/
theorem extractIds_indexed {ids : EntityIds} {parsed : List Parsed}
    (h : extractIds db.users ⟨[], [], fun _ ↦ none⟩ (instructionsOf batch) = .ok (ids, parsed)) :
    parsed = indexed db batch ∧ (∀ p ∈ indexed db batch, p.HasUserId) ∧
      ids.users = namedUsers db batch ∧ ids.digitalContents = namedDigitalContents db batch := by
  obtain ⟨rfl, hids, husers, hcontents⟩ := extractIds_eq_ok h
  exact ⟨rfl, hids, husers, hcontents⟩

/-- The handlers on the rows that were looked up. -/
theorem processTransactions_indexed (hdb : db.Valid) (hids : ∀ p ∈ indexed db batch, p.HasUserId)
    {m : DbModels} :
    processTransactions c metadata
        ⟨⟨load db.users (namedUsers db batch), []⟩,
          ⟨load db.digitalContents (namedDigitalContents db batch), []⟩⟩ (indexed db batch)
        = .ok m ↔
      ((stored db.users).Throughout (userWrite c metadata) UserServed
          (successful (indexed db batch)) ∧
        (stored db.digitalContents).Throughout (digitalContentWrite c metadata)
          (DigitalContentServed metadata) (successful (indexed db batch))) ∧
        m = ⟨savedUsers c metadata db batch, savedDigitalContents c metadata db batch⟩ :=
  processTransactions_eq_ok (Models.tracks_load hdb.users) (Models.tracks_load hdb.digitalContents)
    hids (fun p hp _ hid ↦ mem_collect.mpr ⟨p, hp, hid⟩)
    (fun p hp _ hid ↦ mem_collect.mpr ⟨p, hp, hid⟩)

theorem records_savedUsers : (savedUsers c metadata db batch).records
    = Lib.writeAll [] (userWrites c metadata db batch) := Models.records_writeAll

theorem records_savedDigitalContents : (savedDigitalContents c metadata db batch).records
    = Lib.writeAll [] (digitalContentWrites c metadata db batch) := Models.records_writeAll

/-- What a batch that is stored amounts to. -/
theorem validateAndSave_eq_ok (hdb : db.Valid) {db' : Database} :
    validateAndSaveParsedTxRecords c db batch metadata = .ok db' ↔
      ((db.colivingDataTxs.map Prod.fst ++ batch.map ParsedTx.txSig).Nodup ∧
        (∀ p ∈ indexed db batch, p.HasUserId) ∧
          (stored db.users).Throughout (userWrite c metadata) UserServed
            (successful (indexed db batch)) ∧
            (stored db.digitalContents).Throughout (digitalContentWrite c metadata)
              (DigitalContentServed metadata) (successful (indexed db batch))) ∧
        ∃ users digitalContents,
          saveRows c.user (invalidateOldRecords db.users (savedUsers c metadata db batch))
              (savedUsers c metadata db batch).records = .ok users ∧
            saveDigitalContents c.digitalContent db.digitalContents
                (savedDigitalContents c metadata db batch)
                (!((savedUsers c metadata db batch).loaded ++
                  (savedUsers c metadata db batch).records).isEmpty) = .ok digitalContents ∧
              ⟨users, digitalContents,
                db.colivingDataTxs ++ batch.map fun tx ↦ (tx.txSig, tx.slot)⟩ = db' := by
  have htxs : (db.colivingDataTxs ++ batch.map fun tx ↦ (tx.txSig, tx.slot)).map Prod.fst
      = db.colivingDataTxs.map Prod.fst ++ batch.map ParsedTx.txSig := by
    rw [map_append, map_map]
    rfl
  unfold validateAndSaveParsedTxRecords
  rw [require_bind_eq_ok, htxs, and_assoc]
  refine and_congr_right fun _ ↦ ?_
  rw [bind_eq_ok]
  constructor
  · rintro ⟨⟨ids, parsed⟩, hextract, h⟩
    obtain ⟨rfl, hids, husers, hcontents⟩ := extractIds_indexed hextract
    dsimp only at h
    rw [husers, hcontents, bind_eq_ok] at h
    obtain ⟨m, hm, h⟩ := h
    obtain ⟨hserved, rfl⟩ := (processTransactions_indexed hdb hids).mp hm
    simp only [bind_eq_ok, pure_eq_ok] at h
    obtain ⟨users, hsave, digitalContents, hsave', h⟩ := h
    exact ⟨⟨hids, hserved⟩, users, digitalContents, hsave, hsave', h⟩
  · rintro ⟨⟨hids, hserved⟩, users, digitalContents, hsave, hsave', h⟩
    obtain ⟨⟨ids, parsed⟩, hextract⟩ : Succeeds
        (extractIds db.users ⟨[], [], fun _ ↦ none⟩ (instructionsOf batch)) :=
      extractIds_succeeds hids
    obtain ⟨rfl, -, husers, hcontents⟩ := extractIds_indexed hextract
    refine ⟨_, hextract, ?_⟩
    dsimp only
    rw [husers, hcontents, bind_eq_ok]
    refine ⟨_, (processTransactions_indexed hdb hids).mpr ⟨hserved, rfl⟩, ?_⟩
    simp only [bind_eq_ok, pure_eq_ok]
    exact ⟨users, hsave, digitalContents, hsave', h⟩

/-- Both readings of a batch create the same users. -/
theorem isSome_usersMeant (id : ℕ) :
    ((stored db.users).after (userWrite c metadata) (successful (indexed db batch)) id).isSome
      = true ↔ (usersMeant c metadata db batch id).isSome = true := by
  have hcreates : ∀ ps : List Parsed, (∃ p ∈ ps, p.instruction.creates = some id) ↔
      ∃ q ∈ ps.map Parsed.strip, q.instruction.creates = some id := by
    intro ps
    have hstrip : ∀ p : Parsed, p.strip.instruction.creates = p.instruction.creates := by
      rintro ⟨tx, instruction⟩
      cases instruction <;> rfl
    simp [hstrip]
  rw [usersMeant, isSome_after_userWrite, isSome_after_userWrite, hcreates, map_strip_indexed,
    ← hcreates]

/-- Both readings of a batch mean the same for digital contents. -/
theorem digitalContentsMeant_eq : digitalContentsMeant c metadata db batch
    = (stored db.digitalContents).after (digitalContentWrite c metadata)
        (successful (indexed db batch)) := by
  have hstrip : ∀ ps, (stored db.digitalContents).writes (digitalContentWrite c metadata)
      (ps.map Parsed.strip)
        = (stored db.digitalContents).writes (digitalContentWrite c metadata) ps :=
    fun _ ↦ writes_map_strip fun _ _ ↦ digitalContentWrite_strip _
  funext id
  rw [digitalContentsMeant, after_eq, after_eq, ← hstrip, ← map_strip_indexed, hstrip]

/-- The mark of the users that are demoted. -/
def touches (c : Config) (metadata : String → Option Metadata) (db : Database)
    (batch : List ParsedTx) (id : ℕ) : Bool :=
  !((savedUsers c metadata db batch).get id).isEmpty

theorem touches_iff (hdb : db.Valid) (id : ℕ) :
    touches c metadata db batch id = true ↔ Touched c metadata db batch id := by
  rw [← get_savedUsers_ne_nil_iff hdb, touches]
  simp

theorem touches_of_writesOf (hdb : db.Valid) (id : ℕ)
    (h : writesOf id (userWrites c metadata db batch) ≠ []) :
    touches c metadata db batch id = true := (touches_iff hdb id).mpr (.inr h)

/-- One current row of each user is left when the writes to the users settle. -/
theorem users_current_iff (hdb : db.Valid) :
    (∀ id row, usersMeant c metadata db batch id = some row →
      currentOf id (db.users.map (Version.demoteIf (touches c metadata db batch)) ++
        Lib.writeAll [] (userWrites c metadata db batch)) = [row]) ↔
      (∀ id, Touched c metadata db batch id →
        Settles (writesOf id (userWrites c metadata db batch))) ∧
        ∀ id, (stored db.users).after (userWrite c metadata) (successful (indexed db batch)) id
          = usersMeant c metadata db batch id := by
  have hcurrent : ∀ {id row}, ((stored db.users).after (userWrite c metadata)
      (successful (indexed db batch)) id).isSome = true →
        (currentOf id (db.users.map (Version.demoteIf (touches c metadata db batch)) ++
            Lib.writeAll [] (userWrites c metadata db batch)) = [row] ↔
          (touches c metadata db batch id = true →
            Settles (writesOf id (userWrites c metadata db batch))) ∧
            (stored db.users).after (userWrite c metadata) (successful (indexed db batch)) id
              = some row) := fun hsome ↦
    currentOf_saved_iff hdb.users rfl (touches_of_writesOf hdb) hsome
  constructor
  · intro h
    have hkept : ∀ id, ((stored db.users).after (userWrite c metadata)
        (successful (indexed db batch)) id).isSome = true →
          (touches c metadata db batch id = true →
            Settles (writesOf id (userWrites c metadata db batch))) ∧
            (stored db.users).after (userWrite c metadata) (successful (indexed db batch)) id
              = usersMeant c metadata db batch id := by
      intro id hsome
      obtain ⟨row, hrow⟩ := Option.isSome_iff_exists.mp ((isSome_usersMeant id).mp hsome)
      rw [hrow]
      exact (hcurrent hsome).mp (h id row hrow)
    constructor
    · intro id htouched
      refine (hkept id ?_).1 ((touches_iff hdb id).mpr htouched)
      rcases htouched with ⟨hstored, -⟩ | hwritten
      · exact (isSome_after_userWrite id).mpr (.inl hstored)
      · rw [after_eq]
        obtain ⟨w, hw⟩ := getLast?_isSome.mpr hwritten |> Option.isSome_iff_exists.mp
        rw [userWrites] at hw
        rw [hw]
        rfl
    · intro id
      cases hafter : (stored db.users).after (userWrite c metadata)
          (successful (indexed db batch)) id with
      | some row =>
        rw [← hafter]
        exact (hkept id (by rw [hafter]; rfl)).2
      | none =>
        cases hmeant : usersMeant c metadata db batch id with
        | none => rfl
        | some row =>
          have hsome := (isSome_usersMeant id).mpr (by rw [hmeant]; rfl)
          rw [hafter] at hsome
          cases hsome
  · rintro ⟨hsettles, howners⟩ id row hrow
    have hafter := (howners id).trans hrow
    refine (hcurrent (by rw [hafter]; rfl)).mpr ⟨fun htouched ↦ ?_, hafter⟩
    exact hsettles id ((touches_iff hdb id).mp htouched)

/-- One current row of each digital content is left by a batch that is stored. -/
theorem digitalContents_current (hdb : db.Valid) {id : ℕ} {row : Row}
    (hrow : digitalContentsMeant c metadata db batch id = some row) :
    currentOf id (db.digitalContents.map (Version.demoteIf fun id ↦
        !(writesOf id (digitalContentWrites c metadata db batch)).isEmpty) ++
      Lib.writeAll [] (digitalContentWrites c metadata db batch)) = [row] := by
  rw [digitalContentsMeant_eq] at hrow
  refine (currentOf_saved_iff hdb.digitalContents
    (rfl : digitalContentWrites c metadata db batch = _) (fun id hne ↦ by simpa using hne)
      (by rw [hrow]; rfl)).mpr ⟨fun hwritten ↦ ?_, hrow⟩
  have hne : writesOf id (digitalContentWrites c metadata db batch) ≠ [] := by
    simpa using hwritten
  exact settles_of_writes (fun _ _ _ ↦ demotes_digitalContentWrite) hne

/-- When the new versions of users can be stored. -/
theorem saveUsers_iff (hdb : db.Valid) (hsettles : ∀ id, Touched c metadata db batch id →
      Settles (writesOf id (userWrites c metadata db batch))) {users : List Row} :
    saveRows c.user (invalidateOldRecords db.users (savedUsers c metadata db batch))
        (savedUsers c metadata db batch).records = .ok users ↔
      (∀ w ∈ userWrites c metadata db batch, c.user.accepts w.data.columns = true) ∧
        (∀ id, Touched c metadata db batch id →
          DistinctVersions db.users (userWrites c metadata db batch) id) ∧
          db.users.map (Version.demoteIf (touches c metadata db batch)) ++
            Lib.writeAll [] (userWrites c metadata db batch) = users := by
  rw [invalidateOldRecords_eq, records_savedUsers, saveRows_eq_ok]
  refine and_congr_right fun _ ↦ and_congr_left fun _ ↦ ?_
  refine (nodup_saved_iff hdb.userKeys (touches_of_writesOf hdb) fun id htouched ↦
    hsettles id ((touches_iff hdb id).mp htouched)).trans (forall_congr' fun id ↦ ?_)
  exact imp_congr_left (touches_iff hdb id)

/-- When the new versions of digital contents can be stored. -/
theorem saveDigitalContents_iff (hdb : db.Valid) {digitalContents : List Row} :
    saveDigitalContents c.digitalContent db.digitalContents
        (savedDigitalContents c metadata db batch) (!((savedUsers c metadata db batch).loaded ++
          (savedUsers c metadata db batch).records).isEmpty) = .ok digitalContents ↔
      ((∃ id, Touched c metadata db batch id) ∨
        ∀ row ∈ db.digitalContents, row.isCurrent = true →
          ∀ w ∈ digitalContentWrites c metadata db batch, w.id = row.id →
            w.data.txhash ≠ row.data.txhash) ∧
        (∀ w ∈ digitalContentWrites c metadata db batch,
          c.digitalContent.accepts w.data.columns = true) ∧
          (∀ id, writesOf id (digitalContentWrites c metadata db batch) ≠ [] →
            DistinctVersions db.digitalContents (digitalContentWrites c metadata db batch) id) ∧
            db.digitalContents.map (Version.demoteIf fun id ↦
                !(writesOf id (digitalContentWrites c metadata db batch)).isEmpty) ++
              Lib.writeAll [] (digitalContentWrites c metadata db batch) = digitalContents := by
  have hsettles : ∀ id, writesOf id (digitalContentWrites c metadata db batch) ≠ [] →
      Settles (writesOf id (digitalContentWrites c metadata db batch)) := fun id hne ↦
    settles_of_writes (fun _ _ _ ↦ demotes_digitalContentWrite) hne
  have hflushed : (!((savedUsers c metadata db batch).loaded ++
      (savedUsers c metadata db batch).records).isEmpty) = true ↔
        ∃ id, Touched c metadata db batch id := by
    simp only [← get_savedUsers_ne_nil_iff hdb, Models.get]
    constructor
    · intro h
      rw [Bool.not_eq_true', isEmpty_eq_false_iff] at h
      obtain ⟨row, hrow⟩ := exists_mem_of_ne_nil _ h
      exact ⟨row.id, ne_nil_of_mem (mem_filter.mpr ⟨hrow, decide_eq_true rfl⟩)⟩
    · rintro ⟨id, hne⟩
      obtain ⟨row, hrow⟩ := exists_mem_of_ne_nil _ hne
      rw [Bool.not_eq_true', isEmpty_eq_false_iff]
      exact ne_nil_of_mem (mem_filter.mp hrow).1
  unfold saveDigitalContents
  rw [require_bind_eq_ok, demoted_digitalContents hdb, records_savedDigitalContents, saveRows_eq_ok,
    nodup_saved_iff hdb.digitalContentKeys (fun id hne ↦ by simpa using hne)
      (fun id hne ↦ hsettles id (by simpa using hne)), hflushed]
  have hmarked : ∀ id, (!(writesOf id (digitalContentWrites c metadata db batch)).isEmpty) = true ↔
      writesOf id (digitalContentWrites c metadata db batch) ≠ [] := fun id ↦ by simp
  simp only [hmarked]
  constructor
  · rintro ⟨hunflushed, haccepted, hdistinct, heq⟩
    exact ⟨hunflushed.imp_right
      (nodup_unflushed_iff hdb.digitalContentKeys hsettles hdistinct).mp, haccepted, hdistinct, heq⟩
  · rintro ⟨hunflushed, haccepted, hdistinct, heq⟩
    exact ⟨hunflushed.imp_right
      (nodup_unflushed_iff hdb.digitalContentKeys hsettles hdistinct).mpr, haccepted, hdistinct,
      heq⟩

end Batch

/-- A batch is stored with one current row of each entity, and the fields that its successful
instructions give it, when it is regular. -/
theorem keepsOneCurrentRow_iff (c : Config) (metadata : String → Option Metadata) (db : Database)
    (batch : List ParsedTx) (hdb : db.Valid) :
    KeepsOneCurrentRow c metadata db batch ↔ Regular c metadata db batch := by
  constructor
  · rintro ⟨db', hok, husers, hcontents⟩
    obtain ⟨⟨hsignatures, hids, hserved, hserved'⟩, users, digitalContents, hsave, hsave', rfl⟩ :=
      (validateAndSave_eq_ok hdb).mp hok
    have hstored : db.users.map (Version.demoteIf (touches c metadata db batch)) ++
        Lib.writeAll [] (userWrites c metadata db batch) = users := by
      rw [invalidateOldRecords_eq, records_savedUsers, saveRows_eq_ok] at hsave
      exact hsave.2.2
    rw [← hstored] at husers
    obtain ⟨hsettles, howners⟩ := (users_current_iff hdb).mp husers
    obtain ⟨haccepted, hdistinct, -⟩ := (saveUsers_iff hdb hsettles).mp hsave
    obtain ⟨hflushed, haccepted', hdistinct', -⟩ := (saveDigitalContents_iff hdb).mp hsave'
    exact ⟨hsignatures, hids, hserved, hserved', haccepted, haccepted', hdistinct, hdistinct',
      hflushed, hsettles, howners⟩
  · intro h
    have hsave := (saveUsers_iff hdb h.settled).mpr ⟨h.usersAccepted, h.userVersions, rfl⟩
    have hsave' := (saveDigitalContents_iff hdb).mpr
      ⟨h.flushed, h.digitalContentsAccepted, h.digitalContentVersions, rfl⟩
    refine ⟨_, (validateAndSave_eq_ok hdb).mpr
      ⟨⟨h.signatures, h.accounts, h.users, h.digitalContents⟩, _, _, hsave, hsave', rfl⟩, ?_, ?_⟩
    · exact (users_current_iff hdb).mpr ⟨h.settled, h.owners⟩
    · exact fun id row hrow ↦ digitalContents_current hdb hrow

namespace Scenario

def schema : Schema := ⟨fun _ value ↦ value, fun _ ↦ true⟩

def config : Config := ⟨schema, schema, fun _ ↦ "0x0", (· = ' '), fun s ↦ s⟩

/-- A user that is stored. -/
def user : Row := ⟨5, true, ⟨"created", fun _ ↦ .none⟩⟩

def database : Database := ⟨[user], [], []⟩

/-- A transaction that sets up the user. -/
def initUserTx (err : Bool) : ParsedTx := ⟨"signature", 1, 0, err, [.initUser 5 "account"]⟩

theorem valid_database : database.Valid where
  userKeys := by decide
  digitalContentKeys := nodup_nil
  users _ := length_filter_le _ _
  digitalContents _ := Nat.zero_le _

end Scenario

open Scenario in
theorem keepsOneCurrentRow_initUser :
    KeepsOneCurrentRow config (fun _ ↦ none) database [initUserTx false] := by
  have hwrites : ∀ w ∈ userWrites config (fun _ ↦ none) database [initUserTx false], w.id = 5 := by
    intro w hw
    rw [List.mem_singleton.mp hw]
  have htouched : ∀ id, Touched config (fun _ ↦ none) database [initUserTx false] id → id = 5 := by
    rintro id (⟨-, p, hp, hrevises⟩ | hne)
    · rw [List.mem_singleton.mp hp] at hrevises
      exact (Option.some.inj hrevises).symm
    · obtain ⟨w, hw⟩ := List.exists_mem_of_ne_nil _ hne
      exact (id_of_mem_writesOf w hw).symm.trans (hwrites w (List.mem_filter.mp hw).1)
  refine (keepsOneCurrentRow_iff config (fun _ ↦ none) database [initUserTx false]
    valid_database).mpr ?_
  refine ⟨by decide, fun p hp ↦ ?_, ⟨fun id hid ↦ ?_, trivial⟩, ⟨trivial, trivial⟩, fun _ _ ↦ rfl,
    fun _ _ ↦ rfl, fun id hid ↦ ?_, fun id hne ↦ absurd rfl hne, .inr fun _ h ↦ ?_, fun id hid ↦ ?_,
    fun _ ↦ rfl⟩
  · rw [List.mem_singleton.mp hp]
    trivial
  · obtain rfl : 5 = id := Option.some.inj hid
    rfl
  · obtain rfl := htouched id hid
    exact List.nodup_singleton _
  · cases h
  · obtain rfl := htouched id hid
    exact ⟨[], _, rfl, .inl rfl⟩

open Scenario in
/-- A transaction that failed takes the mark from a user that it names. -/
theorem failed_transaction_demotes : ¬ ∀ (c : Config) (metadata : String → Option Metadata)
    (db : Database) (batch : List ParsedTx), db.Valid → KeepsOneCurrentRow c metadata db batch := by
  intro h
  obtain ⟨db', hok, husers, -⟩ :=
    h config (fun _ ↦ none) database [initUserTx true] valid_database
  have hsaved : validateAndSaveParsedTxRecords config database [initUserTx true] (fun _ ↦ none)
      = .ok ⟨[user.demote], [], [("signature", 1)]⟩ := rfl
  obtain rfl := Except.ok.inj (hsaved.symm.trans hok)
  cases husers 5 user rfl

end ColivingSpec.AnchorRecords
