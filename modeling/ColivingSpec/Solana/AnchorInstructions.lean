import ColivingSpec.Lib.Replay
import ColivingSpec.Solana.AnchorRecords

/-!
# Instructions of the data program

What a batch of transactions means for users and digital contents is told by the instructions of
its successful transactions: each may write a version of one entity. The handlers make the records
of these versions, when each instruction finds the user, the account and the metadata it needs.
-/

namespace ColivingSpec.AnchorRecords

open Lib List

/-! ### What instructions mean -/

/-- The current version of each entity. -/
abbrev Entities := ℕ → Option Row

namespace Entities

/-- A version is written. -/
def put (entities : Entities) (w : Lib.Write ℕ Fields) : Entities :=
  Function.update entities w.id (some w.version)

variable (make : Entities → Parsed → Option (Lib.Write ℕ Fields))

/-- The version that an instruction writes, if any, becomes current. -/
def apply (entities : Entities) (p : Parsed) : Entities :=
  match make entities p with
  | none => entities
  | some w => entities.put w

/-- What instructions write, one after another. -/
def writes (make : Entities → Parsed → Option (Lib.Write ℕ Fields)) :
    Entities → List Parsed → List (Lib.Write ℕ Fields)
  | _, [] => []
  | entities, p :: rest => (make entities p).toList ++ writes make (entities.apply make p) rest

/-- The current versions after instructions. -/
def after (entities : Entities) (ps : List Parsed) : Entities :=
  ps.foldl (apply make) entities

/-- What each instruction needs of the versions before it. -/
def Throughout (needs : Entities → Parsed → Prop) (entities : Entities) (ps : List Parsed) : Prop :=
  Along (fun entities p ↦ .ok (apply make entities p)) needs entities ps

end Entities

/-- The current rows of a table. -/
def stored (rows : List Row) : Entities := fun id ↦ (currentOf id rows).head?

/-- The user that an instruction makes a new version of. -/
def Instruction.revises : Instruction → Option ℕ
  | .initUser userId _ => some userId
  | .initUserSol _ _ userId => userId
  | _ => none

/-- The version of a user that an instruction writes. -/
def userWrite (c : Config) (metadata : String → Option Metadata) (users : Entities) (p : Parsed) :
    Option (Lib.Write ℕ Fields) :=
  match p.instruction with
  | .initUser userId user =>
    (users userId).map fun row ↦
      ⟨true, userId, userRevision c p.tx "user_storage_account" user row⟩
  | .initUserSol _ userAuthority (some userId) =>
    (users userId).map fun row ↦
      ⟨true, userId, userRevision c p.tx "user_authority_account" userAuthority row⟩
  | .createUser data => some ⟨false, data.userId, newUser c metadata p.tx data⟩
  | _ => none

/-- The version of a digital content that an instruction writes: it is created once, and updated
when it exists. -/
def digitalContentWrite (c : Config) (metadata : String → Option Metadata)
    (digitalContents : Entities) (p : Parsed) : Option (Lib.Write ℕ Fields) :=
  match p.instruction with
  | .manageEntity data =>
    match data.managementAction, data.entityType, digitalContents data.id with
    | .create, .digitalContent, none =>
      (newDigitalContent c metadata p.tx data).toOption.map (⟨false, data.id, ·⟩)
    | .update, .digitalContent, some row =>
      (digitalContentRevision c metadata p.tx data row).toOption.map (⟨true, data.id, ·⟩)
    | _, _, _ => none
  | _ => none

/-- The instructions of transactions that did not fail. -/
def successful (ps : List Parsed) : List Parsed := ps.filter fun p ↦ !p.tx.err

/-- The instruction, for the user whose storage account it names. -/
def withUserId (users : List Row) (owner : String → Option ℕ) (p : Parsed) : Parsed where
  tx := p.tx
  instruction := match p.instruction with
    | .initUserSol user userAuthority _ =>
      .initUserSol user userAuthority ((owner user).or (currentWithAccount users user))
    | instruction => instruction

/-- An account gets an owner. -/
def giveTo (owner : String → Option ℕ) : Option (String × ℕ) → String → Option ℕ
  | some (user, userId) => Function.update owner user (some userId)
  | none => owner

/-- Find the users of storage accounts: the one an account was given to last, as `gives` tells,
else a current user with it. -/
def resolve (gives : Instruction → Option (String × ℕ)) (users : List Row) :
    (String → Option ℕ) → List Parsed → List Parsed
  | _, [] => []
  | owner, p :: rest =>
    withUserId users owner p :: resolve gives users (giveTo owner (gives p.instruction)) rest

/-- An instruction that sets up or creates a user gives it a storage account. -/
def givesAccount : Instruction → Option (String × ℕ)
  | .initUser userId user => some (user, userId)
  | .createUser data => some (data.user, data.userId)
  | _ => none

/-- Of these the indexer reads the first. -/
def givesAccountInBatch : Instruction → Option (String × ℕ)
  | .initUser userId user => some (user, userId)
  | _ => none

section Meaning

variable (c : Config) (metadata : String → Option Metadata) (db : Database) (batch : List ParsedTx)

/-- The successful instructions of the batch, with the users they are for. -/
def meant : List Parsed :=
  resolve givesAccount db.users (fun _ ↦ none) (successful (instructionsOf batch))

/-- The instructions of the batch with the user ids that the indexer embeds. -/
def indexed : List Parsed :=
  resolve givesAccountInBatch db.users (fun _ ↦ none) (instructionsOf batch)

/-- The users after the successful instructions. -/
def usersMeant : Entities := (stored db.users).after (userWrite c metadata) (meant db batch)

/-- The digital contents after the successful instructions. -/
def digitalContentsMeant : Entities :=
  (stored db.digitalContents).after (digitalContentWrite c metadata) (meant db batch)

/-- The batch is stored, and each entity that had a current row or was created has one, with the
fields that the successful instructions give it. -/
def KeepsOneCurrentRow : Prop :=
  ∃ db', validateAndSaveParsedTxRecords c db batch metadata = .ok db' ∧
    (∀ id row, usersMeant c metadata db batch id = some row → currentOf id db'.users = [row]) ∧
      ∀ id row, digitalContentsMeant c metadata db batch id = some row →
        currentOf id db'.digitalContents = [row]

/-! ### When they are carried out -/

/-- At most one row of each entity is current, and primary keys are unique. -/
structure Database.Valid : Prop where
  userKeys : (db.users.map key).Nodup
  digitalContentKeys : (db.digitalContents.map key).Nodup
  users : ∀ id, (currentOf id db.users).length ≤ 1
  digitalContents : ∀ id, (currentOf id db.digitalContents).length ≤ 1

/-- The fields of metadata that are read without a default. -/
def requiredKeys : List String :=
  ["title", "length", "cover_art_sizes", "cover_art"] ++ digitalContentKeys

/-- The metadata of a digital content can be read. -/
structure Metadata.Complete (metadata : Metadata) : Prop where
  keys : ∀ key ∈ requiredKeys, (metadata key).isSome = true
  title : ∃ title, metadata "title" = some (.str title)
  download : ∀ value, metadata "download" = some value → ∃ entries, value = .dict entries

/-- The instruction has a user id if it needs one. -/
def Parsed.HasUserId (p : Parsed) : Prop :=
  match p.instruction with
  | .initUserSol _ _ none => False
  | _ => True

/-- A version of the user is there to revise. -/
def UserServed (users : Entities) (p : Parsed) : Prop :=
  ∀ userId, p.instruction.revises = some userId → (users userId).isSome = true

/-- What is to be written has its metadata. -/
def DigitalContentServed (digitalContents : Entities) (p : Parsed) : Prop :=
  match p.instruction with
  | .manageEntity data =>
    match data.managementAction, data.entityType, digitalContents data.id with
    | .create, .digitalContent, none | .update, .digitalContent, some _ =>
      (metadataOf metadata data.metadata).Complete
    | _, _, _ => True
  | _ => True

/-- What the successful instructions write, with the user ids that the indexer embeds. -/
def userWrites : List (Lib.Write ℕ Fields) :=
  (stored db.users).writes (userWrite c metadata) (successful (indexed db batch))

def digitalContentWrites : List (Lib.Write ℕ Fields) :=
  (stored db.digitalContents).writes (digitalContentWrite c metadata)
    (successful (indexed db batch))

/-- The user has a current row and is named by an instruction, or it is created. -/
def Touched (id : ℕ) : Prop :=
  ((stored db.users id).isSome = true ∧ ∃ p ∈ indexed db batch, p.instruction.revises = some id) ∨
    writesOf id (userWrites c metadata db batch) ≠ []

/-- The versions that are not left current differ from those stored, and from each other, in the
transaction. -/
def DistinctVersions (rows : List Row) (ws : List (Lib.Write ℕ Fields)) (id : ℕ) : Prop :=
  ((versionsOf id rows).map (fun row ↦ row.data.txhash) ++
    (writesOf id ws).dropLast.map fun w ↦ w.data.txhash).Nodup

/-- The batch can be stored as a whole, and leaves one version of each user current. -/
structure Regular : Prop where
  signatures : (db.colivingDataTxs.map Prod.fst ++ batch.map ParsedTx.txSig).Nodup
  accounts : ∀ p ∈ indexed db batch, p.HasUserId
  users : Entities.Throughout (userWrite c metadata) UserServed (stored db.users)
    (successful (indexed db batch))
  digitalContents : Entities.Throughout (digitalContentWrite c metadata)
    (DigitalContentServed metadata) (stored db.digitalContents) (successful (indexed db batch))
  usersAccepted : ∀ w ∈ userWrites c metadata db batch, c.user.accepts w.data.columns = true
  digitalContentsAccepted : ∀ w ∈ digitalContentWrites c metadata db batch,
    c.digitalContent.accepts w.data.columns = true
  userVersions : ∀ id, Touched c metadata db batch id →
    DistinctVersions db.users (userWrites c metadata db batch) id
  digitalContentVersions : ∀ id, writesOf id (digitalContentWrites c metadata db batch) ≠ [] →
    DistinctVersions db.digitalContents (digitalContentWrites c metadata db batch) id
  /-- Without users the digital contents are demoted after the new versions are added. -/
  flushed : (∃ id, Touched c metadata db batch id) ∨
    ∀ row ∈ db.digitalContents, row.isCurrent = true →
      ∀ w ∈ digitalContentWrites c metadata db batch, w.id = row.id →
        w.data.txhash ≠ row.data.txhash
  settled : ∀ id, Touched c metadata db batch id →
    Settles (writesOf id (userWrites c metadata db batch))
  owners : ∀ id, (stored db.users).after (userWrite c metadata) (successful (indexed db batch)) id
    = usersMeant c metadata db batch id

end Meaning

/-! ### User ids -/

section Resolve

variable {gives : Instruction → Option (String × ℕ)} {users : List Row} {owner : String → Option ℕ}
  {ids ids' : EntityIds} {ps ps' : List Parsed}

/-- The instruction without its embedded user id. -/
def Parsed.strip (p : Parsed) : Parsed where
  tx := p.tx
  instruction := match p.instruction with
    | .initUserSol user userAuthority _ => .initUserSol user userAuthority none
    | instruction => instruction

@[simp] theorem strip_withUserId (p : Parsed) : (withUserId users owner p).strip = p.strip := by
  obtain ⟨tx, instruction⟩ := p
  cases instruction <;> rfl

/-- Nothing but embedded user ids is changed. -/
theorem map_strip_resolve :
    (resolve gives users owner ps).map Parsed.strip = ps.map Parsed.strip := by
  induction ps generalizing owner with
  | nil => rfl
  | cons p rest ih => rw [resolve, map_cons, map_cons, ih, strip_withUserId]

theorem map_strip_successful (ps : List Parsed) :
    (successful ps).map Parsed.strip = successful (ps.map Parsed.strip) := by
  unfold successful
  rw [filter_map]
  rfl

/-- Both readings of a batch have the same instructions but for embedded user ids. -/
theorem map_strip_indexed (db : Database) (batch : List ParsedTx) :
    (successful (indexed db batch)).map Parsed.strip = (meant db batch).map Parsed.strip := by
  rw [map_strip_successful, indexed, map_strip_resolve, meant, map_strip_resolve,
    map_strip_successful]

/-- The digital contents that an instruction is about. -/
def Instruction.digitalContent : Instruction → Option ℕ
  | .manageEntity data => if data.entityType = .digitalContent then some data.id else none
  | _ => none

/-- The ids that are collected. -/
def collect (of : Instruction → Option ℕ) (ps : List Parsed) : List ℕ :=
  ps.flatMap fun p ↦ (of p.instruction).toList

theorem collect_cons (of : Instruction → Option ℕ) (p : Parsed) (ps : List Parsed) :
    collect of (p :: ps) = (of p.instruction).toList ++ collect of ps := rfl

/-- An instruction is given the user id of its account, and what it names is collected. -/
theorem extractId_eq_ok {p p' : Parsed} : extractId users ids p = .ok (ids', p') →
    p' = withUserId users ids.userStorageToId p ∧ p'.HasUserId ∧
      ids'.users = ids.users ++ p'.instruction.revises.toList ∧
        ids'.digitalContents = ids.digitalContents ++ p'.instruction.digitalContent.toList ∧
          ids'.userStorageToId
            = giveTo ids.userStorageToId (givesAccountInBatch p.instruction) := by
  intro h
  obtain ⟨tx, instruction⟩ := p
  unfold extractId at h
  cases instruction with
  | initUser userId user =>
    cases h
    exact ⟨rfl, trivial, rfl, (append_nil _).symm, rfl⟩
  | initUserSol user userAuthority userId =>
    dsimp only at h
    split at h
    · cases h
    · next userId howner =>
      cases h
      refine ⟨?_, trivial, rfl, (append_nil _).symm, rfl⟩
      simp only [withUserId, howner]
  | createUser | other =>
    cases h
    exact ⟨rfl, trivial, (append_nil _).symm, (append_nil _).symm, rfl⟩
  | manageEntity data =>
    dsimp only at h
    split at h
    · next htype =>
      cases h
      refine ⟨rfl, trivial, (append_nil _).symm, ?_, rfl⟩
      simp [Instruction.digitalContent, htype]
    · next htype =>
      cases h
      refine ⟨rfl, trivial, (append_nil _).symm, ?_, rfl⟩
      simp [Instruction.digitalContent, htype]

/-- `extract_ids` embeds the ids of the accounts and collects what the instructions name. -/
theorem extractIds_eq_ok (h : extractIds users ids ps = .ok (ids', ps')) :
    ps' = resolve givesAccountInBatch users ids.userStorageToId ps ∧
      (∀ p ∈ ps', p.HasUserId) ∧
        ids'.users = ids.users ++ collect Instruction.revises ps' ∧
          ids'.digitalContents = ids.digitalContents ++ collect Instruction.digitalContent ps' := by
  induction ps generalizing ids ids' ps' with
  | nil =>
    cases h
    exact ⟨rfl, fun _ hp ↦ absurd hp not_mem_nil, (append_nil _).symm, (append_nil _).symm⟩
  | cons p rest ih =>
    unfold extractIds at h
    simp only [bind_eq_ok, pure_eq_ok, Prod.exists, Prod.mk.injEq] at h
    obtain ⟨ids₁, p', hone, ids₂, rest', hrest, rfl, rfl⟩ := h
    obtain ⟨hp, hid, husers, hcontents, howner⟩ := extractId_eq_ok hone
    obtain ⟨hresolve, hids, husers', hcontents'⟩ := ih hrest
    refine ⟨?_, ?_, ?_, ?_⟩
    · rw [resolve, ← hp, ← howner, ← hresolve]
    · rintro q hq
      rcases mem_cons.mp hq with rfl | hq
      · exact hid
      · exact hids q hq
    · rw [husers', husers, append_assoc, collect_cons]
    · rw [hcontents', hcontents, append_assoc, collect_cons]

/-- It raises only for an account that is unknown. -/
theorem extractIds_succeeds
    (h : ∀ p ∈ resolve givesAccountInBatch users ids.userStorageToId ps, p.HasUserId) :
    Succeeds (extractIds users ids ps) := by
  induction ps generalizing ids with
  | nil => exact ⟨_, rfl⟩
  | cons p rest ih =>
    have hone : Succeeds (extractId users ids p) := by
      obtain ⟨tx, instruction⟩ := p
      have hp := h _ mem_cons_self
      unfold extractId
      cases instruction with
      | initUserSol user userAuthority userId =>
        dsimp only
        cases howner : (ids.userStorageToId user).or (currentWithAccount users user) with
        | none =>
          simp only [withUserId, howner] at hp
          exact hp.elim
        | some userId => exact ⟨_, rfl⟩
      | manageEntity data =>
        dsimp only
        split
        · exact ⟨_, rfl⟩
        · exact ⟨_, rfl⟩
      | _ => exact ⟨_, rfl⟩
    obtain ⟨⟨ids₁, p'⟩, hone⟩ := hone
    obtain ⟨-, -, -, -, howner⟩ := extractId_eq_ok hone
    obtain ⟨⟨ids₂, rest'⟩, hrest⟩ : Succeeds (extractIds users ids₁ rest) := by
      apply ih
      rw [howner]
      exact fun q hq ↦ h q (mem_cons_of_mem _ hq)
    refine ⟨(ids₂, p' :: rest'), ?_⟩
    rw [extractIds, hone, ok_bind]
    dsimp only
    rw [hrest]
    rfl

end Resolve

/-! ### Metadata -/

section Metadata

variable {c : Config} {metadata : Metadata} {columns : Columns}

theorem read_succeeds_iff {key : String} :
    Succeeds (metadata.read key) ↔ (metadata key).isSome = true := by
  unfold Metadata.read
  cases metadata key <;> simp [Succeeds]

theorem copyKeys_succeeds_iff {s : Schema} {keys : List String} :
    Succeeds (s.copyKeys metadata keys columns) ↔ ∀ key ∈ keys, (metadata key).isSome = true := by
  unfold Schema.copyKeys
  induction keys generalizing columns with
  | nil => exact iff_of_true ⟨_, rfl⟩ fun _ h ↦ absurd h not_mem_nil
  | cons key keys ih =>
    rw [foldlM_cons, forall_mem_cons, succeeds_bind_iff fun _ ↦ ih]
    refine and_congr_left' (Iff.trans ?_ read_succeeds_iff)
    unfold Metadata.read
    cases metadata key <;> simp [Succeeds]

theorem downloadOf_succeeds_iff {download : Option Value} :
    Succeeds (downloadOf download) ↔
      ∀ value, download = some value → ∃ entries, value = .dict entries := by
  unfold downloadOf
  split
  · exact iff_of_true ⟨_, rfl⟩ fun _ h ↦ by cases h
  · next entries =>
    refine iff_of_true ⟨_, rfl⟩ fun value h ↦ ⟨entries, ?_⟩
    cases h
    rfl
  · next value hdict =>
    refine iff_of_false (fun ⟨_, h⟩ ↦ by cases h) fun h ↦ ?_
    obtain ⟨entries, rfl⟩ := h value rfl
    exact hdict entries rfl

/-- The metadata of a digital content is read to its end when it is complete. -/
theorem updateDigitalContentModelMetadata_succeeds_iff :
    Succeeds (updateDigitalContentModelMetadata c metadata columns) ↔ metadata.Complete := by
  cases htitle : metadata "title" with
  | none =>
    have hread : metadata.read "title" = .error ("KeyError: " ++ "title") := by
      rw [Metadata.read, htitle]
    rw [updateDigitalContentModelMetadata, hread, error_bind]
    refine iff_of_false (fun ⟨_, h⟩ ↦ by cases h) fun h ↦ ?_
    obtain ⟨title, h⟩ := h.title
    rw [htitle] at h
    cases h
  | some title =>
    have hread : metadata.read "title" = .ok title := by
      rw [Metadata.read, htitle]
    rw [updateDigitalContentModelMetadata, hread, ok_bind]
    simp only [Succeeds, bind_eq_ok]
    constructor
    · rintro ⟨_, length, hlength, sizes, hsizes, cover, hcover, _, hkeys, download, hdownload, s,
        hs, -⟩
      refine ⟨fun key hkey ↦ ?_, ⟨s, ?_⟩, downloadOf_succeeds_iff.mp ⟨download, hdownload⟩⟩
      · simp only [requiredKeys, mem_append, mem_cons, not_mem_nil, or_false] at hkey
        rcases hkey with (rfl | rfl | rfl | rfl) | hkey
        · rw [htitle]
          rfl
        · exact read_succeeds_iff.mp ⟨length, hlength⟩
        · exact read_succeeds_iff.mp ⟨sizes, hsizes⟩
        · exact read_succeeds_iff.mp ⟨cover, hcover⟩
        · exact copyKeys_succeeds_iff.mp ⟨_, hkeys⟩ key hkey
      · rw [htitle]
        cases title <;> simp_all [Value.encode]
    · intro h
      obtain ⟨s, hs⟩ := h.title
      obtain ⟨length, hlength⟩ := read_succeeds_iff.mpr (h.keys "length" (by simp [requiredKeys]))
      obtain ⟨sizes, hsizes⟩ :=
        read_succeeds_iff.mpr (h.keys "cover_art_sizes" (by simp [requiredKeys]))
      obtain ⟨cover, hcover⟩ :=
        read_succeeds_iff.mpr (h.keys "cover_art" (by simp [requiredKeys]))
      obtain ⟨download, hdownload⟩ := downloadOf_succeeds_iff.mpr h.download
      have hkeys : ∀ columns,
          Succeeds (c.digitalContent.copyKeys metadata digitalContentKeys columns) :=
        fun _ ↦ copyKeys_succeeds_iff.mpr fun key hkey ↦
          h.keys key (mem_append_right _ hkey)
      rw [htitle] at hs
      obtain rfl := Option.some.inj hs
      exact ⟨_, length, hlength, sizes, hsizes, cover, hcover, _, (hkeys _).choose_spec, download,
        hdownload, s, rfl, rfl⟩

end Metadata

/-! ### The records of a table -/

namespace Models

variable {m : Models} {entities : Entities} {ids : List ℕ} {rows : List Row}

/-- Add the record of an instruction, if it makes one. -/
def apply (m : Models) : Option (Lib.Write ℕ Fields) → Models
  | none => m
  | some w => m.write w

/-- Add the records of instructions. -/
def writeAll (m : Models) (ws : List (Lib.Write ℕ Fields)) : Models := ws.foldl write m

theorem writeAll_apply (o : Option (Lib.Write ℕ Fields)) (ws : List (Lib.Write ℕ Fields)) :
    (m.apply o).writeAll ws = m.writeAll (o.toList ++ ws) := by
  cases o <;> rfl

theorem get_write (w : Lib.Write ℕ Fields) (id : ℕ) :
    (m.write w).get id = if w.id = id then Lib.write (m.get id) w else m.get id := by
  have hall : (m.write w).loaded ++ (m.write w).records
      = Lib.write (m.loaded ++ m.records) w := by
    unfold write Lib.write
    cases w.demotes <;> simp
  rw [get, hall, versionsOf_write]
  rfl

/-- The last record of an entity is its current version, for those that were looked up. -/
structure Tracks (m : Models) (entities : Entities) (ids : List ℕ) : Prop where
  named : ∀ id ∈ ids, (m.get id).getLast? = entities id
  found : ∀ id row, (m.get id).getLast? = some row → entities id = some row

theorem Tracks.write (h : m.Tracks entities ids) (w : Lib.Write ℕ Fields) :
    (m.write w).Tracks (entities.put w) ids where
  named id hid := by
    rw [get_write, Entities.put]
    by_cases hw : w.id = id
    · subst hw
      rw [if_pos rfl, getLast?_write, Function.update_self]
    · rw [if_neg hw, Function.update_of_ne (Ne.symm hw)]
      exact h.named id hid
  found id row hrow := by
    rw [get_write] at hrow
    rw [Entities.put]
    by_cases hw : w.id = id
    · subst hw
      rw [if_pos rfl, getLast?_write] at hrow
      rw [Function.update_self, hrow]
    · rw [if_neg hw] at hrow
      rw [Function.update_of_ne (Ne.symm hw)]
      exact h.found id row hrow

theorem Tracks.apply {make : Entities → Parsed → Option (Lib.Write ℕ Fields)}
    (h : m.Tracks entities ids) (p : Parsed) :
    (m.apply (make entities p)).Tracks (entities.apply make p) ids := by
  unfold Models.apply Entities.apply
  cases make entities p with
  | none => exact h
  | some w => exact h.write w

/-- Of the rows of an entity the last one is kept. -/
theorem versionsOf_foldl_load (id : ℕ) (l loaded : List Row) :
    versionsOf id (l.foldl
      (fun loaded row ↦ (loaded.filter fun other ↦ other.id ≠ row.id) ++ [row]) loaded)
      = match (versionsOf id l).getLast? with
        | some row => [row]
        | none => versionsOf id loaded := by
  induction l generalizing loaded with
  | nil => rfl
  | cons row rest ih =>
    rw [foldl_cons, ih]
    by_cases hid : row.id = id
    · have hcons : versionsOf id (row :: rest) = row :: versionsOf id rest :=
        filter_cons_of_pos (by simpa using hid)
      have hkept : versionsOf id (loaded.filter fun other ↦ other.id ≠ row.id) = [] := by
        simp [versionsOf, hid]
      have hrow : versionsOf id [row] = [row] := filter_cons_of_pos (by simpa using hid)
      rw [hcons, getLast?_cons, versionsOf_append, hkept, hrow]
      cases (versionsOf id rest).getLast? with
      | none => rfl
      | some last => rfl
    · have hcons : versionsOf id (row :: rest) = versionsOf id rest :=
        filter_cons_of_neg (by simpa using hid)
      have hrow : versionsOf id [row] = [] := filter_cons_of_neg (by simpa using hid)
      have hkept : versionsOf id (loaded.filter fun other ↦ other.id ≠ row.id)
          = versionsOf id loaded := by
        unfold versionsOf
        rw [filter_filter]
        refine filter_congr fun other _ ↦ ?_
        by_cases hother : other.id = id
        · simp [hother, Ne.symm hid]
        · simp [hother]
      rw [hcons, versionsOf_append, hkept, hrow, append_nil]

/-- A list of at most one element is told by its first one. -/
theorem eq_toList_head? {l : List Row} (h : l.length ≤ 1) : l = l.head?.toList := by
  match l, h with
  | [], _ => rfl
  | [_], _ => rfl
  | _ :: _ :: _, h => exact absurd h (by simp)

/-- The rows found in the database are the current ones of the ids. -/
theorem versionsOf_load (hone : ∀ id, (currentOf id rows).length ≤ 1) (id : ℕ) :
    versionsOf id (load rows ids) = if id ∈ ids then currentOf id rows else [] := by
  have hfilter : versionsOf id (rows.filter fun row ↦ row.isCurrent ∧ row.id ∈ ids)
      = if id ∈ ids then currentOf id rows else [] := by
    unfold versionsOf currentOf
    rw [filter_filter]
    split
    · next hid =>
      refine filter_congr fun row _ ↦ ?_
      by_cases hrow : row.id = id
      · simp [hrow, hid]
      · simp [hrow]
    · next hid =>
      rw [filter_eq_nil_iff]
      rintro row - hrow
      simp only [Bool.decide_and, Bool.decide_eq_true, Bool.and_eq_true, decide_eq_true_eq] at hrow
      exact hid (hrow.1 ▸ hrow.2.2)
  rw [load, versionsOf_foldl_load, hfilter]
  split
  · next last hlast =>
    split at hlast
    · next hid =>
      rw [eq_toList_head? (hone id)] at hlast
      rw [if_pos hid, eq_toList_head? (hone id)]
      cases hcurrent : (currentOf id rows).head? with
      | none =>
        rw [hcurrent] at hlast
        cases hlast
      | some row =>
        rw [hcurrent] at hlast
        cases hlast
        rfl
    · cases hlast
  · next hlast =>
    rw [getLast?_eq_none_iff] at hlast
    rw [hlast]
    rfl

/-- What is looked up in the database is tracked. -/
theorem tracks_load (hone : ∀ id, (currentOf id rows).length ≤ 1) :
    Tracks ⟨load rows ids, []⟩ (stored rows) ids := by
  have hget : ∀ id, (Models.get ⟨load rows ids, []⟩ id).getLast?
      = if id ∈ ids then stored rows id else none := by
    intro id
    unfold get stored
    rw [append_nil, versionsOf_load hone]
    split
    · rw [eq_toList_head? (hone id)]
      cases (currentOf id rows).head? <;> rfl
    · rfl
  constructor
  · intro id hid
    rw [hget, if_pos hid]
  · intro id row hrow
    rw [hget] at hrow
    split at hrow
    · exact hrow
    · cases hrow

end Models

/-! ### Handlers -/

section Process

variable {c : Config} {metadata : String → Option Metadata} {m m' : DbModels}
  {users digitalContents : Entities} {userIds digitalContentIds : List ℕ} {p : Parsed}
  {ps : List Parsed}

/-- The records that an instruction adds. -/
def recordsOf (c : Config) (metadata : String → Option Metadata) (users digitalContents : Entities)
    (m : DbModels) (p : Parsed) : DbModels where
  users := m.users.apply (userWrite c metadata users p)
  digitalContents := m.digitalContents.apply (digitalContentWrite c metadata digitalContents p)

theorem reviseUser_eq_ok {userId : ℕ} {column account : String}
    (hm : m.users.Tracks users userIds) (hid : userId ∈ userIds) :
    reviseUser c p.tx m userId column account = .ok m' ↔
      (users userId).isSome = true ∧
        m' = { m with
          users := m.users.apply ((users userId).map fun row ↦
            ⟨true, userId, userRevision c p.tx column account row⟩) } := by
  unfold reviseUser
  rw [hm.named userId hid]
  cases users userId with
  | none => simp
  | some row =>
    simp only [Except.ok.injEq, Option.isSome_some, true_and, Option.map_some]
    exact eq_comm

variable {data : ManageEntityData}

theorem newDigitalContent_succeeds_iff :
    Succeeds (newDigitalContent c metadata p.tx data) ↔
      (metadataOf metadata data.metadata).Complete := by
  refine (succeeds_bind_iff (p := True) fun _ ↦ iff_true_intro ⟨_, rfl⟩).trans ?_
  rw [and_true]
  exact updateDigitalContentModelMetadata_succeeds_iff

theorem digitalContentRevision_succeeds_iff {row : Row} :
    Succeeds (digitalContentRevision c metadata p.tx data row) ↔
      (metadataOf metadata data.metadata).Complete := by
  refine (succeeds_bind_iff (p := True) fun _ ↦ iff_true_intro ⟨_, rfl⟩).trans ?_
  rw [and_true]
  exact updateDigitalContentModelMetadata_succeeds_iff

/-- A handler that does nothing. -/
theorem unchanged_eq_ok : (.ok m : Except String DbModels) = .ok m' ↔ True ∧ m' = m := by
  rw [Except.ok.injEq, true_and, eq_comm]

/-- A record that is made is added. -/
theorem write_of_succeeds {x : Except String Fields} {demotes : Bool} {id : ℕ} {complete : Prop}
    (hx : Succeeds x ↔ complete) :
    (x >>= fun fields ↦ pure { m with
        digitalContents := m.digitalContents.write ⟨demotes, id, fields⟩ }) = .ok m' ↔
      complete ∧ m' = { m with
        digitalContents := m.digitalContents.apply (x.toOption.map (⟨demotes, id, ·⟩)) } := by
  rw [← hx]
  cases x with
  | error reason => simp [Succeeds]
  | ok fields =>
    simp only [ok_bind, pure_eq_ok, Succeeds, Except.ok.injEq, exists_eq', true_and]
    exact eq_comm

theorem handleManageEntity_eq_ok (hp : p.instruction = .manageEntity data)
    (hm : m.digitalContents.Tracks digitalContents digitalContentIds)
    (hids : ∀ id, p.instruction.digitalContent = some id → id ∈ digitalContentIds) :
    handleManageEntity c metadata p.tx m data = .ok m' ↔
      DigitalContentServed metadata digitalContents p ∧ m' = { m with
        digitalContents :=
          m.digitalContents.apply (digitalContentWrite c metadata digitalContents p) } := by
  unfold handleManageEntity DigitalContentServed digitalContentWrite
  rw [hp] at hids ⊢
  dsimp only
  cases htype : data.entityType with
  | contentList => cases data.managementAction <;> exact unchanged_eq_ok
  | digitalContent =>
    have hlast := hm.named data.id (hids data.id (by simp [Instruction.digitalContent, htype]))
    cases haction : data.managementAction with
    | delete => exact unchanged_eq_ok
    | create =>
      cases hrow : digitalContents data.id with
      | none =>
        rw [hrow, getLast?_eq_none_iff] at hlast
        rw [if_neg (not_not.mpr hlast)]
        exact write_of_succeeds newDigitalContent_succeeds_iff
      | some row =>
        rw [if_pos]
        · exact unchanged_eq_ok
        · intro hnil
          rw [hnil, hrow] at hlast
          cases hlast
    | update =>
      rw [hlast]
      cases hrow : digitalContents data.id with
      | none => exact unchanged_eq_ok
      | some row => exact write_of_succeeds digitalContentRevision_succeeds_iff

/-- A handler returns when the instruction is served, with the records that it makes. -/
theorem handle_eq_ok (husers : m.users.Tracks users userIds)
    (hcontents : m.digitalContents.Tracks digitalContents digitalContentIds) (hid : p.HasUserId)
    (huser : ∀ id, p.instruction.revises = some id → id ∈ userIds)
    (hcontent : ∀ id, p.instruction.digitalContent = some id → id ∈ digitalContentIds) :
    handle c metadata p.tx m p.instruction = .ok m' ↔
      (UserServed users p ∧ DigitalContentServed metadata digitalContents p) ∧
        m' = recordsOf c metadata users digitalContents m p := by
  obtain ⟨tx, instruction⟩ := p
  cases instruction with
  | initUser userId user =>
    have hserved : UserServed users ⟨tx, .initUser userId user⟩ ↔ (users userId).isSome = true := by
      simp [UserServed, Instruction.revises]
    rw [hserved, DigitalContentServed, and_true]
    exact reviseUser_eq_ok husers (huser userId rfl)
  | initUserSol user userAuthority userId =>
    cases userId with
    | none => exact hid.elim
    | some userId =>
      have hserved : UserServed users ⟨tx, .initUserSol user userAuthority (some userId)⟩ ↔
          (users userId).isSome = true := by
        simp [UserServed, Instruction.revises]
      rw [hserved, DigitalContentServed, and_true]
      exact reviseUser_eq_ok husers (huser userId rfl)
  | createUser data =>
    have hserved : UserServed users ⟨tx, .createUser data⟩ := fun _ h ↦ by cases h
    rw [iff_true_intro hserved, DigitalContentServed, and_true]
    exact unchanged_eq_ok
  | manageEntity data =>
    have hserved : UserServed users ⟨tx, .manageEntity data⟩ := fun _ h ↦ by cases h
    rw [iff_true_intro hserved, true_and]
    exact handleManageEntity_eq_ok rfl hcontents hcontent
  | other instructionName =>
    have hserved : UserServed users ⟨tx, .other instructionName⟩ := fun _ h ↦ by cases h
    rw [iff_true_intro hserved, DigitalContentServed, and_true]
    exact unchanged_eq_ok

/-- The records of the instructions of a batch, when all of them are served. -/
theorem processTransactions_eq_ok (husers : m.users.Tracks users userIds)
    (hcontents : m.digitalContents.Tracks digitalContents digitalContentIds)
    (hid : ∀ p ∈ ps, p.HasUserId)
    (huser : ∀ p ∈ ps, ∀ id, p.instruction.revises = some id → id ∈ userIds)
    (hcontent : ∀ p ∈ ps, ∀ id, p.instruction.digitalContent = some id → id ∈ digitalContentIds) :
    processTransactions c metadata m ps = .ok m' ↔
      (users.Throughout (userWrite c metadata) UserServed (successful ps) ∧
        digitalContents.Throughout (digitalContentWrite c metadata)
          (DigitalContentServed metadata) (successful ps)) ∧
        m' = ⟨m.users.writeAll (users.writes (userWrite c metadata) (successful ps)),
          m.digitalContents.writeAll
            (digitalContents.writes (digitalContentWrite c metadata) (successful ps))⟩ := by
  induction ps generalizing m users digitalContents with
  | nil =>
    exact unchanged_eq_ok.trans (and_congr_left' (iff_of_true trivial ⟨trivial, trivial⟩))
  | cons p ps ih =>
    rw [forall_mem_cons] at hid huser hcontent
    unfold processTransactions
    by_cases herr : p.tx.err = true
    · rw [if_pos herr]
      have hskip : successful (p :: ps) = successful ps :=
        filter_cons_of_neg (by simp [herr])
      rw [hskip]
      exact ih husers hcontents hid.2 huser.2 hcontent.2
    · rw [if_neg herr, bind_eq_ok]
      have htake : successful (p :: ps) = p :: successful ps :=
        filter_cons_of_pos (by simp [herr])
      rw [htake]
      have hnext := @ih (recordsOf c metadata users digitalContents m p)
        (users.apply (userWrite c metadata) p)
        (digitalContents.apply (digitalContentWrite c metadata) p)
        (husers.apply p) (hcontents.apply p) hid.2 huser.2 hcontent.2
      simp only [recordsOf, Models.writeAll_apply] at hnext
      constructor
      · rintro ⟨m₁, hone, hrest⟩
        obtain ⟨hserved, rfl⟩ :=
          (handle_eq_ok husers hcontents hid.1 huser.1 hcontent.1).mp hone
        obtain ⟨⟨hu, hc⟩, hm⟩ := hnext.mp hrest
        exact ⟨⟨⟨hserved.1, hu⟩, hserved.2, hc⟩, hm⟩
      · rintro ⟨⟨⟨hserved, hu⟩, hserved', hc⟩, hm⟩
        exact ⟨_, (handle_eq_ok husers hcontents hid.1 huser.1 hcontent.1).mpr
          ⟨⟨hserved, hserved'⟩, rfl⟩, hnext.mpr ⟨⟨hu, hc⟩, hm⟩⟩

end Process

end ColivingSpec.AnchorRecords
