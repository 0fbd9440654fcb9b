import Mathlib.Data.Int.Notation
import ColivingSpec.Lib.Versions

/-!
# Records of the data program

What the anchor indexer stores for a batch of parsed transactions
(`anchor_program_indexer.py:83–253` with the handlers of `coliving_data_transaction_handlers.py`):
versions of users and of digital contents. The versions found in the database are kept with the
new ones by entity, the handlers clone the last one and take `is_current` from the others, and
the users that were collected are demoted in the database before the new versions are added.
-/

namespace ColivingSpec.AnchorRecords

open Lib

/-- What a column or a field of metadata holds. A `datetime` is kept as its timestamp. -/
inductive Value where
  | none
  | bool (b : Bool)
  | int (n : ℤ)
  | str (s : String)
  | list (values : List Value)
  | dict (entries : List (String × Value))

namespace Value

/-- Whether `if value` holds. -/
def truthy : Value → Bool
  | .none => false
  | .bool b => b
  | .int n => n ≠ 0
  | .str s => s ≠ ""
  | .list values => !values.isEmpty
  | .dict entries => !entries.isEmpty

/-- `value.encode` and back; only a string has it. -/
def encode : Value → Except String String
  | .str s => .ok s
  | _ => .error "AttributeError: object has no attribute 'encode'"

/-- `isinstance(value, dict)`, and not empty. -/
def isFilledDict : Value → Bool
  | .dict entries => !entries.isEmpty
  | _ => false

/-- `value == True`. -/
def isTrue : Value → Bool
  | .bool b => b
  | .int n => n = 1
  | _ => false

end Value

abbrev Columns := String → Value

/-- Metadata of an entity, by key. -/
abbrev Metadata := String → Option Value

variable (metadata : Metadata)

/-- `metadata[key]`. -/
def Metadata.read (key : String) : Except String Value :=
  match metadata key with
  | some value => .ok value
  | none => .error ("KeyError: " ++ key)

/-- A row but for its id and `is_current`. A column that is not given is `none`. -/
structure Fields where
  txhash : String
  columns : Columns

/-- A row of `users` or `digitalContents`. -/
abbrev Row := Version ℕ Fields

/-- The primary key, `(is_current, id, txhash)`. -/
def key (row : Row) : Bool × ℕ × String := (row.isCurrent, row.id, row.data.txhash)

/-- What a table does to its columns: `validate_field`, and which rows it takes. -/
structure Schema where
  validate : String → Value → Value
  accepts : Columns → Bool

/-- The two tables, and the functions on strings that are not the repository's. -/
structure Config where
  user : Schema
  digitalContent : Schema
  toChecksumAddress : List ℕ → String
  isSpace : Char → Bool
  lower : String → String

inductive ManagementAction where
  | create
  | update
  | delete
  deriving DecidableEq

inductive EntityType where
  | digitalContent
  | contentList
  deriving DecidableEq

/-- `CreateUserData`, as far as it is read, with the account `user`. -/
structure CreateUserData where
  userId : ℕ
  ethAddress : List ℕ
  replicaSet : ℕ × ℕ × ℕ
  metadata : String
  userAuthority : String
  user : String

/-- `ManageEntityData`; `userId` is that of `user_id_seed_bump`. -/
structure ManageEntityData where
  managementAction : ManagementAction
  entityType : EntityType
  id : ℕ
  metadata : String
  userId : ℕ

/-- A parsed instruction. The `userId` of `initUserSol` is what `extract_ids` embeds; `other` are
those that no handler acts on. -/
inductive Instruction where
  | initUser (userId : ℕ) (user : String)
  | initUserSol (user userAuthority : String) (userId : Option ℕ)
  | createUser (data : CreateUserData)
  | manageEntity (data : ManageEntityData)
  | other (instructionName : String)

/-- A parsed transaction; `err` when it failed on the chain. -/
structure ParsedTx where
  txSig : String
  slot : ℕ
  blockTime : ℕ
  err : Bool
  instructions : List Instruction

/-- An instruction in its transaction. -/
structure Parsed where
  tx : ParsedTx
  instruction : Instruction

/-- The instructions of a batch, in order. -/
def instructionsOf (batch : List ParsedTx) : List Parsed :=
  batch.flatMap fun tx ↦ tx.instructions.map fun instruction ↦ ⟨tx, instruction⟩

structure Database where
  users : List Row
  digitalContents : List Row
  colivingDataTxs : List (String × ℕ)

/-! ### Columns -/

namespace Schema

variable (s : Schema)

variable (column : String)

/-- Set an attribute of a record. -/
def set (value : Value) (columns : Columns) : Columns :=
  Function.update columns column (s.validate column value)

/-- Set an attribute if there is a value for it. -/
def setFrom (value : Option Value) (columns : Columns) : Columns :=
  match value with
  | some value => s.set column value columns
  | none => columns

/-- `clone_model`, `coliving_data_transaction_handlers.py:70–81`; the primary key is not copied. -/
def cloneModel (row : Row) : Columns := fun column ↦ s.validate column (row.data.columns column)

/-- Set columns to the fields of metadata of their names. -/
def copyKeys (metadata : Metadata) (keys : List String) (columns : Columns) :
    Except String Columns :=
  keys.foldlM (fun columns key ↦ do
    let value ← metadata.read key
    return s.set key value columns) columns

end Schema

/-- `"key" in metadata and metadata["key"]`. -/
def Metadata.filled (key : String) : Option Value :=
  (metadata key).filter Value.truthy

variable (s : Schema) (c : Config) (users : List Row)

variable (metadata : Metadata) (columns : Columns) (account : String) (rows : List Row)

/-- `coliving_data_transaction_handlers.py:426–507`. -/
def updateUserModelMetadata : Columns :=
  let hasCollectibles := ((metadata "collectibles").map Value.isFilledDict).getD false
  columns
    |> s.setFrom "profile_picture" (metadata.filled "profile_picture")
    |> s.setFrom "profile_picture" (metadata.filled "profile_picture_sizes")
    |> s.setFrom "cover_photo" (metadata.filled "cover_photo")
    |> s.setFrom "cover_photo" (metadata "cover_photo_sizes")
    |> s.setFrom "bio" (metadata.filled "bio")
    |> s.setFrom "name" (metadata.filled "name")
    |> s.setFrom "location" (metadata.filled "location")
    |> s.setFrom "profile_picture" (metadata.filled "profile_picture_sizes")
    |> s.set "has_collectibles" (.bool hasCollectibles)
    |> s.setFrom "content_list_library" (metadata.filled "content_list_library")
    |> s.setFrom "is_deactivated" (metadata "is_deactivated")
    |> s.setFrom "content_node_endpoint" (metadata "content_node_endpoint")

/-- The fields that are read after the cover art, in their order. -/
def digitalContentKeys : List String :=
  ["tags", "genre", "mood", "credits_splits", "create_date", "release_date", "file_type",
    "description", "license", "isrc", "iswc", "digital_content_segments", "is_unlisted",
    "field_visibility"]

/-- The characters that `create_digital_content_route_id` takes out of a title. -/
def strippedChars : List Char := "!%#$&'()*+,/:;=?@[]\x00".toList

/-- `helpers.create_digital_content_route_id`. -/
def createDigitalContentRouteId (title handle : String) : String :=
  let stripped := title.toList.filter (· ∉ strippedChars)
  let dashed := stripped.map fun char ↦ if c.isSpace char then '-' else char
  let single := dashed.foldr
    (fun char rest ↦ if char = '-' ∧ rest.head? = some '-' then rest else char :: rest) []
  c.lower handle ++ "/" ++ c.lower (String.ofList single)

/-- The column `download`. -/
def downloadOf : Option Value → Except String Value
  | none =>
    .ok (.dict [("is_downloadable", .bool false), ("requires_follow", .bool false), ("cid", .none)])
  | some (.dict entries) =>
    let get (key : String) := (entries.lookup key).getD .none
    .ok (.dict [("is_downloadable", .bool (get "is_downloadable").isTrue),
      ("requires_follow", .bool (get "requires_follow").isTrue), ("cid", get "cid")])
  | some _ => .error "AttributeError: object has no attribute 'get'"

/-- `coliving_data_transaction_handlers.py:510–557`. -/
def updateDigitalContentModelMetadata :
    Except String Columns := do
  let s := c.digitalContent
  let title ← metadata.read "title"
  let columns := s.set "title" title columns
  let length ← metadata.read "length"
  let columns := s.set "length" (if length.truthy then length else .int 0) columns
  let coverArtSizes ← metadata.read "cover_art_sizes"
  let columns := s.set "cover_art_sizes" coverArtSizes columns
  let coverArt ← metadata.read "cover_art"
  let columns :=
    if coverArt.truthy then s.set "cover_art_sizes" (columns "cover_art") columns else columns
  let columns ← s.copyKeys metadata digitalContentKeys columns
  let columns := s.setFrom "stem_of" ((metadata "stem_of").filter Value.isFilledDict) columns
  let columns := s.setFrom "remix_of" ((metadata "remix_of").filter Value.isFilledDict) columns
  let download ← downloadOf (metadata "download")
  let columns := s.set "download" download columns
  let title ← title.encode
  return s.set "route_id" (.str (createDigitalContentRouteId c title "handle")) columns

/-! ### The record of an instruction -/

section Fields

variable (c : Config) (metadata : String → Option Metadata) (tx : ParsedTx)

/-- `metadata_dictionary.get(cid, {})`. -/
def metadataOf (cid : String) : Metadata := (metadata cid).getD fun _ ↦ none

/-- The record that `handle_init_user` and `handle_init_user_sol` make of the last one, with one
of its accounts set. -/
def userRevision (column account : String) (row : Row) : Fields where
  txhash := tx.txSig
  columns := c.user.cloneModel row
    |> c.user.set column (.str account)
    |> c.user.set "slot" (.int tx.slot)

/-- The record of `handle_create_user`. -/
def newUser (data : CreateUserData) : Fields where
  txhash := tx.txSig
  columns := (fun _ ↦ .none)
    |> c.user.set "blockhash" .none
    |> c.user.set "blocknumber" .none
    |> c.user.set "slot" (.int tx.slot)
    |> c.user.set "user_storage_account" (.str data.user)
    |> c.user.set "user_authority_account" (.str data.userAuthority)
    |> c.user.set "wallet" (.str (c.toChecksumAddress data.ethAddress))
    |> c.user.set "metadata_multihash" (.str data.metadata)
    |> c.user.set "primary_id" (.int data.replicaSet.1)
    |> c.user.set "secondary_ids" (.list [.int data.replicaSet.2.1, .int data.replicaSet.2.2])
    |> c.user.set "created_at" (.int tx.blockTime)
    |> c.user.set "updated_at" (.int tx.blockTime)
    |> updateUserModelMetadata c.user (metadataOf metadata data.metadata)

variable (data : ManageEntityData)

/-- The record of a `Create` in `handle_manage_entity`. -/
def newDigitalContent : Except String Fields := do
  let s := c.digitalContent
  let columns := (fun _ ↦ .none)
    |> s.set "slot" (.int tx.slot)
    |> s.set "owner_id" (.int data.userId)
    |> s.set "metadata_multihash" (.str data.metadata)
    |> s.set "is_delete" (.bool false)
    |> s.set "created_at" (.int tx.blockTime)
    |> s.set "updated_at" (.int tx.blockTime)
  let columns ←
    updateDigitalContentModelMetadata c (metadataOf metadata data.metadata) columns
  return ⟨tx.txSig, columns⟩

/-- The record of an `Update` in `handle_manage_entity`. -/
def digitalContentRevision (row : Row) : Except String Fields := do
  let s := c.digitalContent
  let columns := s.cloneModel row
    |> s.set "slot" (.int tx.slot)
    |> s.set "metadata_multihash" (.str data.metadata)
  let columns ←
    updateDigitalContentModelMetadata c (metadataOf metadata data.metadata) columns
  return ⟨tx.txSig, columns⟩

end Fields

/-! ### Handlers -/

/-- The records of one table in `db_models`, those found in the database and, in the order of
`records`, the new ones. -/
structure Models where
  loaded : List Row
  records : List Row

namespace Models

variable (m : Models)

/-- `db_models[...].get(id)`; there is none when the list is empty. -/
def get (id : ℕ) : List Row := versionsOf id (m.loaded ++ m.records)

/-- Add a record, after taking `is_current` from the prior ones of the entity or not. -/
def write (w : Lib.Write ℕ Fields) : Models where
  loaded := if w.demotes then m.loaded.map (Version.demoteIf (· = w.id)) else m.loaded
  records := Lib.write m.records w

end Models

structure DbModels where
  users : Models
  digitalContents : Models

section Handlers

variable (c : Config) (metadata : String → Option Metadata) (tx : ParsedTx) (m : DbModels)

/-- The common part of `handle_init_user` and `handle_init_user_sol`. -/
def reviseUser (userId : ℕ) (column account : String) : Except String DbModels :=
  match (m.users.get userId).getLast? with
  | none => .error "TypeError: 'NoneType' object is not subscriptable"
  | some row =>
    .ok { m with users := m.users.write ⟨true, userId, userRevision c tx column account row⟩ }

/-- `coliving_data_transaction_handlers.py:84–126`. -/
def handleInitUser (userId : ℕ) (user : String) : Except String DbModels :=
  reviseUser c tx m userId "user_storage_account" user

/-- `coliving_data_transaction_handlers.py:129–161`. -/
def handleInitUserSol (userAuthority : String) : Option ℕ → Except String DbModels
  | none => .error "KeyError: user_id"
  | some userId => reviseUser c tx m userId "user_authority_account" userAuthority

/-- `coliving_data_transaction_handlers.py:175–214`. -/
def handleCreateUser (data : CreateUserData) : DbModels :=
  { m with users := m.users.write ⟨false, data.userId, newUser c metadata tx data⟩ }

/-- `coliving_data_transaction_handlers.py:247–312`. -/
def handleManageEntity (data : ManageEntityData) : Except String DbModels :=
  let rows := m.digitalContents.get data.id
  match data.managementAction, data.entityType with
  | .create, .digitalContent =>
    if rows ≠ [] then .ok m
    else do
      let fields ← newDigitalContent c metadata tx data
      return { m with digitalContents := m.digitalContents.write ⟨false, data.id, fields⟩ }
  | .update, .digitalContent =>
    match rows.getLast? with
    | none => .ok m
    | some row => do
      let fields ← digitalContentRevision c metadata tx data row
      return { m with digitalContents := m.digitalContents.write ⟨true, data.id, fields⟩ }
  | _, _ => .ok m

/-- `transaction_handlers`. -/
def handle : Instruction → Except String DbModels
  | .initUser userId user => handleInitUser c tx m userId user
  | .initUserSol _ userAuthority userId => handleInitUserSol c tx m userAuthority userId
  | .createUser data => .ok (handleCreateUser c metadata tx m data)
  | .manageEntity data => handleManageEntity c metadata tx m data
  | .other _ => .ok m

end Handlers

/-! ### The batch -/

/-- What `extract_ids` collects. -/
structure EntityIds where
  users : List ℕ
  digitalContents : List ℕ
  userStorageToId : String → Option ℕ

/-- The row has the storage account. -/
def hasAccount (row : Row) : Bool :=
  match row.data.columns "user_storage_account" with
  | .str s => s = account
  | _ => false

/-- A current user with the storage account, `anchor_program_indexer.py:202–209`. -/
def currentWithAccount : Option ℕ :=
  (users.find? fun row ↦ row.isCurrent && hasAccount account row).map Version.id

/-- `anchor_program_indexer.py:180–251`, one instruction; failed transactions are not left out. -/
def extractId (ids : EntityIds) (p : Parsed) : Except String (EntityIds × Parsed) :=
  match p.instruction with
  | .initUser userId user =>
    .ok ({ ids with
      users := ids.users ++ [userId]
      userStorageToId := Function.update ids.userStorageToId user (some userId) }, p)
  | .initUserSol user userAuthority _ =>
    match (ids.userStorageToId user).or (currentWithAccount users user) with
    | none => .error "TypeError: 'NoneType' object is not subscriptable"
    | some userId =>
      .ok ({ ids with users := ids.users ++ [userId] },
        { p with instruction := .initUserSol user userAuthority (some userId) })
  | .manageEntity data =>
    if data.entityType = .digitalContent then
      .ok ({ ids with digitalContents := ids.digitalContents ++ [data.id] }, p)
    else .ok (ids, p)
  | _ => .ok (ids, p)

/-- `extract_ids`, with the instructions it embeds user ids in. -/
def extractIds (users : List Row) : EntityIds → List Parsed →
    Except String (EntityIds × List Parsed)
  | ids, [] => .ok (ids, [])
  | ids, p :: rest => do
    let (ids, p) ← extractId users ids p
    let (ids, rest) ← extractIds users ids rest
    return (ids, p :: rest)

/-- `anchor_program_indexer.py:140–161`; failed transactions are skipped. -/
def processTransactions (c : Config) (metadata : String → Option Metadata) :
    DbModels → List Parsed → Except String DbModels
  | m, [] => .ok m
  | m, p :: rest =>
    if p.tx.err then processTransactions c metadata m rest
    else do
      let m ← handle c metadata p.tx m p.instruction
      processTransactions c metadata m rest

/-- `db_models[...][id] = [row]` for the current rows, `anchor_program_indexer.py:102–124`. -/
def load (ids : List ℕ) : List Row :=
  (rows.filter fun row ↦ row.isCurrent ∧ row.id ∈ ids).foldl
    (fun loaded row ↦ (loaded.filter fun other ↦ other.id ≠ row.id) ++ [row]) []

/-- The current rows of the users in `db_models` are demoted, lines 167–174. -/
def invalidateOldRecords (m : Models) : List Row :=
  users.map fun row ↦ row.demoteIf fun id ↦ row.isCurrent && !(m.get id).isEmpty

/-- Write a table; a primary key may not occur twice. -/
def saveRows (stored records : List Row) : Except String (List Row) := do
  require (∀ row ∈ records, s.accepts row.data.columns = true) "IntegrityError: not accepted"
  require ((stored ++ records).map key).Nodup "IntegrityError: UniqueViolation"
  return stored ++ records

/-- The loaded rows that were demoted are flushed: with the query that demotes users, if there are
users, before the new rows are saved, else after them. -/
def saveDigitalContents (m : Models) (flushed : Bool) :
    Except String (List Row) := do
  let demoted := rows.map fun row ↦ row.demoteIf fun id ↦
    row.isCurrent && (versionsOf id m.loaded).any fun other ↦ !other.isCurrent
  require (flushed = true ∨ ((rows ++ m.records).map key).Nodup) "IntegrityError: UniqueViolation"
  saveRows s demoted m.records

/-- `anchor_program_indexer.py:83–130`: one session, rolled back when anything fails. -/
def validateAndSaveParsedTxRecords (db : Database) (batch : List ParsedTx)
    (metadata : String → Option Metadata) : Except String Database := do
  let txs := db.colivingDataTxs ++ batch.map fun tx ↦ (tx.txSig, tx.slot)
  require (txs.map Prod.fst).Nodup "IntegrityError: UniqueViolation"
  let (ids, parsed) ← extractIds db.users ⟨[], [], fun _ ↦ none⟩ (instructionsOf batch)
  let m ← processTransactions c metadata
    ⟨⟨load db.users ids.users, []⟩, ⟨load db.digitalContents ids.digitalContents, []⟩⟩ parsed
  let users ← saveRows c.user (invalidateOldRecords db.users m.users) m.users.records
  let digitalContents ← saveDigitalContents c.digitalContent db.digitalContents m.digitalContents
    (!(m.users.loaded ++ m.users.records).isEmpty)
  return ⟨users, digitalContents, txs⟩

end ColivingSpec.AnchorRecords
