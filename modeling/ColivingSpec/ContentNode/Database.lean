import ColivingSpec.ContentNode.Models
import ColivingSpec.Lib.Table

/-!
# The database of a content node

The tables that syncing reads and writes, with their unique keys and references, and the calls of
`DBManager`. A call that runs in a transaction of its own returns the database it commits.
-/

namespace ColivingSpec

open Lib

/-- A point in time. -/
abbrev Timestamp := ℕ

/-- A row of `CNodeUsers`: `cNodeUser.js:4–31`. -/
structure CNodeUser where
  cnodeUserUUID : UUID
  walletPublicKey : Wallet
  lastLogin : Option Timestamp
  latestBlockNumber : ℤ
  clock : ℤ
  createdAt : Timestamp
  updatedAt : Timestamp
  deriving DecidableEq, Repr

/-- A row of `ContentLists`: `contentList.js:4–35`. -/
structure ContentList where
  cnodeUserUUID : UUID
  clock : ℤ
  blockchainId : ℕ
  metadataFileUUID : UUID
  metadataJSON : MetadataJSON
  contentListImageFileUUID : Option UUID
  deriving DecidableEq, Repr

/-- A row of `SessionTokens`. -/
structure SessionToken where
  cnodeUserUUID : UUID
  token : String
  deriving DecidableEq, Repr

/-- The tables. -/
structure Database where
  cnodeUsers : List CNodeUser
  clockRecords : List ClockRecord
  files : List File
  digitalContents : List DigitalContent
  colivingUsers : List ColivingUser
  contentLists : List ContentList
  sessionTokens : List SessionToken
  deriving DecidableEq, Repr

/-- The rows of a wallet that are synced. -/
structure WalletRows where
  cnodeUsers : List CNodeUser
  clockRecords : List ClockRecord
  colivingUsers : List ColivingUser
  digitalContents : List DigitalContent
  files : List File
  deriving DecidableEq, Repr

namespace Database

variable (db : Database)

variable (uuid : UUID) (wallet : Wallet)

/-- The row that a reference to `CNodeUsers` names. -/
def hasCNodeUser : Bool := db.cnodeUsers.any fun user ↦ user.cnodeUserUUID = uuid

/-- The row that a reference to `ClockRecords` names. -/
def hasClockRecord (clock : ℤ) : Bool :=
  db.clockRecords.any fun record ↦ record.cnodeUserUUID = uuid ∧ record.clock = clock

/-- The row that a reference to `Files` names. -/
def hasFile : Bool := db.files.any fun file ↦ file.fileUUID = uuid

/-- A reference that can be null. -/
def hasFileIfAny (uuid : Option UUID) : Bool := uuid.elim true db.hasFile

/-- `CNodeUsers`: `cnodeUserUUID` and `walletPublicKey` are unique. -/
def cnodeUserTable : Table Database CNodeUser where
  rows := cnodeUsers
  put db rows := { db with cnodeUsers := rows }
  clash a b := a.cnodeUserUUID = b.cnodeUserUUID ∨ a.walletPublicKey = b.walletPublicKey
  resolves _ _ := true
  rows_put _ _ := rfl
  put_rows _ := rfl
  put_put _ _ _ := rfl
  resolves_put _ _ _ := rfl

/-- `ClockRecords`: `(cnodeUserUUID, clock)` is unique. -/
def clockRecordTable : Table Database ClockRecord where
  rows := clockRecords
  put db rows := { db with clockRecords := rows }
  clash a b := a.cnodeUserUUID = b.cnodeUserUUID ∧ a.clock = b.clock
  resolves db record := db.hasCNodeUser record.cnodeUserUUID
  rows_put _ _ := rfl
  put_rows _ := rfl
  put_put _ _ _ := rfl
  resolves_put _ _ _ := rfl

/-- `Files`: `fileUUID` and `(cnodeUserUUID, clock)` are unique. -/
def fileTable : Table Database File where
  rows := files
  put db rows := { db with files := rows }
  clash a b := a.fileUUID = b.fileUUID ∨ a.cnodeUserUUID = b.cnodeUserUUID ∧ a.clock = b.clock
  resolves db file :=
    db.hasCNodeUser file.cnodeUserUUID && db.hasClockRecord file.cnodeUserUUID file.clock
  rows_put _ _ := rfl
  put_rows _ := rfl
  put_put _ _ _ := rfl
  resolves_put _ _ _ := rfl

/-- `DigitalContents`: `(cnodeUserUUID, clock)` and `(blockchainId, clock)` are unique. -/
def digitalContentTable : Table Database DigitalContent where
  rows := digitalContents
  put db rows := { db with digitalContents := rows }
  clash a b := (a.cnodeUserUUID = b.cnodeUserUUID ∨ a.blockchainId = b.blockchainId) ∧
    a.clock = b.clock
  resolves db content := db.hasCNodeUser content.cnodeUserUUID &&
    db.hasClockRecord content.cnodeUserUUID content.clock &&
    db.hasFile content.metadataFileUUID && db.hasFileIfAny content.coverArtFileUUID
  rows_put _ _ := rfl
  put_rows _ := rfl
  put_put _ _ _ := rfl
  resolves_put _ _ _ := rfl

/-- `ColivingUsers`: `(cnodeUserUUID, clock)` and `(blockchainId, clock)` are unique. -/
def colivingUserTable : Table Database ColivingUser where
  rows := colivingUsers
  put db rows := { db with colivingUsers := rows }
  clash a b := (a.cnodeUserUUID = b.cnodeUserUUID ∨ a.blockchainId = b.blockchainId) ∧
    a.clock = b.clock
  resolves db user := db.hasCNodeUser user.cnodeUserUUID &&
    db.hasClockRecord user.cnodeUserUUID user.clock && db.hasFile user.metadataFileUUID &&
    db.hasFileIfAny user.coverArtFileUUID && db.hasFileIfAny user.profilePicFileUUID
  rows_put _ _ := rfl
  put_rows _ := rfl
  put_put _ _ _ := rfl
  resolves_put _ _ _ := rfl

/-- `CNodeUser.findOne({ where: { walletPublicKey } })`. -/
def findCNodeUser : Option CNodeUser :=
  db.cnodeUsers.find? fun user ↦ user.walletPublicKey = wallet

/-- The row is of a user with the wallet. -/
def ofWallet (uuid : UUID) : Bool :=
  db.cnodeUsers.any fun user ↦ user.walletPublicKey = wallet ∧ user.cnodeUserUUID = uuid

/-- The rows of a wallet. -/
def walletRows : WalletRows where
  cnodeUsers := db.cnodeUsers.filter fun user ↦ user.walletPublicKey = wallet
  clockRecords := db.clockRecords.filter fun record ↦ db.ofWallet wallet record.cnodeUserUUID
  colivingUsers := db.colivingUsers.filter fun user ↦ db.ofWallet wallet user.cnodeUserUUID
  digitalContents := db.digitalContents.filter fun content ↦
    db.ofWallet wallet content.cnodeUserUUID
  files := db.files.filter fun file ↦ db.ofWallet wallet file.cnodeUserUUID

/-- `ClockRecord.max('clock', { where: { cnodeUserUUID } })`. -/
def maxClock : Option ℤ :=
  ((db.clockRecords.filter fun record ↦ record.cnodeUserUUID = uuid).map ClockRecord.clock).max?

/-! ### `DBManager` -/

/-- No row refers to a file that is to be deleted. -/
def filesUnreferenced (deleted : File → Bool) : Bool :=
  db.files.all fun file ↦ !deleted file ||
    (db.digitalContents.all fun content ↦
      content.metadataFileUUID ≠ file.fileUUID ∧ content.coverArtFileUUID ≠ some file.fileUUID) &&
    (db.colivingUsers.all fun user ↦ user.metadataFileUUID ≠ file.fileUUID ∧
      user.coverArtFileUUID ≠ some file.fileUUID ∧ user.profilePicFileUUID ≠ some file.fileUUID) &&
    (db.contentLists.all fun list ↦
      list.metadataFileUUID ≠ file.fileUUID ∧ list.contentListImageFileUUID ≠ some file.fileUUID)

/-- `File.destroy`, restricted by the references to files. -/
def destroyFiles (deleted : File → Bool) : Except String Database := do
  require (db.filesUnreferenced deleted)
    "update or delete on table \"Files\" violates foreign key constraint"
  return { db with files := db.files.filter fun file ↦ !deleted file }

/-- `dbManager.js:81–141`: the deletions, in order. Of what refers to the user's clock records and
to the user, only content lists are still there when these are deleted. -/
def deleteAllCNodeUserData : Except String Database := do
  let db := { db with colivingUsers := db.colivingUsers.filter (·.cnodeUserUUID ≠ uuid) }
  let db ← db.destroyFiles fun file ↦
    file.cnodeUserUUID = uuid ∧ file.digitalContentBlockchainId.isSome
  let db := { db with digitalContents := db.digitalContents.filter (·.cnodeUserUUID ≠ uuid) }
  let db ← db.destroyFiles fun file ↦ file.cnodeUserUUID = uuid
  let db := { db with
    clockRecords := db.clockRecords.filter (·.cnodeUserUUID ≠ uuid)
    sessionTokens := db.sessionTokens.filter (·.cnodeUserUUID ≠ uuid) }
  require (db.contentLists.all (·.cnodeUserUUID ≠ uuid))
    "update or delete on table \"CNodeUsers\" violates foreign key constraint"
  return { db with cnodeUsers := db.cnodeUsers.filter (·.cnodeUserUUID ≠ uuid) }

/-- `dbManager.js:64–165` with a wallet and a transaction of its own, which is rolled back when a
deletion is refused. -/
def deleteAllCNodeUserDataFromDB (lookupWallet : Wallet) : Database :=
  match db.findCNodeUser lookupWallet with
  | none => db
  | some cnodeUser =>
    match db.deleteAllCNodeUserData cnodeUser.cnodeUserUUID with
    | .ok db' => db'
    | .error _ => db

/-- `dbManager.js:309–330`: the clock of the user becomes that of its last clock record. -/
def fixInconsistentUser (userUUID : UUID) : Database :=
  match db.maxClock userUUID with
  | none => db
  | some maxClock =>
    { db with cnodeUsers := db.cnodeUsers.map fun user ↦
        if user.cnodeUserUUID = userUUID then { user with clock := maxClock } else user }

/-! ### The hook of `ClockRecord` -/

/-- `clockRecord.js:130–142`: each clock is the previous one plus one. -/
def contiguousFrom (previousClock : ℤ) : List ℤ → Bool
  | [] => true
  | clock :: rest => clock = previousClock + 1 && contiguousFrom clock rest

/-- `clockRecord.js:85–143`: what a list of clock records has to meet to be inserted. -/
def beforeBulkCreate : List ClockRecord → Except String Unit
  | [] => .ok ()
  | first :: rest => do
    require (0 < first.clock) "Clock value must be > 0"
    let currentMaxClock := (db.maxClock first.cnodeUserUUID).getD 0
    require (currentMaxClock = 0 → first.clock = 1)
      "First clockRecord for cnodeUser must have clock value 1"
    require (currentMaxClock ≠ 0 → first.clock = currentMaxClock + 1)
      "Can only insert contiguous clock values."
    require (contiguousFrom first.clock (rest.map ClockRecord.clock))
      "Can only insert contiguous clock values."

/-- `ClockRecord.bulkCreate`, with its hook. -/
def bulkCreateClockRecords (records : List ClockRecord) : Except String Database := do
  db.beforeBulkCreate records
  clockRecordTable.bulkCreate db records

end Database

end ColivingSpec
