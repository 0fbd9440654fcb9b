import ColivingSpec.ContentNode.PrimarySyncFromSecondary
import ColivingSpec.ContentNode.SyncImports
import ColivingSpec.Lib.RowLocks
import Mathlib.Algebra.Order.Group.Multiset

/-!
# The transactions that write clocks

`createNewDataRecord` and the two syncs, one statement at a time, so that the statements of other
transactions can come between them. The first statement of each updates or creates the row of its
user, whose lock it then holds.
-/

namespace ColivingSpec

open Lib

/-- A row of a table that clock records name. -/
inductive SourceRow where
  | data (record : DataRecord)
  | contentList (row : ContentList)
  deriving DecidableEq, Repr

namespace SourceRow

/-- The clock of a row. -/
def clock : SourceRow → ℤ
  | .data record => record.clock
  | .contentList row => row.clock

/-- The user of a row. -/
def cnodeUserUUID : SourceRow → UUID
  | .data record => record.cnodeUserUUID
  | .contentList row => row.cnodeUserUUID

/-- `sequelizeTableInstance.name`. -/
def sourceTable : SourceRow → SourceTable
  | .data record => record.sourceTable
  | .contentList _ => .ContentList

/-- `dbManager.js:46–48`: the row under a user and a clock. -/
def stamped (cnodeUserUUID : UUID) (clock : ℤ) : SourceRow → SourceRow
  | .data record => .data (record.stamped cnodeUserUUID clock)
  | .contentList row => .contentList { row with cnodeUserUUID := cnodeUserUUID, clock := clock }

/-- What a clock record says of a row. -/
def stamp (row : SourceRow) : ℤ × SourceTable := (row.clock, row.sourceTable)

@[simp] theorem cnodeUserUUID_stamped (uuid : UUID) (n : ℤ) (row : SourceRow) :
    (row.stamped uuid n).cnodeUserUUID = uuid := by
  cases row with
  | data record => exact record.cnodeUserUUID_stamped uuid n
  | contentList row => rfl

@[simp] theorem stamp_stamped (uuid : UUID) (n : ℤ) (row : SourceRow) :
    (row.stamped uuid n).stamp = (n, row.sourceTable) := by
  cases row with
  | data record => cases record <;> rfl
  | contentList row => rfl

end SourceRow

/-- What a clock record says. -/
def ClockRecord.stamp (record : ClockRecord) : ℤ × SourceTable := (record.clock, record.sourceTable)

namespace Database

variable (db : Database)

/-- Writing the content lists back. -/
theorem put_contentLists : { db with contentLists := db.contentLists } = db := rfl

/-- `ContentLists`: `(cnodeUserUUID, clock)` and `(blockchainId, clock)` are unique. -/
def contentListTable : Table Database ContentList where
  rows := contentLists
  put db rows := { db with contentLists := rows }
  clash a b := (a.cnodeUserUUID = b.cnodeUserUUID ∨ a.blockchainId = b.blockchainId) ∧
    a.clock = b.clock
  resolves db list := db.hasCNodeUser list.cnodeUserUUID && db.hasFile list.metadataFileUUID &&
    db.hasFileIfAny list.contentListImageFileUUID
  rows_put _ _ := rfl
  put_rows := put_contentLists
  put_put _ _ _ := rfl
  resolves_put _ _ _ := rfl

/-- The rows of the four tables. -/
def sourceRows : List SourceRow :=
  db.dataRecords.map .data ++ db.contentLists.map .contentList

/-- `sequelizeTableInstance.create`. -/
def createRow : SourceRow → Except String Database
  | .data record => db.create record
  | .contentList row => contentListTable.insert db row

end Database

/-- What a statement writes: rows of `CNodeUsers`, of `ClockRecords`, or of a table that these
name. -/
inductive Write where
  | createCNodeUser (row : CNodeUser)
  | updateCNodeUser (row : CNodeUser)
  | createClockRecord (row : ClockRecord)
  | createRow (row : SourceRow)
  deriving DecidableEq, Repr

namespace Write

/-- The user whose row is written. -/
def cnodeUserUUID : Write → UUID
  | .createCNodeUser row => row.cnodeUserUUID
  | .updateCNodeUser row => row.cnodeUserUUID
  | .createClockRecord row => row.cnodeUserUUID
  | .createRow row => row.cnodeUserUUID

/-- The database with the row. -/
def apply (db : Database) : Write → Database
  | .createCNodeUser row => { db with cnodeUsers := db.cnodeUsers ++ [row] }
  | .updateCNodeUser row => { db with cnodeUsers := db.cnodeUsers.map fun user ↦
      if user.cnodeUserUUID = row.cnodeUserUUID then row else user }
  | .createClockRecord row => { db with clockRecords := db.clockRecords ++ [row] }
  | .createRow (.data (.colivingUser row)) => { db with colivingUsers := db.colivingUsers ++ [row] }
  | .createRow (.data (.digitalContent row)) =>
    { db with digitalContents := db.digitalContents ++ [row] }
  | .createRow (.data (.file row)) => { db with files := db.files ++ [row] }
  | .createRow (.contentList row) => { db with contentLists := db.contentLists ++ [row] }

end Write

/-! ### `createNewDataRecord` -/

namespace ClockStatement

variable (cnodeUserUUID : UUID) (ctx : SyncContext) (wallet : Wallet)

/-- `dbManager.js:26–31`. -/
def incrementClock : Statement Database Write := fun db ↦
  match db.cnodeUsers.find? fun user ↦ user.cnodeUserUUID = cnodeUserUUID with
  | none => .ok []
  | some user => .ok [.updateCNodeUser { user with clock := user.clock + 1 }]

/-- The clock of the user, by the subquery. -/
def currentClock (db : Database) (cnodeUserUUID : UUID) : Except String ℤ :=
  match db.selectCNodeUserClock cnodeUserUUID with
  | none => .error "null value in column \"clock\" violates not-null constraint"
  | some clock => .ok clock

/-- `dbManager.js:37–44`. The hook lets a subquery pass. -/
def createClockRecord (cnodeUserUUID : UUID) (sourceTable : SourceTable) :
    Statement Database Write := fun db ↦ do
  let clock ← currentClock db cnodeUserUUID
  let _ ← Database.clockRecordTable.insert db ⟨cnodeUserUUID, clock, sourceTable⟩
  return [.createClockRecord ⟨cnodeUserUUID, clock, sourceTable⟩]

/-- `dbManager.js:46–53`. -/
def createRow (cnodeUserUUID : UUID) (queryObj : SourceRow) : Statement Database Write :=
  fun db ↦ do
    let clock ← currentClock db cnodeUserUUID
    let _ ← db.createRow (queryObj.stamped cnodeUserUUID clock)
    return [.createRow (queryObj.stamped cnodeUserUUID clock)]

/-- `dbManager.js:20–56`. -/
def createNewDataRecord (queryObj : SourceRow) :
    List (Statement Database Write) :=
  [incrementClock cnodeUserUUID, createClockRecord cnodeUserUUID queryObj.sourceTable,
    createRow cnodeUserUUID queryObj]

/-- `CNodeUser.create`. -/
def createCNodeUser (row : CNodeUser) : Statement Database Write := fun db ↦ do
  let _ ← Database.cnodeUserTable.insert db row
  return [.createCNodeUser row]

/-! ### `secondarySyncFromPrimary` -/

/-- `secondarySyncFromPrimary.js:264–326`. A run names the user in advance: the one of the wallet,
or the one that is created. -/
def saveCNodeUser (cnodeUserUUID : UUID) (fetchedCNodeUser : FetchedCNodeUser) :
    Statement Database Write := fun db ↦
  match db.findCNodeUser wallet with
  | some cnodeUser => do
    require (cnodeUser.cnodeUserUUID = cnodeUserUUID) "the row of another user"
    require (db.cnodeUsers.countP (fun user ↦ user.walletPublicKey = wallet) = 1)
      "Failed to update cnodeUser row"
    return [.updateCNodeUser { cnodeUser with
      lastLogin := fetchedCNodeUser.lastLogin
      latestBlockNumber := fetchedCNodeUser.latestBlockNumber
      clock := fetchedCNodeUser.clock
      createdAt := fetchedCNodeUser.createdAt
      updatedAt := ctx.now }]
  | none => do
    require (ctx.newUUID = cnodeUserUUID) "the row of another user"
    createCNodeUser ⟨cnodeUserUUID, wallet, fetchedCNodeUser.lastLogin,
      fetchedCNodeUser.latestBlockNumber, fetchedCNodeUser.clock, fetchedCNodeUser.createdAt,
      ctx.now⟩ db

/-- `ClockRecord.bulkCreate`, with its hook. -/
def bulkCreateClockRecords (records : List ClockRecord) : Statement Database Write := fun db ↦ do
  let _ ← db.bulkCreateClockRecords records
  return records.map .createClockRecord

/-- `bulkCreate` of another table. -/
def bulkCreate {ρ : Type} (table : Table Database ρ) (toRow : ρ → DataRecord) (rows : List ρ) :
    Statement Database Write := fun db ↦ do
  let _ ← table.bulkCreate db rows
  return rows.map fun row ↦ .createRow (.data (toRow row))

/-- `bulkCreate` of a property of the response. -/
def bulkCreateProperty {ρ : Type} (table : Table Database ρ) (toRow : ρ → DataRecord)
    (written : List ρ → List ρ) (rows : Option (List ρ)) : Statement Database Write := fun db ↦ do
  let rows ← property rows
  bulkCreate table toRow (written rows) db

/-- `secondarySyncFromPrimary.js:247–545`: the transaction for a bundle whose failures are
`failed`. -/
def syncTransaction (cnodeUserUUID : UUID) (fetchedCNodeUser : FetchedCNodeUser)
    (clockRecords : List ClockRecord) (files : List File) (failed : List CID) :
    List (Statement Database Write) :=
  [saveCNodeUser ctx wallet cnodeUserUUID fetchedCNodeUser,
    bulkCreateClockRecords (writtenClockRecords cnodeUserUUID clockRecords),
    bulkCreate Database.fileTable .file (writtenNonDigitalContentFiles cnodeUserUUID failed
      (files.filter (·.typeIn File.NonDigitalContentTypes))),
    bulkCreateProperty Database.digitalContentTable .digitalContent
      (writtenDigitalContents cnodeUserUUID) fetchedCNodeUser.digitalContents,
    bulkCreate Database.fileTable .file (writtenDigitalContentFiles cnodeUserUUID failed
      (files.filter (·.typeIn File.DigitalContentTypes))),
    bulkCreateProperty Database.colivingUserTable .colivingUser
      (writtenColivingUsers cnodeUserUUID) fetchedCNodeUser.colivingUsers]

end ClockStatement

/-- A transaction that writes clocks: the records that a route writes; what a primary merges, with
the user it creates if it has none; a bundle that a secondary syncs. What was read before the first
statement is an argument: the entries that are missing, the local clock, the files that failed. -/
inductive ClockTransaction where
  | createNewDataRecords (cnodeUserUUID : UUID) (queryObjs : List SourceRow)
  | saveEntriesToDB (cnodeUserUUID : UUID) (newCNodeUser : Option CNodeUser)
      (allEntries : List DataRecord)
  | syncFetchedCNodeUser (ctx : SyncContext) (wallet : Wallet) (cnodeUserUUID : UUID)
      (localMaxClockVal : ℤ) (fetchedCNodeUser : FetchedCNodeUser)
      (clockRecords : List ClockRecord) (files : List File) (failed : List CID)

namespace ClockTransaction

/-- The user whose row is locked. -/
def cnodeUserUUID : ClockTransaction → UUID
  | .createNewDataRecords cnodeUserUUID _ => cnodeUserUUID
  | .saveEntriesToDB cnodeUserUUID _ _ => cnodeUserUUID
  | .syncFetchedCNodeUser _ _ cnodeUserUUID _ _ _ _ _ => cnodeUserUUID

/-- The statements. A bundle that the clocks speak against is not written. -/
def statements : ClockTransaction → List (Statement Database Write)
  | .createNewDataRecords cnodeUserUUID queryObjs =>
    queryObjs.flatMap (ClockStatement.createNewDataRecord cnodeUserUUID)
  | .saveEntriesToDB cnodeUserUUID newCNodeUser allEntries =>
    (newCNodeUser.toList.map fun row ↦ ClockStatement.createCNodeUser
      { row with cnodeUserUUID := cnodeUserUUID, clock := 0 }) ++
    allEntries.flatMap fun entry ↦ ClockStatement.createNewDataRecord cnodeUserUUID (.data entry)
  | .syncFetchedCNodeUser ctx wallet cnodeUserUUID localMaxClockVal fetchedCNodeUser clockRecords
      files failed =>
    match checkClocks localMaxClockVal fetchedCNodeUser.clock
        (clockRecords.map ClockRecord.clock) with
    | some _ => []
    | none => ClockStatement.syncTransaction ctx wallet cnodeUserUUID fetchedCNodeUser clockRecords
        files failed

end ClockTransaction

/-- What happens to the database of a node. -/
inductive ClockEvent where
  | start (id : ℕ) (transaction : ClockTransaction)
  | statement (id : ℕ)
  | commit (id : ℕ)
  | rollback (id : ℕ)

/-- The event of the shared store. -/
def ClockEvent.toTransactionEvent : ClockEvent → TransactionEvent Database Write UUID
  | .start id transaction => .start id transaction.cnodeUserUUID transaction.statements
  | .statement id => .statement id
  | .commit id => .commit id
  | .rollback id => .rollback id

end ColivingSpec
