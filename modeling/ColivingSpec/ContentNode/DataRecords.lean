import ColivingSpec.ContentNode.Database

/-!
# Data records

The rows of the tables that have a clock, and the call that writes one under the next clock of its
user. Two records have the same content when they differ in their clock and UUIDs only.
-/

namespace ColivingSpec

open Lib

/-- A row of `ColivingUsers`, `DigitalContents` or `Files`. -/
inductive DataRecord where
  | colivingUser (row : ColivingUser)
  | digitalContent (row : DigitalContent)
  | file (row : File)
  deriving DecidableEq, Repr

namespace DataRecord

/-- The clock of a record. -/
def clock : DataRecord → ℤ
  | .colivingUser row => row.clock
  | .digitalContent row => row.clock
  | .file row => row.clock

/-- The user of a record. -/
def cnodeUserUUID : DataRecord → UUID
  | .colivingUser row => row.cnodeUserUUID
  | .digitalContent row => row.cnodeUserUUID
  | .file row => row.cnodeUserUUID

/-- `sequelizeTableInstance.name`. -/
def sourceTable : DataRecord → SourceTable
  | .colivingUser _ => .ColivingUser
  | .digitalContent _ => .DigitalContent
  | .file _ => .File

/-- `dbManager.js:46–48`: the record under a user and a clock. -/
def stamped (cnodeUserUUID : UUID) (clock : ℤ) : DataRecord → DataRecord
  | .colivingUser row =>
    .colivingUser { row with cnodeUserUUID := cnodeUserUUID, clock := clock }
  | .digitalContent row =>
    .digitalContent { row with cnodeUserUUID := cnodeUserUUID, clock := clock }
  | .file row => .file { row with cnodeUserUUID := cnodeUserUUID, clock := clock }

/-- The record without its clock and its UUIDs. -/
def content : DataRecord → DataRecord
  | .colivingUser row =>
    .colivingUser { row with
      cnodeUserUUID := ""
      clock := 0
      metadataFileUUID := ""
      coverArtFileUUID := row.coverArtFileUUID.map fun _ ↦ ""
      profilePicFileUUID := row.profilePicFileUUID.map fun _ ↦ "" }
  | .digitalContent row =>
    .digitalContent { row with
      cnodeUserUUID := ""
      clock := 0
      metadataFileUUID := ""
      coverArtFileUUID := row.coverArtFileUUID.map fun _ ↦ "" }
  | .file row => .file { row with fileUUID := "", cnodeUserUUID := "", clock := 0 }

variable (uuid : UUID) (n : ℤ) (record : DataRecord)

@[simp] theorem cnodeUserUUID_stamped : (record.stamped uuid n).cnodeUserUUID = uuid := by
  cases record <;> rfl

@[simp] theorem content_stamped : (record.stamped uuid n).content = record.content := by
  cases record <;> rfl

end DataRecord

/-- The rows of three lists. -/
def recordsOf (colivingUsers : List ColivingUser) (digitalContents : List DigitalContent)
    (files : List File) : List DataRecord :=
  colivingUsers.map .colivingUser ++ digitalContents.map .digitalContent ++ files.map .file

section RecordsOf

variable {colivingUsers : List ColivingUser} {digitalContents : List DigitalContent}
variable {files : List File}

@[simp] theorem colivingUser_mem_recordsOf {row : ColivingUser} :
    .colivingUser row ∈ recordsOf colivingUsers digitalContents files ↔ row ∈ colivingUsers := by
  simp [recordsOf]

@[simp] theorem digitalContent_mem_recordsOf {row : DigitalContent} :
    .digitalContent row ∈ recordsOf colivingUsers digitalContents files ↔
      row ∈ digitalContents := by
  simp [recordsOf]

@[simp] theorem file_mem_recordsOf {row : File} :
    .file row ∈ recordsOf colivingUsers digitalContents files ↔ row ∈ files := by
  simp [recordsOf]

end RecordsOf

namespace Database

variable (db : Database)

/-- The rows of the three tables. -/
def dataRecords : List DataRecord := recordsOf db.colivingUsers db.digitalContents db.files

/-- The rows of a wallet in the three tables. -/
def dataRecordsOf (wallet : Wallet) : List DataRecord :=
  db.dataRecords.filter fun record ↦ db.ofWallet wallet record.cnodeUserUUID

/-- `sequelizeTableInstance.create`. -/
def create : DataRecord → Except String Database
  | .colivingUser row => colivingUserTable.insert db row
  | .digitalContent row => digitalContentTable.insert db row
  | .file row => fileTable.insert db row

/-- `CNodeUser.increment('clock', { where: { cnodeUserUUID }, by: 1 })`. -/
def incrementClock (cnodeUserUUID : UUID) : Database :=
  { db with cnodeUsers := db.cnodeUsers.map fun user ↦
      if user.cnodeUserUUID = cnodeUserUUID then { user with clock := user.clock + 1 } else user }

/-- `dbManager.js:342–348`: the subquery for the clock of a user. -/
def selectCNodeUserClock (cnodeUserUUID : UUID) : Option ℤ :=
  (db.cnodeUsers.find? fun user ↦ user.cnodeUserUUID = cnodeUserUUID).map CNodeUser.clock

/-- `dbManager.js:20–56`: the clock of the user goes up, and the record is written under it, with
a clock record. The clock being a subquery, the hook of `ClockRecord` lets it pass. -/
def createNewDataRecord (queryObj : DataRecord) (cnodeUserUUID : UUID) :
    Except String Database :=
  let db := db.incrementClock cnodeUserUUID
  match db.selectCNodeUserClock cnodeUserUUID with
  | none => .error "null value in column \"clock\" violates not-null constraint"
  | some clock => do
    let db ← clockRecordTable.insert db ⟨cnodeUserUUID, clock, queryObj.sourceTable⟩
    db.create (queryObj.stamped cnodeUserUUID clock)

/-! ### What a call leaves -/

variable {db} {db' : Database} {record : DataRecord} {wallet : Wallet} {uuid : UUID}

theorem mem_dataRecordsOf : record ∈ db.dataRecordsOf wallet ↔
    record ∈ db.dataRecords ∧ db.ofWallet wallet record.cnodeUserUUID = true :=
  List.mem_filter

/-- The row is added to those that are there. -/
theorem create_eq_ok (h : db.create record = .ok db') :
    db'.cnodeUsers = db.cnodeUsers ∧
      ∀ held, held ∈ db'.dataRecords ↔ held ∈ db.dataRecords ∨ held = record := by
  cases record with
  | colivingUser row =>
    obtain ⟨-, -, rfl⟩ := Table.insert_eq_ok.mp h
    refine ⟨rfl, fun held ↦ ?_⟩
    cases held <;> simp [dataRecords, colivingUserTable]
  | digitalContent row =>
    obtain ⟨-, -, rfl⟩ := Table.insert_eq_ok.mp h
    refine ⟨rfl, fun held ↦ ?_⟩
    cases held <;> simp [dataRecords, digitalContentTable]
  | file row =>
    obtain ⟨-, -, rfl⟩ := Table.insert_eq_ok.mp h
    refine ⟨rfl, fun held ↦ ?_⟩
    cases held <;> simp [dataRecords, fileTable]

/-- A clock that goes up leaves whose rows are whose. -/
theorem ofWallet_incrementClock (cnodeUserUUID : UUID) :
    (db.incrementClock cnodeUserUUID).ofWallet wallet uuid = db.ofWallet wallet uuid := by
  unfold incrementClock ofWallet
  rw [List.any_map]
  congr 1
  funext user
  simp only [Function.comp_apply]
  split <;> rfl

theorem ofWallet_congr (h : db'.cnodeUsers = db.cnodeUsers) :
    db'.ofWallet wallet uuid = db.ofWallet wallet uuid := by
  unfold ofWallet
  rw [h]

/-- What a call writes: the record under its user and some clock, and nothing else in the tables
of data. -/
theorem createNewDataRecord_eq_ok (wallet : Wallet) {cnodeUserUUID : UUID}
    (h : db.createNewDataRecord record cnodeUserUUID = .ok db') :
    (∀ uuid, db'.ofWallet wallet uuid = db.ofWallet wallet uuid) ∧
      ∃ clock, ∀ held, held ∈ db'.dataRecords ↔
        held ∈ db.dataRecords ∨ held = record.stamped cnodeUserUUID clock := by
  simp only [createNewDataRecord] at h
  split at h
  · cases h
  · next clock hclock =>
    obtain ⟨mid, hmid, h⟩ := bind_eq_ok.mp h
    obtain ⟨-, -, rfl⟩ := Table.insert_eq_ok.mp hmid
    obtain ⟨husers, hrecords⟩ := create_eq_ok h
    refine ⟨fun uuid ↦ ?_, clock, hrecords⟩
    exact (ofWallet_congr husers).trans (ofWallet_incrementClock cnodeUserUUID)

end Database

end ColivingSpec
