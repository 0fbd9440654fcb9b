import ColivingSpec.ContentNode.ExportComponentService
import ColivingSpec.Lib.Chunks

/-!
# Syncing a secondary from the primary

A secondary asks for the rows of a wallet that come after its own, and writes them in one
transaction. With `forceResync` it deletes its rows first and asks for all of them. The call
returns what is committed when it ends; a transaction that it leaves open commits nothing.
-/

namespace ColivingSpec

open Lib

/-- The results of a call. -/
inductive SyncResult where
  | success
  | failure_sync_in_progress
  | failure_export_wallet
  | failure_malformed_export
  | failure_inconsistent_clock
  | failure_import_not_contiguous
  | failure_import_not_consistent
  | failure_skip_threshold_not_reached
  | failure_db_transaction
  | failure_sync_secondary_from_primary
  deriving DecidableEq, Repr

/-- What comes of the request to `/export`: it is rejected, its status is not 200, it has no body,
its body has no data or no users, or the values of `cnodeUsers`. -/
inductive ExportResponse where
  | rejected
  | status
  | noBody
  | noData
  | noCNodeUsers
  | cnodeUsers (fetched : List FetchedCNodeUser)
  deriving DecidableEq, Repr

/-- The arguments of `saveFileForMultihashToFS` that depend on the file. -/
structure SaveFileArgs where
  multihash : CID
  storagePath : String
  fileNameForImage : Option String
  digitalContentBlockchainId : Option ℕ
  deriving DecidableEq, Repr

/-- What a call depends on beyond its arguments: the configuration, whether the lock is acquired,
which files can be fetched, the time, and the UUID of a user that is created. -/
structure SyncContext where
  nodeSyncFileSaveMaxConcurrency : ℕ
  syncRequestMaxUserFailureCountBeforeSkip : ℕ
  lockAcquired : Bool
  saveFileForMultihashToFS : SaveFileArgs → Bool
  now : Timestamp
  newUUID : UUID

/-- A secondary: its database, and `UserSyncFailureCountManager.failureCounts`. -/
structure Secondary where
  db : Database
  failureCounts : Wallet → Option ℕ

namespace Secondary

variable (node : Secondary) (wallet : Wallet)

/-- `UserSyncFailureCountManager.js:9–11`. -/
def resetFailureCount : Secondary :=
  { node with failureCounts := fun w ↦ if w = wallet then some 0 else node.failureCounts w }

/-- `UserSyncFailureCountManager.js:13–21`. -/
def incrementFailureCount : Secondary × ℕ :=
  let count := (node.failureCounts wallet).getD 0 + 1
  ({ node with failureCounts := fun w ↦ if w = wallet then some count else node.failureCounts w },
    count)

end Secondary

/-- A property that is read must be there. -/
def property {α : Type} : Option α → Except String α
  | some a => .ok a
  | none => .error "TypeError"

variable (ctx : SyncContext)

/-- `secondarySyncFromPrimary.js:204–244`: whether a bundle is to be written. -/
def checkClocks (localMaxClockVal clock : ℤ) (fetchedClocks : List ℤ) : Option SyncResult :=
  if clock < localMaxClockVal then some .failure_inconsistent_clock
  else if clock = localMaxClockVal then some .success
  else if localMaxClockVal ≠ -1 ∧ fetchedClocks.head?.any (· ≠ localMaxClockVal + 1) then
    some .failure_import_not_contiguous
  else if fetchedClocks ≠ [] ∧ fetchedClocks.max? ≠ some clock then
    some .failure_import_not_consistent
  else none

variable (db : Database) (node : Secondary)

variable (wallet : Wallet) (failed : List CID) (localMaxClockVal : ℤ)

/-- `secondarySyncFromPrimary.js:264–326`: the user is updated if there is one, else created. No
user is returned if the update is not of one row. -/
def saveCNodeUser (fetchedCNodeUser : FetchedCNodeUser) :
    Except String (Database × Option UUID) :=
  match db.findCNodeUser wallet with
  | some cnodeUser =>
    let db' := { db with cnodeUsers := db.cnodeUsers.map fun user ↦
      if user.walletPublicKey = wallet then
        { user with
          lastLogin := fetchedCNodeUser.lastLogin
          latestBlockNumber := fetchedCNodeUser.latestBlockNumber
          clock := fetchedCNodeUser.clock
          createdAt := fetchedCNodeUser.createdAt
          updatedAt := ctx.now }
      else user }
    if db.cnodeUsers.countP (fun user ↦ user.walletPublicKey = wallet) = 1 then
      .ok (db', some cnodeUser.cnodeUserUUID)
    else .ok (db', none)
  | none => do
    let db' ← Database.cnodeUserTable.insert db ⟨ctx.newUUID, wallet, fetchedCNodeUser.lastLogin,
      fetchedCNodeUser.latestBlockNumber, fetchedCNodeUser.clock, fetchedCNodeUser.createdAt,
      ctx.now⟩
    return (db', some ctx.newUUID)

/-- `secondarySyncFromPrimary.js:374–382`. -/
def digitalContentFileArgs (file : File) : SaveFileArgs :=
  ⟨file.multihash, file.storagePath, none, file.digitalContentBlockchainId⟩

/-- `secondarySyncFromPrimary.js:414–437`: the name is passed for an image in a directory. -/
def nonDigitalContentFileArgs (file : File) : SaveFileArgs :=
  ⟨file.multihash, file.storagePath, if file.type = some .image then file.fileName else none, none⟩

/-- `secondarySyncFromPrimary.js:352–446`: the CIDs that are not saved, in batches. Directories
are skipped over. -/
def failedCIDs (digitalContentFiles nonDigitalContentFiles : List File) : List CID :=
  let digitalContentCIDs := overSlices ctx.nodeSyncFileSaveMaxConcurrency
    (fun failed slice ↦ failed ++ (slice.filter fun file ↦
      !ctx.saveFileForMultihashToFS (digitalContentFileArgs file)).map File.multihash)
    [] digitalContentFiles
  overSlices ctx.nodeSyncFileSaveMaxConcurrency
    (fun failed slice ↦ failed ++ (slice.filter fun file ↦ file.type ≠ some .dir ∧
      !ctx.saveFileForMultihashToFS (nonDigitalContentFileArgs file)).map File.multihash)
    digitalContentCIDs nonDigitalContentFiles

/-- `secondarySyncFromPrimary.js:452–483`: whether the sync goes on with the failures. -/
def countFailures : Secondary × Bool :=
  if failed ≠ [] then
    let (node', userSyncFailureCount) := node.incrementFailureCount wallet
    if userSyncFailureCount < ctx.syncRequestMaxUserFailureCountBeforeSkip then (node', false)
    else (node'.resetFailureCount wallet, true)
  else (node.resetFailureCount wallet, true)

/-- A file that was not saved is marked. -/
def markSkipped (file : File) : File :=
  { file with skipped := file.skipped || failed.contains file.multihash }

/-- `secondarySyncFromPrimary.js:489–543`: the rows, under the UUID of the local user. -/
def saveRows (cnodeUserUUID : UUID) (failed : List CID) (clockRecords : List ClockRecord)
    (digitalContentFiles nonDigitalContentFiles : List File)
    (digitalContents : Option (List DigitalContent)) (colivingUsers : Option (List ColivingUser)) :
    Except String Database := do
  let db ← db.bulkCreateClockRecords
    (clockRecords.map fun record ↦ { record with cnodeUserUUID := cnodeUserUUID })
  let db ← Database.fileTable.bulkCreate db (nonDigitalContentFiles.map fun file ↦
    { markSkipped failed file with
      digitalContentBlockchainId := none
      cnodeUserUUID := cnodeUserUUID })
  let digitalContents ← property digitalContents
  let db ← Database.digitalContentTable.bulkCreate db
    (digitalContents.map fun content ↦ { content with cnodeUserUUID := cnodeUserUUID })
  let db ← Database.fileTable.bulkCreate db (digitalContentFiles.map fun file ↦
    { markSkipped failed file with cnodeUserUUID := cnodeUserUUID })
  let colivingUsers ← property colivingUsers
  Database.colivingUserTable.bulkCreate db
    (colivingUsers.map fun user ↦ { user with cnodeUserUUID := cnodeUserUUID })

/-- How a transaction ends. -/
inductive TransactionEnd where
  | committed (db : Database)
  | leftOpen (result : SyncResult)
  | threw (message : String)
  deriving DecidableEq, Repr

/-- `secondarySyncFromPrimary.js:247–545`: the transaction for a bundle. -/
def syncTransaction (fetchedCNodeUser : FetchedCNodeUser) (clockRecords : List ClockRecord) :
    Secondary × TransactionEnd :=
  match saveCNodeUser ctx node.db wallet fetchedCNodeUser with
  | .error message => (node, .threw message)
  | .ok (_, none) => (node, .leftOpen .failure_db_transaction)
  | .ok (db, some cnodeUserUUID) =>
    match fetchedCNodeUser.files with
    | none => (node, .threw "TypeError")
    | some files =>
      let digitalContentFiles := files.filter (·.typeIn File.DigitalContentTypes)
      let nonDigitalContentFiles := files.filter (·.typeIn File.NonDigitalContentTypes)
      let failed := failedCIDs ctx digitalContentFiles nonDigitalContentFiles
      match countFailures ctx node wallet failed with
      | (node, false) => (node, .leftOpen .failure_skip_threshold_not_reached)
      | (node, true) =>
        match saveRows db cnodeUserUUID failed clockRecords digitalContentFiles
            nonDigitalContentFiles fetchedCNodeUser.digitalContents
            fetchedCNodeUser.colivingUsers with
        | .error message => (node, .threw message)
        | .ok db => (node, .committed db)

/-- `secondarySyncFromPrimary.js:142–570`: one bundle of the response; a result if the call
ends with it. A bundle for another wallet, or without one, is malformed. -/
def syncFetchedCNodeUser (node : Secondary) (fetchedCNodeUser : FetchedCNodeUser) :
    Secondary × Option SyncResult :=
  if fetchedCNodeUser.walletPublicKey ≠ some wallet then (node, some .failure_malformed_export)
  else
    match fetchedCNodeUser.clockRecords with
    | none => (node, some .failure_sync_secondary_from_primary)
    | some clockRecords =>
      match checkClocks localMaxClockVal fetchedCNodeUser.clock
          (clockRecords.map ClockRecord.clock) with
      | some .success => (node, none)
      | some result => (node, some result)
      | none =>
        match syncTransaction ctx node wallet fetchedCNodeUser clockRecords with
        | (node, .committed db) => ({ node with db := db }, none)
        | (node, .leftOpen result) => (node, some result)
        | (node, .threw _) =>
          ({ node with db := node.db.fixInconsistentUser fetchedCNodeUser.cnodeUserUUID },
            some .failure_db_transaction)

/-- The bundles of the response, up to one that the call ends with. -/
def syncFetchedCNodeUsers (wallet : Wallet) (localMaxClockVal : ℤ) :
    Secondary → List FetchedCNodeUser → Secondary × SyncResult
  | node, [] => (node, .success)
  | node, fetchedCNodeUser :: rest =>
    match syncFetchedCNodeUser ctx wallet localMaxClockVal node fetchedCNodeUser with
    | (node, some result) => (node, result)
    | (node, none) => syncFetchedCNodeUsers wallet localMaxClockVal node rest

/-- `secondarySyncFromPrimary.js:59–69`: the rows are deleted if that is forced, and the last
clock of those that are left. -/
def beforeFetch (forceResync : Bool) : Database × ℤ :=
  if forceResync then (db.deleteAllCNodeUserDataFromDB wallet, -1)
  else (db, (db.findCNodeUser wallet).elim (-1) CNodeUser.clock)

/-- `secondarySyncFromPrimary.js:91–570`: what the call does with a response. -/
def syncFromResponse (node : Secondary) :
    ExportResponse → Secondary × SyncResult
  | .rejected => (node, .failure_sync_secondary_from_primary)
  | .status => (node, .failure_export_wallet)
  | .noBody => (node, .failure_malformed_export)
  | .noData => (node, .failure_sync_secondary_from_primary)
  | .noCNodeUsers => (node, .failure_malformed_export)
  | .cnodeUsers fetched => syncFetchedCNodeUsers ctx wallet localMaxClockVal node fetched

/-- `secondarySyncFromPrimary.js:12–611`, for one wallet, with the response to the request for the
clocks after the given one. -/
def handleSyncFromPrimary (response : ℤ → ExportResponse) (forceResync : Bool) :
    Secondary × SyncResult :=
  if !ctx.lockAcquired then (node, .failure_sync_in_progress)
  else
    let (db, localMaxClockVal) := beforeFetch node.db wallet forceResync
    syncFromResponse ctx wallet localMaxClockVal { node with db := db } (response localMaxClockVal)

end ColivingSpec
