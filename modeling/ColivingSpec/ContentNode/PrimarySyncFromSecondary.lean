import ColivingSpec.ContentNode.DataRecords
import ColivingSpec.ContentNode.SecondarySyncFromPrimary
import ColivingSpec.ContentNode.SyncRequests
import ColivingSpec.ContentNode.WalletWriteLock

/-!
# Merging a secondary into the primary

Before a secondary is wiped the primary fetches its rows of the wallet, range by range, and writes
those that it does not have yet. An argument object is a structure whose properties can be missing:
the function that fetches a range reads a property that its caller does not set.
-/

namespace ColivingSpec

open Lib

/-- What a call depends on beyond its arguments: the configuration, the outcomes of the calls to
other services, which files can be fetched, the time, and the UUID of a user that is created. -/
structure MergeContext where
  devMode : Bool
  contentNodeEndpoint : Option Endpoint
  nodeSyncFileSaveMaxConcurrency : ℕ
  initColivingLibs : Except String Unit
  getContentNodeEndpoints : Except String (List Endpoint)
  /-- Whether a request for a range, with its retries, is answered in time. -/
  exportAnswered : Option ℤ → Bool
  saveFileForMultihashToFS : SaveFileArgs → List Endpoint → Bool
  now : Timestamp
  newUUID : UUID

/-- A primary: its database, and the write locks. -/
structure Primary where
  db : Database
  keys : WalletWriteLock.Keys

/-! ### Fetching a range -/

/-- The argument object of `fetchExportFromSecondary`, with the property that it reads and the one
that its caller sets. -/
structure FetchExportArgs where
  wallet : Wallet
  clockRangeMin : Option ℤ
  exportClockRangeMin : Option ℤ
  deriving DecidableEq, Repr

section Merge

variable (ctx : MergeContext) (maxExportClockValueRange : ℕ)

/-- `primarySyncFromSecondary.js:121–172`. -/
def fetchExportFromSecondary (secondary : Database) (args : FetchExportArgs) :
    Database × Except String FetchedCNodeUser :=
  if ctx.exportAnswered args.clockRangeMin then
    match secondary.exportRoute maxExportClockValueRange [args.wallet] args.clockRangeMin true with
    | (secondary, .ok [fetched]) =>
      if fetched.walletPublicKey = some args.wallet then (secondary, .ok fetched)
      else (secondary, .error "[fetchExportFromSecondary] ERROR: Wallet mismatch")
    | (secondary, .ok _) =>
      (secondary, .error "[fetchExportFromSecondary] ERROR: Malformatted export response data")
    | (secondary, .error message) =>
      (secondary, .error ("[fetchExportFromSecondary] ERROR: " ++ message))
  else (secondary, .error "[fetchExportFromSecondary] ERROR: timeout of 10000ms exceeded")

/-! ### Files -/

/-- `primarySyncFromSecondary.js:180–275`: the files are saved in batches, and the call fails with
the first one that is not; directories are skipped over. -/
def saveFilesToDisk (files : List File) (userReplicaSet : List Endpoint) :
    Except String Unit := do
  let saved (args : File → SaveFileArgs) (succeeded : Bool) (slice : List File) : Bool :=
    succeeded && slice.all fun file ↦
      file.type = some .dir || ctx.saveFileForMultihashToFS (args file) userReplicaSet
  require (overSlices ctx.nodeSyncFileSaveMaxConcurrency (saved digitalContentFileArgs) true
      (files.filter (·.typeIn File.DigitalContentTypes)))
    "[saveFilesToDisk] ERROR: [saveFileForMultihashToFS] Failed"
  require (overSlices ctx.nodeSyncFileSaveMaxConcurrency (saved nonDigitalContentFileArgs) true
      (files.filter (·.typeIn File.NonDigitalContentTypes)))
    "[saveFilesToDisk] ERROR: [saveFileForMultihashToFS] Failed"

/-! ### Rows -/

/-- `primarySyncFromSecondary.js:20`. -/
def dbQueryLimit : ℕ := if ctx.devMode then 5 else 10000

/-- `primarySyncFromSecondary.js:407–451`: the entries that have the comparison fields of no local
row, which are read page by page; one page more than there are rows is enough. -/
def filterOutAlreadyPresentDBEntries {ρ κ : Type} [DecidableEq κ] (clockOf : ρ → ℤ)
    (comparisonFields : ρ → κ) (localRows fetchedEntries : List ρ) : List ρ :=
  overOffsets (dbQueryLimit ctx)
    (fun filteredEntries localEntries ↦ filteredEntries.filter fun fetchedEntry ↦
      !localEntries.any fun localEntry ↦
        comparisonFields fetchedEntry = comparisonFields localEntry)
    (localRows.length + 1) fetchedEntries
    (localRows.mergeSort fun a b ↦ clockOf a ≤ clockOf b)

/-- `primarySyncFromSecondary.js:309–315`. -/
def colivingUserComparisonFields (row : ColivingUser) :
    ℕ × UUID × MetadataJSON × Option UUID × Option UUID :=
  (row.blockchainId, row.metadataFileUUID, row.metadataJSON, row.coverArtFileUUID,
    row.profilePicFileUUID)

/-- `primarySyncFromSecondary.js:324–329`. -/
def digitalContentComparisonFields (row : DigitalContent) :
    ℕ × UUID × MetadataJSON × Option UUID :=
  (row.blockchainId, row.metadataFileUUID, row.metadataJSON, row.coverArtFileUUID)

/-- `primarySyncFromSecondary.js:338`. -/
def fileComparisonFields (row : File) : UUID := row.fileUUID

/-- `primarySyncFromSecondary.js:301–357`: the database with the user, its UUID, and the entries
to write: those that a user who is there does not have, and all of them for a user who is
created. -/
def entriesToWrite (db : Database) (wallet : Wallet) (fetchedCNodeUser : FetchedCNodeUser)
    (colivingUsers : List ColivingUser) (digitalContents : List DigitalContent)
    (files : List File) : Except String (Database × UUID × List DataRecord) :=
  match db.findCNodeUser wallet with
  | some localCNodeUser =>
    let uuid := localCNodeUser.cnodeUserUUID
    .ok (db, uuid,
      (filterOutAlreadyPresentDBEntries ctx ColivingUser.clock colivingUserComparisonFields
        (db.colivingUsers.filter (·.cnodeUserUUID = uuid)) colivingUsers).map .colivingUser ++
      (filterOutAlreadyPresentDBEntries ctx DigitalContent.clock digitalContentComparisonFields
        (db.digitalContents.filter (·.cnodeUserUUID = uuid)) digitalContents).map
          .digitalContent ++
      (filterOutAlreadyPresentDBEntries ctx File.clock fileComparisonFields
        (db.files.filter (·.cnodeUserUUID = uuid)) files).map .file)
  | none => do
    let db ← Database.cnodeUserTable.insert db ⟨ctx.newUUID, wallet, fetchedCNodeUser.lastLogin,
      fetchedCNodeUser.latestBlockNumber, 0, fetchedCNodeUser.createdAt, ctx.now⟩
    return (db, ctx.newUUID, colivingUsers.map .colivingUser ++
      digitalContents.map .digitalContent ++ files.map .file)

/-- `primarySyncFromSecondary.js:280–391`: the entries are written in the order of their clocks, in
one transaction. -/
def saveEntriesToDB (db : Database) (wallet : Wallet) (fetchedCNodeUser : FetchedCNodeUser) :
    Except String Database := do
  let colivingUsers ← property fetchedCNodeUser.colivingUsers
  let digitalContents ← property fetchedCNodeUser.digitalContents
  let files ← property fetchedCNodeUser.files
  let (db, cnodeUserUUID, entries) ←
    entriesToWrite ctx db wallet fetchedCNodeUser colivingUsers digitalContents files
  let allEntries := entries.mergeSort fun a b ↦ a.clock ≤ b.clock
  allEntries.foldlM (fun db entry ↦ db.createNewDataRecord entry cnodeUserUUID) db

/-! ### The loop over the ranges -/

/-- The databases of the primary and of the secondary. -/
structure MergedDatabases where
  primary : Database
  secondary : Database
  deriving DecidableEq, Repr

/-- `primarySyncFromSecondary.js:67–88`: a range is fetched and written. -/
def mergeRange (wallet : Wallet) (userReplicaSet : List Endpoint) (dbs : MergedDatabases)
    (exportClockRangeMin : ℤ) : MergedDatabases × Except String ClockInfo :=
  match fetchExportFromSecondary ctx maxExportClockValueRange dbs.secondary
      { wallet := wallet
        clockRangeMin := none
        exportClockRangeMin := some exportClockRangeMin } with
  | (secondary, .error message) => (⟨dbs.primary, secondary⟩, .error message)
  | (secondary, .ok fetchedCNodeUser) =>
    let written := do
      let files ← property fetchedCNodeUser.files
      saveFilesToDisk ctx files userReplicaSet
      saveEntriesToDB ctx dbs.primary wallet fetchedCNodeUser
    match written with
    | .error message => (⟨dbs.primary, secondary⟩, .error message)
    | .ok primary => (⟨primary, secondary⟩, .ok fetchedCNodeUser.clockInfo)

/-- `primarySyncFromSecondary.js:63–94`: the ranges, up to a number of them; nothing is returned
when the loop goes on after these. -/
def mergeRanges (wallet : Wallet) (userReplicaSet : List Endpoint) :
    ℕ → MergedDatabases → ℤ → Option (MergedDatabases × Option String)
  | 0, _, _ => none
  | ranges + 1, dbs, exportClockRangeMin =>
    match mergeRange ctx maxExportClockValueRange wallet userReplicaSet dbs exportClockRangeMin with
    | (dbs, .error message) => some (dbs, some message)
    | (dbs, .ok clockInfo) =>
      if clockInfo.localClockMax ≤ clockInfo.requestedClockRangeMax then some (dbs, none)
      else mergeRanges wallet userReplicaSet ranges dbs (clockInfo.requestedClockRangeMax + 1)

/-- `primarySyncFromSecondary.js:453–474`: the other nodes of the replica set. -/
def getUserReplicaSet : Except String (List Endpoint) := do
  let userReplicaSet ← ctx.getContentNodeEndpoints
  return (userReplicaSet.filter fun url ↦ some url ≠ ctx.contentNodeEndpoint).eraseDups

/-- What a call leaves: the primary, the secondary's database, and the error it returns. -/
structure MergeOutcome where
  primary : Primary
  secondary : Database
  error : Option String

/-- `primarySyncFromSecondary.js:26–116`. The lock of the wallet is released in the end, whoever
holds it. -/
def primarySyncFromSecondary (ranges : ℕ) (node : Primary) (secondary : Database)
    (wallet : Wallet) : Option MergeOutcome :=
  let failed (keys : WalletWriteLock.Keys) (message : String) : Option MergeOutcome :=
    some ⟨⟨node.db, WalletWriteLock.release keys wallet⟩, secondary, some message⟩
  match ctx.initColivingLibs with
  | .error message => failed node.keys ("InitColivingLibs Error - " ++ message)
  | .ok () =>
    match WalletWriteLock.acquire node.keys wallet .primarySyncFromSecondary with
    | .error message => failed node.keys message
    | .ok keys =>
      match getUserReplicaSet ctx with
      | .error message => failed keys ("[getUserReplicaSet()] Error - " ++ message)
      | .ok userReplicaSet =>
        (mergeRanges ctx maxExportClockValueRange wallet userReplicaSet ranges
          ⟨node.db, secondary⟩ 0).map fun merged ↦
            ⟨⟨merged.1.primary, WalletWriteLock.release keys wallet⟩, merged.1.secondary, merged.2⟩

end Merge

end ColivingSpec
