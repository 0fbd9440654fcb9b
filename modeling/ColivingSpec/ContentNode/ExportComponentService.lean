import ColivingSpec.ContentNode.Database

/-!
# The export of a wallet's rows

The rows of the requested wallets with clocks in a range, bundled by user. When the user has more
rows than the range, the clock in the bundle is the end of the range.
-/

namespace ColivingSpec

open Lib

/-- `exportComponentService.js:117–121`. -/
structure ClockInfo where
  requestedClockRangeMin : ℤ
  requestedClockRangeMax : ℤ
  localClockMax : ℤ
  deriving DecidableEq, Repr

/-- A user in a response to an export request, with its rows. A response can lack properties. -/
structure FetchedCNodeUser where
  cnodeUserUUID : UUID
  walletPublicKey : Option Wallet
  lastLogin : Option Timestamp
  latestBlockNumber : ℤ
  clock : ℤ
  createdAt : Timestamp
  colivingUsers : Option (List ColivingUser)
  digitalContents : Option (List DigitalContent)
  files : Option (List File)
  clockRecords : Option (List ClockRecord)
  clockInfo : ClockInfo
  deriving DecidableEq, Repr

/-- `findAll` with `clock` between the bounds for the given users, `order: [['clock', 'ASC']]`. -/
def findInClockRange {ρ : Type} (uuidOf : ρ → UUID) (clockOf : ρ → ℤ) (rows : List ρ)
    (cnodeUserUUIDs : List UUID) (requestedClockRangeMin requestedClockRangeMax : ℤ) : List ρ :=
  (rows.filter fun row ↦ uuidOf row ∈ cnodeUserUUIDs ∧ requestedClockRangeMin ≤ clockOf row ∧
    clockOf row ≤ requestedClockRangeMax).mergeSort fun a b ↦ clockOf a ≤ clockOf b

namespace Database

variable (db : Database)

/-- `exportComponentService.js:84–97`: the clock of a bundle. -/
def exportedClock (clock requestedClockRangeMax : ℤ) : ℤ :=
  if requestedClockRangeMax < clock then requestedClockRangeMax else clock

/-- `exportComponentService.js:99–112`: a bundle must have the clock of the last clock record, if
any was found. -/
def validateClock (clock : ℤ) (clockRecords : List ClockRecord) (forceExport : Bool) :
    Except String Unit :=
  match (clockRecords.map ClockRecord.clock).max? with
  | none => .ok ()
  | some maxClockRecord =>
    require (clock = maxClockRecord ∨ forceExport)
      "Cannot export - exported data is not consistent. Fixing and trying again..."

/-- `exportComponentService.js:72–136`: the bundle of a user, with its rows among those found. -/
def bundleCNodeUser (requestedClockRangeMin requestedClockRangeMax : ℤ) (forceExport : Bool)
    (colivingUsers : List ColivingUser) (digitalContents : List DigitalContent)
    (files : List File) (clockRecords : List ClockRecord) (cnodeUser : CNodeUser) :
    Except String FetchedCNodeUser := do
  let clock := exportedClock cnodeUser.clock requestedClockRangeMax
  validateClock clock clockRecords forceExport
  return {
    cnodeUserUUID := cnodeUser.cnodeUserUUID
    walletPublicKey := some cnodeUser.walletPublicKey
    lastLogin := cnodeUser.lastLogin
    latestBlockNumber := cnodeUser.latestBlockNumber
    clock := clock
    createdAt := cnodeUser.createdAt
    colivingUsers := some (colivingUsers.filter (·.cnodeUserUUID = cnodeUser.cnodeUserUUID))
    digitalContents := some (digitalContents.filter (·.cnodeUserUUID = cnodeUser.cnodeUserUUID))
    files := some (files.filter (·.cnodeUserUUID = cnodeUser.cnodeUserUUID))
    clockRecords := some (clockRecords.filter (·.cnodeUserUUID = cnodeUser.cnodeUserUUID))
    clockInfo := ⟨requestedClockRangeMin, requestedClockRangeMax, clock⟩ }

/-- `exportComponentService.js:14–146`: the bundles, and what a run that fails leaves. -/
def exportComponentService (walletPublicKeys : List Wallet)
    (requestedClockRangeMin requestedClockRangeMax : ℤ) (forceExport : Bool) :
    Database × Except String (List FetchedCNodeUser) :=
  let cnodeUsers := db.cnodeUsers.filter fun user ↦ user.walletPublicKey ∈ walletPublicKeys
  let cnodeUserUUIDs := cnodeUsers.map CNodeUser.cnodeUserUUID
  let bundle := bundleCNodeUser requestedClockRangeMin requestedClockRangeMax forceExport
    (findInClockRange ColivingUser.cnodeUserUUID ColivingUser.clock
      db.colivingUsers cnodeUserUUIDs requestedClockRangeMin requestedClockRangeMax)
    (findInClockRange DigitalContent.cnodeUserUUID DigitalContent.clock
      db.digitalContents cnodeUserUUIDs requestedClockRangeMin requestedClockRangeMax)
    (findInClockRange File.cnodeUserUUID File.clock
      db.files cnodeUserUUIDs requestedClockRangeMin requestedClockRangeMax)
    (findInClockRange ClockRecord.cnodeUserUUID ClockRecord.clock
      db.clockRecords cnodeUserUUIDs requestedClockRangeMin requestedClockRangeMax)
  match cnodeUsers.mapM bundle with
  | .ok cnodeUsersDict => (db, .ok cnodeUsersDict)
  | .error message =>
    let bundled := cnodeUsers.takeWhile fun cnodeUser ↦ (bundle cnodeUser).isOk
    ((cnodeUserUUIDs.take (bundled.length + 1)).foldl fixInconsistentUser db, .error message)

/-- `async-retry`: run again after a failure, a number of times. -/
def retry {α : Type} (run : Database → Database × Except String α) :
    ℕ → Database → Database × Except String α
  | 0, db => run db
  | retries + 1, db =>
    match run db with
    | (db', .ok a) => (db', .ok a)
    | (db', .error _) => retry run retries db'

/-- `nodeSync.js:23–80`: `/export`. -/
def exportRoute (maxExportClockValueRange : ℕ) (walletPublicKeys : List Wallet)
    (clockRangeMin : Option ℤ) (forceExport : Bool) :
    Database × Except String (List FetchedCNodeUser) :=
  let requestedClockRangeMin := clockRangeMin.getD 0
  let requestedClockRangeMax := requestedClockRangeMin + (maxExportClockValueRange - 1)
  retry (fun db ↦ db.exportComponentService walletPublicKeys requestedClockRangeMin
    requestedClockRangeMax forceExport) 3 db

end Database

end ColivingSpec
