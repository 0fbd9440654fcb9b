import ColivingSpec.Lib.Checked
import Mathlib.Data.List.Nodup
import Mathlib.Algebra.Order.Ring.Rat

/-!
# The selection of content nodes

`ContentNodeSelection` (services/contentNode/ContentNodeSelection.ts) asks the registered content
nodes for their health and selects a primary and secondaries among the healthy ones. A node may
report how much of its storage may be used; the selector keeps what was reported last.
-/

namespace ColivingSpec

open Lib

namespace NodeSelection

/-- The fields of a health check that the selection reads (lines 382–387). -/
structure HealthData where
  version : Option String
  storagePathSize : Option ℚ
  storagePathUsed : Option ℚ
  maxStorageUsedPercent : Option ℚ
deriving DecidableEq

/-- A response, whose body may be without data. -/
structure HealthResponse where
  status : ℕ
  data : Option HealthData
deriving DecidableEq

/-- A list in some other order, as a sort that breaks ties at random returns it. -/
structure Sorting where
  sort : List String → List String
  perm : ∀ l, (sort l).Perm l

/-- What the selector is set up with, and how each node answers; nothing for a request that failed.
Registered endpoints are distinct. -/
structure Setting where
  currentVersion : Option String
  whitelist : Option (List String)
  blacklist : Option (List String)
  numberOfNodes : ℤ
  preferHigherPatchForPrimary : Bool
  preferHigherPatchForSecondaries : Bool
  services : List String
  nodup : services.Nodup
  /-- Whether a node is behind, and whether it is configured. -/
  syncStatus : String → Option (Bool × Bool)
  health : String → Option HealthResponse
  /-- The sorts of the responses, of the healthy nodes and of the backups. -/
  responses : Sorting
  healthy : Sorting
  backups : Sorting

/-- What the selector keeps from one call to the next. -/
structure Selector where
  maxStorageUsedPercent : ℚ
  unhealthy : List String

variable (majorMinor : String → Option (ℕ × ℕ)) (setting : Setting)

/-- The major and minor number of a version; a text that is none is thrown for. -/
def parsed (version : Option String) : Except String (ℕ × ℕ) :=
  (version.bind majorMinor).elim (.error "Invalid Version") .ok

/-- `hasSameMajorAndMinorVersion` (EthContracts.ts, lines 335–340). -/
def hasSameMajorAndMinorVersion (version1 version2 : Option String) : Except String Bool := do
  let a ← parsed majorMinor version1
  let b ← parsed majorMinor version2
  return a.1 = b.1 && a.2 = b.2

/-- `_hasEnoughStorageSpace` (lines 468–485). A division by zero gives an infinity of the sign of
what is divided, or no number. -/
def hasEnoughStorageSpace (maxStorageUsedPercent : ℚ)
    (storagePathSize storagePathUsed : Option ℚ) : Bool :=
  match storagePathSize, storagePathUsed with
  | some size, some used =>
    if size = 0 then decide (used < 0) else decide (100 * used / size < maxStorageUsedPercent)
  | _, _ => true

/-- The percentage that counts for a node, its own one if it reports one other than zero. -/
def HealthData.threshold (data : HealthData) (current : ℚ) : ℚ :=
  match data.maxStorageUsedPercent with
  | some percent => if percent = 0 then current else percent
  | none => current

/-- The verdict on a response, when the percentage is the given one. -/
def verdict (response : HealthResponse) (current : ℚ) : Except String (Bool × ℚ) := do
  let data ← response.data.elim (.error "TypeError") .ok
  let versionIsUpToDate ←
    hasSameMajorAndMinorVersion majorMinor setting.currentVersion data.version
  let maxStorageUsedPercent := data.threshold current
  let hasEnoughStorage :=
    hasEnoughStorageSpace maxStorageUsedPercent data.storagePathSize data.storagePathUsed
  return (response.status = 200 && versionIsUpToDate && hasEnoughStorage, maxStorageUsedPercent)

/-- The verdict on an endpoint; one that did not respond is not healthy (lines 370–400). -/
def verdictOf (endpoint : String) (current : ℚ) : Except String (Bool × ℚ) :=
  match setting.health endpoint with
  | some response => verdict majorMinor setting response current
  | none => .ok (false, current)

variable (selector : Selector) (performSyncCheck : Bool) (configured : ℚ)

/-- Whether an endpoint is healthy, and what that leaves of the selector (lines 370–407). -/
def checkHealth (endpoint : String) : Except String (Bool × Selector) := do
  let (isHealthy, maxStorageUsedPercent) ←
    verdictOf majorMinor setting endpoint selector.maxStorageUsedPercent
  let unhealthy := if isHealthy then selector.unhealthy else selector.unhealthy ++ [endpoint]
  return (isHealthy, ⟨maxStorageUsedPercent, unhealthy⟩)

/-- The healthy ones of the endpoints, in the order in which their responses are looked at. -/
def filterHealthy (selector : Selector) : List String → Except String (List String × Selector)
  | [] => .ok ([], selector)
  | endpoint :: rest => do
    let (isHealthy, selector) ← checkHealth majorMinor setting selector endpoint
    let (healthyServices, selector) ← filterHealthy selector rest
    return (if isHealthy then endpoint :: healthyServices else healthyServices, selector)

/-- `_performHealthChecks` (lines 357–466): the healthy services and the selector. -/
def performHealthChecks (services : List String) :
    Except String (List String × Selector) :=
  filterHealthy majorMinor setting selector (setting.responses.sort services)

/-- A service is suited after its sync check (lines 333–346). -/
def synced (service : String) : Bool :=
  match setting.syncStatus service with
  | none => false
  | some (isBehind, isConfigured) => isBehind && !isConfigured || !isBehind && isConfigured

/-- `Array.prototype.slice` from the start, to an end that may count from the back. -/
def sliceTo {α : Type} (last : ℤ) (l : List α) : List α :=
  if 0 ≤ last then l.take last.toNat else l.take (l.length - last.natAbs)

/-- `getSecondaries` (lines 282–307). -/
def getSecondaries (backupsList : List String) : List String :=
  let numberOfSecondaries := setting.numberOfNodes - 1
  if setting.preferHigherPatchForSecondaries then
    sliceTo numberOfSecondaries (setting.backups.sort backupsList)
  else sliceTo numberOfSecondaries backupsList

/-- The registered services after the whitelist and the blacklist (lines 148–164). -/
def allowedServices : List String :=
  let services := setting.whitelist.elim setting.services fun whitelist ↦
    setting.services.filter whitelist.contains
  setting.blacklist.elim services fun blacklist ↦
    services.filter fun service ↦ !blacklist.contains service

/-- The services that are asked for their health (lines 172–178). -/
def checkedServices : List String :=
  if performSyncCheck then (allowedServices setting).filter (synced setting)
  else allowedServices setting

/-- What `select` returns. -/
structure Selection where
  primary : Option String
  secondaries : List String
  services : List String

/-- `select` (lines 141–227), on a selector with the percentage that it has kept. -/
def select (maxStorageUsedPercent : ℚ) :
    Except String (Selection × Selector) := do
  let unsynced := if performSyncCheck then
    (allowedServices setting).filter fun service ↦ !synced setting service else []
  let (services, selector) ← performHealthChecks majorMinor setting
    ⟨maxStorageUsedPercent, unsynced⟩ (checkedServices setting performSyncCheck)
  let primary := if setting.preferHigherPatchForPrimary then (setting.healthy.sort services).head?
    else services.head?
  let backupsList := services.filter fun service ↦ some service ≠ primary
  return (⟨primary, getSecondaries setting backupsList, services⟩, selector)

/-! ### What a selection is to be -/

/-- The node's own response passes the checks under the configured percentage. -/
def Passes (endpoint : String) : Prop :=
  ∃ response percent, setting.health endpoint = some response ∧
    verdict majorMinor setting response configured = .ok (true, percent)

/-- A registered service that is whitelisted and not blacklisted. -/
structure Allowed (service : String) : Prop where
  registered : service ∈ setting.services
  whitelisted : ∀ whitelist, setting.whitelist = some whitelist → service ∈ whitelist
  not_blacklisted : ∀ blacklist, setting.blacklist = some blacklist → service ∉ blacklist

/-- Each node is marked by its own response, and the selected services are distinct, healthy and
allowed ones. -/
structure Right (configured : ℚ) (performSyncCheck : Bool) (selection : Selection)
    (selector : Selector) : Prop where
  healthy : ∀ endpoint ∈ checkedServices setting performSyncCheck,
    (endpoint ∈ selection.services ↔ Passes majorMinor setting configured endpoint)
  unhealthy : ∀ endpoint ∈ checkedServices setting performSyncCheck,
    (endpoint ∈ selector.unhealthy ↔ ¬ Passes majorMinor setting configured endpoint)
  distinct : (selection.primary.toList ++ selection.secondaries).Nodup
  selected : ∀ service ∈ selection.primary.toList ++ selection.secondaries,
    service ∈ selection.services ∧ Allowed setting service
  length_le : (selection.secondaries.length : ℤ) ≤ setting.numberOfNodes - 1

/-- The percentage that is kept after responses of the endpoints. -/
def carried (current : ℚ) (endpoints : List String) : ℚ :=
  endpoints.foldl (fun percent endpoint ↦
    ((setting.health endpoint).bind HealthResponse.data).elim percent
      fun data ↦ data.threshold percent) current

/-- The response has data and a version that can be compared, and if it is up and up to date, its
storage is judged alike under the two percentages, where its own one does not count. -/
def JudgedAlike (current : ℚ) (response : HealthResponse) : Prop :=
  ∃ data v w, response.data = some data ∧ parsed majorMinor setting.currentVersion = .ok v ∧
    parsed majorMinor data.version = .ok w ∧ (response.status = 200 → v = w →
      hasEnoughStorageSpace (data.threshold current) data.storagePathSize data.storagePathUsed =
        hasEnoughStorageSpace (data.threshold configured) data.storagePathSize
          data.storagePathUsed)

end NodeSelection

end ColivingSpec
