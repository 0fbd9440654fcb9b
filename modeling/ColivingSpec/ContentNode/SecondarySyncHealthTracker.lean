import ColivingSpec.ContentNode.SyncRequests
import ColivingSpec.Lib.Dict
import ColivingSpec.Lib.Joined

/-!
# Outcomes of sync requests

A primary counts, for each secondary, user, sync type and day, the sync requests that succeeded
and that failed. A count lives in Redis under a key joined from these names, and is found again
by a scan with a pattern. The module follows `SecondarySyncHealthTracker.ts`; the modules that
load it spell its file name with a small first letter. Keys live ninety days, so none
expires on the day it is read.
-/

namespace ColivingSpec

open Lib

namespace SecondarySyncHealthTracker

/-- `Outcomes`: `SecondarySyncHealthTracker.ts:19–22`. -/
inductive Outcome where
  | SUCCESS
  | FAILURE
  deriving DecidableEq, Repr

/-- The text of an outcome. -/
def Outcome.value : Outcome → String
  | .SUCCESS => "Success"
  | .FAILURE => "Failure"

/-- `RedisKeyPrefix`: `SecondarySyncHealthTracker.ts:14`. -/
def RedisKeyPrefix : String := "SecondarySyncRequestOutcomes-Daily"

/-- `RedisFilters`: `SecondarySyncHealthTracker.ts:24–30`. -/
structure RedisFilters where
  secondary : Option String
  wallet : Option String
  syncType : Option String
  outcome : Option String
  date : Option String

/-- The counters: Redis keeps decimal text, which `parseInt` reads back. -/
abbrev Redis := Dict String ℕ

/-- `INCR`: a key that is not there counts from 0. -/
def incr (redis : Redis) (key : String) : Redis := redis.set key ((redis.get? key).getD 0 + 1)

variable (today : String) (glob : String → String → Bool)

/-- `_getRedisKeyPattern`: `SecondarySyncHealthTracker.ts:101–112`. -/
def _getRedisKeyPattern (filters : RedisFilters) : String :=
  let date := match filters.date with
    | some date => if date = "" then today else date
    | none => today
  RedisKeyPrefix ++ ":::" ++ filters.secondary.getD "*" ++ ":::" ++ filters.wallet.getD "*" ++
    ":::" ++ filters.syncType.getD "*" ++ ":::" ++ date ++ ":::" ++ filters.outcome.getD "*"

/-- `_parseRedisKeyIntoComponents`: `SecondarySyncHealthTracker.ts:114–118`; a component that is
not there is undefined. -/
def _parseRedisKeyIntoComponents (key : String) : ℕ → Option String :=
  fun i ↦ (Joined.split ":::".toList key.toList)[i]?.map String.ofList

variable (redis : Redis) (pattern : String) (metrics : UserSecondarySyncMetrics) (calls : List Call)

/-- `_getAllKeysMatchingPattern`: `SecondarySyncHealthTracker.ts:77–94`. `glob` is what the
`MATCH` of a Redis scan does. -/
def _getAllKeysMatchingPattern (extraFilter : String → Bool) :
    List String :=
  (((redis.items.map Prod.fst).filter (glob pattern)).filter extraFilter).filter (· ≠ "")

/-- `_getMetricsMatchingPattern`: `SecondarySyncHealthTracker.ts:40–69`. Every list is truthy, so
the keys are filtered by the wallets also when there are none. -/
def _getMetricsMatchingPattern (wallets : List String) :
    List (String × ℕ) :=
  let keys := _getAllKeysMatchingPattern glob redis pattern fun key ↦
    wallets.any fun wallet ↦ decide (wallet.toList <:+: key.toList)
  keys.filterMap fun key ↦ (redis.get? key).map (key, ·)

/-- `getSyncRequestOutcomeMetrics`: `SecondarySyncHealthTracker.ts:232–242`; the wallets default
to none, `SecondarySyncHealthTracker.ts:40`. -/
def getSyncRequestOutcomeMetrics (today : String) (redis : Redis) (filters : RedisFilters) :
    List (String × ℕ) :=
  _getMetricsMatchingPattern glob redis (_getRedisKeyPattern today filters) []

/-- `batchGetSyncRequestOutcomeMetricsForToday`: `SecondarySyncHealthTracker.ts:249–260`. -/
def batchGetSyncRequestOutcomeMetricsForToday (today : String) (redis : Redis)
    (wallets : List String) : List (String × ℕ) :=
  _getMetricsMatchingPattern glob redis
    (_getRedisKeyPattern today ⟨none, none, none, none, none⟩) wallets

/-- `getSecondaryUserSyncFailureCountForToday`: `SecondarySyncHealthTracker.ts:266–286`. -/
def getSecondaryUserSyncFailureCountForToday (today : String) (redis : Redis)
    (secondary wallet syncType : String) : ℕ :=
  match getSyncRequestOutcomeMetrics glob today redis
    ⟨some secondary, some wallet, some syncType, some Outcome.FAILURE.value, none⟩ with
  | [] => 0
  | entry :: _ => entry.2

/-! ### Success rates -/

/-- `UserSecondarySyncMetrics`: `stateMonitoring/types.ts:23–27`. -/
structure UserSecondarySyncMetrics where
  successCount : ℕ
  failureCount : ℕ
  successRate : ℚ
  deriving DecidableEq

/-- `UserSecondarySyncMetricsMap`: `stateMonitoring/types.ts:28–32`. -/
abbrev UserSecondarySyncMetricsMap := NestedDict String String UserSecondarySyncMetrics

/-- The secondaries of a wallet start with no outcome; a wallet has an entry once it has a
secondary: `SecondarySyncHealthTracker.ts:179–187`. -/
def initialEntry (metrics : UserSecondarySyncMetricsMap) (entry : String × List String) :
    UserSecondarySyncMetricsMap :=
  entry.2.foldl (fun metrics secondary ↦ NestedDict.setEntry metrics entry.1 secondary ⟨0, 0, 1⟩)
    metrics

/-- The table before the outcomes are read: `SecondarySyncHealthTracker.ts:176–188`. -/
def initialMetrics (walletsToSecondariesMapping : Dict String (List String)) :
    UserSecondarySyncMetricsMap :=
  walletsToSecondariesMapping.items.foldl initialEntry Dict.empty

/-- One outcome is added to the counts of its secondary. -/
def UserSecondarySyncMetrics.add (outcome : Option String) (count : ℕ) : UserSecondarySyncMetrics :=
  if outcome = some Outcome.SUCCESS.value then
    { metrics with successCount := metrics.successCount + count }
  else if outcome = some Outcome.FAILURE.value then
    { metrics with failureCount := metrics.failureCount + count }
  else metrics

/-- The loop over the outcomes found: `SecondarySyncHealthTracker.ts:195–214`. A secondary that is
no longer asked for is passed over; a wallet without an entry is not an object to look in. -/
def aggregate (metrics : UserSecondarySyncMetricsMap) :
    List (String × ℕ) → Except String UserSecondarySyncMetricsMap
  | [] => .ok metrics
  | (key, count) :: rest =>
    let components := _parseRedisKeyIntoComponents key
    match (components 2).bind metrics.get?, components 2, components 1 with
    | some secondarySyncMetrics, some wallet, some secondary =>
      match secondarySyncMetrics.get? secondary with
      | none => aggregate metrics rest
      | some counts =>
        aggregate (NestedDict.setEntry metrics wallet secondary (counts.add (components 5) count))
          rest
    | _, _, secondary =>
      .error ("Cannot use 'in' operator to search for '" ++ secondary.getD "undefined" ++
        "' in undefined")

/-- The rate of a secondary: `SecondarySyncHealthTracker.ts:218–223`. -/
def UserSecondarySyncMetrics.withRate :
    UserSecondarySyncMetrics :=
  { metrics with
    successRate :=
      if metrics.failureCount = 0 then 1
      else (metrics.successCount : ℚ) / (metrics.successCount + metrics.failureCount : ℕ) }

/-- The loop over the wallets: `SecondarySyncHealthTracker.ts:217–224`. -/
def computeRates (metrics : UserSecondarySyncMetricsMap) :
    List String → Except String UserSecondarySyncMetricsMap
  | [] => .ok metrics
  | wallet :: rest =>
    match metrics.get? wallet with
    | none => .error "Cannot convert undefined or null to object"
    | some secondarySyncMetrics =>
      computeRates (metrics.set wallet (secondarySyncMetrics.mapValues (·.withRate))) rest

/-- `computeUsersSecondarySyncSuccessRatesForToday`: `SecondarySyncHealthTracker.ts:172–227`. -/
def computeUsersSecondarySyncSuccessRatesForToday (today : String) (redis : Redis)
    (walletsToSecondariesMapping : Dict String (List String)) :
    Except String UserSecondarySyncMetricsMap :=
  let wallets := walletsToSecondariesMapping.items.map Prod.fst
  match aggregate (initialMetrics walletsToSecondariesMapping)
    (batchGetSyncRequestOutcomeMetricsForToday glob today redis wallets) with
  | .error message => .error message
  | .ok metrics => computeRates metrics wallets

/-! ### Recording -/

/-- A call of `recordSuccess` or `recordFailure`: `SecondarySyncHealthTracker.ts:152–160`. -/
structure Call where
  outcome : Outcome
  secondary : String
  wallet : String
  syncType : String
  deriving DecidableEq, Repr

/-- The key a call counts under. -/
def Call.redisKey (call : Call) : String :=
  _getRedisKeyPattern today
    ⟨some call.secondary, some call.wallet, some call.syncType, some call.outcome.value, none⟩

/-- `_recordSyncRequestOutcome`: `SecondarySyncHealthTracker.ts:120–149`. -/
def _recordSyncRequestOutcome (call : Call) : Redis :=
  incr redis (call.redisKey today)

/-- The calls of one day. -/
def recordAll : Redis :=
  calls.foldl (_recordSyncRequestOutcome today) redis

/-- The failures recorded for a secondary, a user and a sync type. -/
def failuresOf (secondary wallet syncType : String) : ℕ :=
  calls.count ⟨.FAILURE, secondary, wallet, syncType⟩

/-- No wallet is asked for, and no key passes the filter of none. -/
theorem getSyncRequestOutcomeMetrics_eq_nil (today : String) (redis : Redis)
    (filters : RedisFilters) :
    getSyncRequestOutcomeMetrics glob today redis filters = [] := by
  have hkeys : _getAllKeysMatchingPattern glob redis (_getRedisKeyPattern today filters)
      (fun key ↦ ([] : List String).any fun wallet ↦ decide (wallet.toList <:+: key.toList)) =
      [] := by
    unfold _getAllKeysMatchingPattern
    simp only [List.any_nil, List.filter_false, List.filter_nil]
  unfold getSyncRequestOutcomeMetrics _getMetricsMatchingPattern
  rw [hkeys]
  rfl

/-- The count of failures is always read as 0. -/
@[simp] theorem getSecondaryUserSyncFailureCountForToday_eq_zero (today : String) (redis : Redis)
    (secondary wallet syncType : String) :
    getSecondaryUserSyncFailureCountForToday glob today redis secondary wallet syncType = 0 := by
  unfold getSecondaryUserSyncFailureCountForToday
  rw [getSyncRequestOutcomeMetrics_eq_nil]

end SecondarySyncHealthTracker

end ColivingSpec
