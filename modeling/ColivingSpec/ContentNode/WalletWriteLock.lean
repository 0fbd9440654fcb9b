import ColivingSpec.Lib.Replay
import ColivingSpec.ContentNode.Models

/-!
# The write lock of a wallet

Redis holds at most one value under a wallet's key. A sync sets it if it is absent and
deletes it when it is done; a write request reads it. The module follows `redis.js` and the
way the two syncs use the lock, as a machine whose events are the Redis commands of the syncs
in any order.
-/

namespace ColivingSpec

/-- `WalletWriteLock.VALID_ACQUIRERS`: `redis.js:23–26`. -/
inductive Acquirer where
  | secondarySyncFromPrimary
  | primarySyncFromSecondary
  deriving DecidableEq, Repr

namespace WalletWriteLock

/-- The values under the keys `WRITE.WALLET.<wallet>`. -/
abbrev Keys := Wallet → Option Acquirer

variable (keys : Keys) (n : Node) (id : ℕ)

variable (wallet : Wallet)

/-- `getCurrentHolder`: `redis.js:31–35`. -/
def getCurrentHolder : Option Acquirer := keys wallet

/-- `syncIsInProgress`: `redis.js:38–45`. -/
def syncIsInProgress : Bool :=
  getCurrentHolder keys wallet == some .primarySyncFromSecondary ||
    getCurrentHolder keys wallet == some .secondarySyncFromPrimary

/-- `acquire`: `redis.js:67–102`. `SET NX` leaves a held key, and the call then throws. -/
def acquire (keys : Keys) (wallet : Wallet) (acquirer : Acquirer) : Except String Keys :=
  match keys wallet with
  | none => .ok (Function.update keys wallet (some acquirer))
  | some _ => .error "Failed to acquire lock - already held."

/-- `release`: `redis.js:109–119`. `DEL` removes the key, whoever set it. -/
def release : Keys := Function.update keys wallet none

/-- A sync and its argument: `primarySyncFromSecondary.js:24–28`,
`secondarySyncFromPrimary.js:12–18`. -/
inductive Sync where
  | primarySyncFromSecondary (wallet : Wallet)
  | secondarySyncFromPrimary (walletPublicKeys : List Wallet)
  deriving DecidableEq, Repr

/-- How far a sync has come, as the lock sees it. -/
inductive Stage where
  /-- Before `initColivingLibs` has answered; only the primary's sync waits for it. -/
  | starting
  /-- The wallets still to be acquired. -/
  | acquiring (wallets : List Wallet)
  /-- Inside the `try`, every lock acquired. -/
  | working
  /-- Inside the `finally`, the wallets still to be released. -/
  | releasing (wallets : List Wallet)
  | ended
  deriving DecidableEq, Repr

/-- One call of a sync. -/
structure Run where
  sync : Sync
  stage : Stage
  /-- The wallets this run acquired and has not released. -/
  acquired : List Wallet
  deriving DecidableEq, Repr

/-- Redis and the calls so far, by a number for each call. -/
structure Node where
  keys : Keys
  runs : ℕ → Option Run

/-- The wallets of a sync. -/
def Sync.wallets : Sync → List Wallet
  | .primarySyncFromSecondary wallet => [wallet]
  | .secondarySyncFromPrimary walletPublicKeys => walletPublicKeys

/-- The value a sync sets. -/
def Sync.acquirer : Sync → Acquirer
  | .primarySyncFromSecondary _ => .primarySyncFromSecondary
  | .secondarySyncFromPrimary _ => .secondarySyncFromPrimary

/-- The first stage of a call. -/
def Sync.firstStage : Sync → Stage
  | .primarySyncFromSecondary _ => .starting
  | .secondarySyncFromPrimary walletPublicKeys => .acquiring walletPublicKeys

/-- Where a sync goes when it cannot get a lock. The acquire of the primary's sync is inside
its `try`, so its `finally` runs: `primarySyncFromSecondary.js:42–113`. The other returns
before its `try`: `secondarySyncFromPrimary.js:44–51`. -/
def Sync.afterFailedAcquire : Sync → Stage
  | .primarySyncFromSecondary wallet => .releasing [wallet]
  | .secondarySyncFromPrimary _ => .ended

/-- What can happen next, on any call. `answers` tells whether the service called answers. -/
inductive Event where
  | start (id : ℕ) (sync : Sync)
  | initColivingLibs (id : ℕ) (answers : Bool)
  | acquire (id : ℕ) (answers : Bool)
  /-- The work under the lock is over, by an error or without. -/
  | finish (id : ℕ)
  | release (id : ℕ) (answers : Bool)
  /-- A request that looks whether a sync is in progress. -/
  | write (wallet : Wallet)
  deriving DecidableEq, Repr

/-- The run of a call after a step of it. -/
def Node.setRun (r : Run) : Node :=
  { n with runs := Function.update n.runs id (some r) }

/-- The call tries to acquire its next wallet. -/
def Node.acquireNext (sync : Sync) (acquired : List Wallet) (answers : Bool) : List Wallet → Node
  | [] => n.setRun id ⟨sync, .working, acquired⟩
  | wallet :: rest =>
    match answers, WalletWriteLock.acquire n.keys wallet sync.acquirer with
    | true, .ok keys =>
      { n with keys }.setRun id
        ⟨sync, if rest = [] then .working else .acquiring rest, wallet :: acquired⟩
    | _, _ => n.setRun id ⟨sync, sync.afterFailedAcquire, acquired⟩

/-- The call deletes the key of its next wallet. A failed call of the primary's sync ends it,
the other sync goes on with the next wallet: `secondarySyncFromPrimary.js:588–600`. -/
def Node.releaseNext (sync : Sync) (acquired : List Wallet) (answers : Bool) : List Wallet → Node
  | [] => n.setRun id ⟨sync, .ended, acquired⟩
  | wallet :: rest =>
    let next := if rest = [] then .ended else .releasing rest
    if answers then
      { n with keys := WalletWriteLock.release n.keys wallet }.setRun id
        ⟨sync, next, acquired.filter (· ≠ wallet)⟩
    else n.setRun id ⟨sync, next, acquired⟩

/-- One event; an event that is not next for its call does not happen. -/
def step : Event → Except String Node
  | .start id sync =>
    match n.runs id with
    | none => .ok (n.setRun id ⟨sync, sync.firstStage, []⟩)
    | some _ => .error "the call has begun"
  | .initColivingLibs id answers =>
    match n.runs id with
    | some ⟨sync, .starting, acquired⟩ =>
      let next := if answers then .acquiring sync.wallets else sync.afterFailedAcquire
      .ok (n.setRun id ⟨sync, next, acquired⟩)
    | _ => .error "not next"
  | .acquire id answers =>
    match n.runs id with
    | some ⟨sync, .acquiring wallets, acquired⟩ =>
      .ok (n.acquireNext id sync acquired answers wallets)
    | _ => .error "not next"
  | .finish id =>
    match n.runs id with
    | some ⟨sync, .working, acquired⟩ =>
      .ok (n.setRun id ⟨sync, .releasing sync.wallets, acquired⟩)
    | _ => .error "not next"
  | .release id answers =>
    match n.runs id with
    | some ⟨sync, .releasing wallets, acquired⟩ =>
      .ok (n.releaseNext id sync acquired answers wallets)
    | _ => .error "not next"
  | .write wallet =>
    if syncIsInProgress n.keys wallet then
      .error "Node sync currently in progress."
    else .ok n

/-- No key and no call. -/
def Node.fresh : Node := ⟨fun _ ↦ none, fun _ ↦ none⟩

/-- The call is between its acquire of the wallet's lock and its own release of it. -/
def Node.Holds : Prop :=
  ∃ r, n.runs id = some r ∧ wallet ∈ r.acquired

end WalletWriteLock

end ColivingSpec
