import ColivingSpec.ContentNode.SyncFailures
import ColivingSpec.ContentNode.WalletWriteLock

/-!
# What a sync opens

A call of `handleSyncFromPrimary` for a list of wallets, with what Redis and the database answer
and the log of the locks and transactions it takes and gives back. With one wallet, and no failing
query, it is the call of `SecondarySyncFromPrimary`.
-/

namespace ColivingSpec

/-- The transactions of a call: that of the forced deletion, and those for the bundles of the
response, by their places in it. -/
inductive SyncTransaction where
  | deletion
  | bundle (i : ℕ)
  deriving DecidableEq, Repr

/-- What a call does with locks and transactions. -/
inductive SyncAction where
  | acquired (wallet : Wallet)
  | released (wallet : Wallet)
  | began (transaction : SyncTransaction)
  | committed (transaction : SyncTransaction)
  | rolledBack (transaction : SyncTransaction)
  deriving DecidableEq, Repr

/-- Whether a transaction can be opened, committed and rolled back. -/
structure TransactionAnswers where
  opens : Bool
  commits : Bool
  rollsBack : Bool

/-- The answers to the transaction for a bundle. The queries for the user come before the files
are fetched, those for the rows after. -/
structure BundleAnswers extends TransactionAnswers where
  savesUser : Bool
  savesRows : Bool

/-- What Redis and the database answer in a call. The keys when a wallet's turn to be acquired
comes are those that other calls, and this one, have left; there are none if Redis fails. -/
structure SyncAnswers where
  keysAtAcquire : ℕ → Option WalletWriteLock.Keys
  releases : ℕ → Bool
  deletion : TransactionAnswers
  deletes : Bool
  findsCNodeUser : Bool
  bundle : ℕ → BundleAnswers

variable (ctx : SyncContext) (answers : SyncAnswers)

/-- `redis.js:67–102`: whether the acquire of the `i`-th wallet sets its key. -/
def SyncAnswers.acquires (i : ℕ) (wallet : Wallet) : Bool :=
  match answers.keysAtAcquire i with
  | none => false
  | some keys => (WalletWriteLock.acquire keys wallet .secondarySyncFromPrimary).isOk

/-- `secondarySyncFromPrimary.js:36–51`: the locks are acquired in order, and whether all were. -/
def acquireLocks : ℕ → List Wallet → List SyncAction × Bool
  | _, [] => ([], true)
  | i, wallet :: rest =>
    if answers.acquires i wallet then
      let (log, acquired) := acquireLocks (i + 1) rest
      (.acquired wallet :: log, acquired)
    else ([], false)

/-- `secondarySyncFromPrimary.js:588–600`: a release that fails is logged. -/
def releaseLocks : ℕ → List Wallet → List SyncAction
  | _, [] => []
  | i, wallet :: rest =>
    if answers.releases i then .released wallet :: releaseLocks (i + 1) rest
    else releaseLocks (i + 1) rest

variable (db : Database) (node : Secondary) (walletPublicKeys : List Wallet) (localMaxClockVal : ℤ)
  (response : ℤ → ExportResponse)

/-- `dbManager.js:71–146`: whether a query of the deletion fails. Without a wallet the first one
does. -/
def deletionThrows (lookupWallet : Option Wallet) : Bool :=
  !answers.deletes ||
    match lookupWallet with
    | none => true
    | some wallet =>
      match db.findCNodeUser wallet with
      | none => false
      | some cnodeUser => !(db.deleteAllCNodeUserData cnodeUser.cnodeUserUUID).isOk

/-- `dbManager.js:64–165`, with its own transaction. -/
def deleteBeforeFetch (lookupWallet : Option Wallet) :
    List SyncAction × Except String Database :=
  if !answers.deletion.opens then ([], .error "SequelizeConnectionError")
  else if deletionThrows answers db lookupWallet then
    if answers.deletion.rollsBack then ([.began .deletion, .rolledBack .deletion], .ok db)
    else ([.began .deletion], .error "SequelizeDatabaseError")
  else if answers.deletion.commits then
    ([.began .deletion, .committed .deletion],
      .ok (lookupWallet.elim db db.deleteAllCNodeUserDataFromDB))
  else ([.began .deletion], .error "SequelizeDatabaseError")

/-- `secondarySyncFromPrimary.js:57–69`. -/
def openBeforeFetch (wallet : Option Wallet) (forceResync : Bool) :
    List SyncAction × Except String (Database × ℤ) :=
  if forceResync then
    match deleteBeforeFetch answers db wallet with
    | (log, .ok db) => (log, .ok (db, -1))
    | (log, .error message) => (log, .error message)
  else
    match wallet with
    | none => ([], .error "WHERE parameter \"walletPublicKey\" has invalid \"undefined\" value")
    | some wallet =>
      if answers.findsCNodeUser then ([], .ok (beforeFetch db wallet false))
      else ([], .error "SequelizeDatabaseError")

/-- `secondarySyncFromPrimary.js:252–543`: the transaction for a bundle, up to its commit. -/
def answeredTransaction (bundle : BundleAnswers) (node : Secondary) (wallet : Wallet)
    (fetchedCNodeUser : FetchedCNodeUser) (clockRecords : List ClockRecord) :
    Secondary × TransactionEnd :=
  if !bundle.savesUser then (node, .threw "SequelizeDatabaseError")
  else
    match syncTransaction ctx node wallet fetchedCNodeUser clockRecords with
    | (node, .committed db) =>
      if bundle.savesRows then (node, .committed db) else (node, .threw "SequelizeDatabaseError")
    | (node, .leftOpen result) => (node, .leftOpen result)
    | (node, .threw message) => (node, .threw message)

/-- `secondarySyncFromPrimary.js:246–570`: the transaction for the `i`-th bundle. A transaction
whose commit fails is finished, and its rollback is refused. -/
def openTransaction (i : ℕ) (node : Secondary) (wallet : Wallet)
    (fetchedCNodeUser : FetchedCNodeUser) (clockRecords : List ClockRecord) :
    List SyncAction × Secondary × Option SyncResult :=
  if !(answers.bundle i).opens then ([], node, some .failure_sync_secondary_from_primary)
  else
    match answeredTransaction ctx (answers.bundle i) node wallet fetchedCNodeUser clockRecords with
    | (node, .committed db) =>
      if (answers.bundle i).commits then
        ([.began (.bundle i), .committed (.bundle i)], { node with db := db }, none)
      else ([.began (.bundle i)], node, some .failure_sync_secondary_from_primary)
    | (node, .leftOpen result) => ([.began (.bundle i)], node, some result)
    | (node, .threw _) =>
      if (answers.bundle i).rollsBack then
        ([.began (.bundle i), .rolledBack (.bundle i)],
          { node with db := node.db.fixInconsistentUser fetchedCNodeUser.cnodeUserUUID },
          some .failure_db_transaction)
      else ([.began (.bundle i)], node, some .failure_sync_secondary_from_primary)

/-- `secondarySyncFromPrimary.js:142–570`: the `i`-th bundle of the response. -/
def openFetchedCNodeUser (i : ℕ) (node : Secondary) (fetchedCNodeUser : FetchedCNodeUser) :
    List SyncAction × Secondary × Option SyncResult :=
  match fetchedCNodeUser.walletPublicKey with
  | none => ([], node, some .failure_malformed_export)
  | some wallet =>
    if wallet ∉ walletPublicKeys then ([], node, some .failure_malformed_export)
    else
      match fetchedCNodeUser.clockRecords with
      | none => ([], node, some .failure_sync_secondary_from_primary)
      | some clockRecords =>
        match checkClocks localMaxClockVal fetchedCNodeUser.clock
            (clockRecords.map ClockRecord.clock) with
        | some .success => ([], node, none)
        | some result => ([], node, some result)
        | none => openTransaction ctx answers i node wallet fetchedCNodeUser clockRecords

/-- The bundles of the response from the `i`-th on, up to one that the call ends with. -/
def openFetchedCNodeUsers (walletPublicKeys : List Wallet) (localMaxClockVal : ℤ) :
    ℕ → Secondary → List FetchedCNodeUser → List SyncAction × Secondary × SyncResult
  | _, node, [] => ([], node, .success)
  | i, node, fetchedCNodeUser :: rest =>
    match openFetchedCNodeUser ctx answers walletPublicKeys localMaxClockVal i node
        fetchedCNodeUser with
    | (log, node, some result) => (log, node, result)
    | (log, node, none) =>
      let (log', node, result) :=
        openFetchedCNodeUsers walletPublicKeys localMaxClockVal (i + 1) node rest
      (log ++ log', node, result)

/-- `secondarySyncFromPrimary.js:91–570`: what the call does with a response. -/
def openFromResponse (node : Secondary) :
    ExportResponse → List SyncAction × Secondary × SyncResult
  | .rejected => ([], node, .failure_sync_secondary_from_primary)
  | .status => ([], node, .failure_export_wallet)
  | .noBody => ([], node, .failure_malformed_export)
  | .noData => ([], node, .failure_sync_secondary_from_primary)
  | .noCNodeUsers => ([], node, .failure_malformed_export)
  | .cnodeUsers fetched =>
    openFetchedCNodeUsers ctx answers walletPublicKeys localMaxClockVal 0 node fetched

/-- `secondarySyncFromPrimary.js:56–587`: the `try` and its `catch`. -/
def openUnderLocks (forceResync : Bool) :
    List SyncAction × Secondary × SyncResult :=
  match openBeforeFetch answers node.db walletPublicKeys.head? forceResync with
  | (log, .error _) => (log, node, .failure_sync_secondary_from_primary)
  | (log, .ok (db, localMaxClockVal)) =>
    let (log', node, result) := openFromResponse ctx answers walletPublicKeys localMaxClockVal
      { node with db := db } (response localMaxClockVal)
    (log ++ log', node, result)

/-- `secondarySyncFromPrimary.js:12–611`: a lock that is not acquired ends the call before the
`try` whose `finally` releases the locks. -/
def handleSyncFromPrimaryLogged (forceResync : Bool) :
    List SyncAction × Secondary × SyncResult :=
  match acquireLocks answers 0 walletPublicKeys with
  | (log, false) => (log, node, .failure_sync_in_progress)
  | (log, true) =>
    let (log', node, result) :=
      openUnderLocks ctx answers node walletPublicKeys response forceResync
    (log ++ log' ++ releaseLocks answers 0 walletPublicKeys, node, result)

end ColivingSpec
