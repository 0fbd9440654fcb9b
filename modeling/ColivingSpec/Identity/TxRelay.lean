import ColivingSpec.Lib.Replay

/-!
# The transaction relay

`sendTransaction` of the identity service (`relay/txRelay.js`) with the `Lock` of `redis.js`.
Every call of a request to the database, Redis or a provider is a step of its own, so that
requests interleave between any two of them and each can fail; a write that fails may have
been applied all the same. What goes to the providers is kept as a history.
-/

namespace ColivingSpec

open Lib

namespace TxRelay

/-- An entry of `relayerWallets`. -/
structure Wallet where
  publicKey : String
  privateKey : String

/-- `txRelay.js:65–71`. -/
structure TxProps where
  contractRegistryKey : String
  contractAddress : String
  encodedABI : String
  senderAddress : String
  gasLimit : Option ℕ

/-- `txRelay.js:218–228`, with the data. -/
structure TxParams where
  nonce : ℕ
  gasPrice : ℕ
  gasLimit : ℕ
  receiverAddress : String
  value : ℕ
  data : String

/-- What a provider returns for a transaction. -/
structure Receipt where
  transactionHash : String

/-- What the decoder of the ABI returns. -/
structure DecodedABI where
  name : String

/-- `txRelay.js:104–110`. -/
structure RedisLogParams where
  date : ℕ
  reqBodySHA : String
  txParams : TxParams
  senderAddress : String
  nonce : ℕ

/-- A row of `models/transaction.js`; `encodedABI` is the primary key. -/
structure Transaction where
  encodedABI : String
  decodedABI : DecodedABI
  receipt : Receipt
  contractRegistryKey : String
  contractFn : String
  contractAddress : String
  senderAddress : String

/-- The configuration, and the packages that decode and derive addresses. -/
structure Config where
  relayerWallets : List Wallet
  minGasPrice : ℕ
  highGasPrice : ℕ
  ganacheGasPrice : ℕ
  defaultGasLimit : ℕ
  /-- `ColivingABIDecoder.decodeMethod`, which may throw. -/
  decodeMethod : String → String → Option DecodedABI
  /-- The address of a private key. -/
  getAddressString : String → String

/-- The two web3 providers. -/
inductive Provider where
  | primary
  | secondary
  deriving DecidableEq

/-- What a request that has a wallet does next. -/
inductive Task where
  | getGasPrice
  | getTransactionCount (gasPrice : ℕ)
  | sendSignedTransaction (txParams : TxParams)
  | logAttempt (receipt : Receipt) (redisLogParams : RedisLogParams)
  | logSuccess (receipt : Receipt) (redisLogParams : RedisLogParams)
  | logHash (receipt : Receipt) (redisLogParams : RedisLogParams)
  | logFailure (redisLogParams : Option RedisLogParams)
  | clearLock (txReceipt : Option Receipt)

/-- The call a request waits for. -/
inductive Stage where
  | findOne
  | selectWallet (decodedABI : DecodedABI)
  | setLock (decodedABI : DecodedABI) (i count : ℕ)
  | relaying (decodedABI : DecodedABI) (wallet : Wallet) (task : Task)
  | create (decodedABI : DecodedABI) (txReceipt : Receipt)
  | returned (receipt : Receipt)
  | thrown

/-- A call of `sendTransaction`, with the provider of its current attempt. -/
structure Request where
  txProps : TxProps
  reqBodySHA : String
  web3 : Provider
  stage : Stage

/-- What goes to the providers and comes back, by encoded ABI. -/
inductive Wire where
  | sent (encodedABI : String)
  | receipt (encodedABI : String)
  deriving DecidableEq

/-- The requests, Redis with the deletions sent to it, the table, and the history. -/
structure Relay where
  requests : ℕ → Option Request
  locked : String → Bool
  deletions : List String
  relayTxAttempts : List RedisLogParams
  relayTxSuccesses : List RedisLogParams
  relayTxFailures : List (Option RedisLogParams)
  txHashToSenderAddress : String → Option String
  transactions : String → Option Transaction
  wire : List Wire

/-- No request has come, and no wallet is locked. -/
def Relay.initial : Relay where
  requests := fun _ ↦ none
  locked := fun _ ↦ false
  deletions := []
  relayTxAttempts := []
  relayTxSuccesses := []
  relayTxFailures := []
  txHashToSenderAddress := fun _ ↦ none
  transactions := fun _ ↦ none
  wire := []

/-- What a call returns. One that fails may have been applied. -/
inductive Answer where
  | ok
  | fails (applied : Bool)
  | offset (i : ℕ)
  | gasPrice (gasPrice : Option ℕ)
  | nonce (nonce : ℕ)
  | receipt (receipt : Receipt) (date : ℕ)

/-- `txRelay.js:28`. -/
def generateWalletLockKey (publicKey : String) : String := "DATA_RELAYER_WALLET:" ++ publicKey

namespace Wallet

/-- The key of the wallet's lock. -/
def lockKey (wallet : Wallet) : String := generateWalletLockKey wallet.publicKey

end Wallet

namespace Config

variable (c : Config)

/-- `txRelay.js:30–45`. The answer is `none` when it is not a number. -/
def getGasPrice : Option ℕ → ℕ
  | none => c.ganacheGasPrice
  | some gasPrice =>
    if c.highGasPrice < gasPrice then c.ganacheGasPrice
    else if gasPrice = 0 then c.minGasPrice
    else if gasPrice < c.minGasPrice then c.minGasPrice
    else gasPrice

/-- The head of `createAndSendTransaction`, `txRelay.js:207–212`. -/
def firstTask (wallet : Wallet) : Task :=
  if c.getAddressString wallet.privateKey ≠ wallet.publicKey.toLower then .logFailure none
  else .getGasPrice

/-- `txRelay.js:215–228`. -/
def txParams (txProps : TxProps) (gasPrice nonce : ℕ) : TxParams where
  nonce
  gasPrice
  gasLimit := match txProps.gasLimit with
    | none | some 0 => c.defaultGasLimit
    | some gasLimit => gasLimit
  receiverAddress := txProps.contractAddress
  value := 0
  data := txProps.encodedABI

/-- The head of the loop of `selectWallet`, `txRelay.js:151`. A round without a free wallet is
followed by another one, `txRelay.js:94–97`. -/
def nextWallet (decodedABI : DecodedABI) (i count : ℕ) : Stage :=
  if count < c.relayerWallets.length then .setLock decodedABI i count
  else .selectWallet decodedABI

end Config

namespace Request

variable (q : Request)

/-- Go on to another call. -/
def goTo (stage : Stage) : Request := { q with stage }

/-- The error reaches `sendTransaction`, `txRelay.js:48–57`. -/
def throws : Request :=
  match q.web3 with
  | .primary => { q with web3 := .secondary, stage := .findOne }
  | .secondary => { q with stage := .thrown }

/-- `txRelay.js:104–110`. -/
def redisLogParams (txParams : TxParams) (date : ℕ) : RedisLogParams where
  date
  reqBodySHA := q.reqBodySHA
  txParams
  senderAddress := q.txProps.senderAddress
  nonce := txParams.nonce

/-- `txRelay.js:129–137`. -/
def transaction (decodedABI : DecodedABI) (receipt : Receipt) : Transaction where
  encodedABI := q.txProps.encodedABI
  decodedABI
  receipt
  contractRegistryKey := q.txProps.contractRegistryKey
  contractFn := decodedABI.name
  contractAddress := q.txProps.contractAddress
  senderAddress := q.txProps.senderAddress

end Request

namespace Relay

variable (s : Relay)

/-- `redis.setnx` and `redis.del` on a key. -/
def setLocked (key : String) (value : Bool) : Relay :=
  { s with locked := Function.update s.locked key value }

/-- A write that may have been applied. -/
def after (applied : Bool) (write : Relay → Relay) : Relay := if applied then write s else s

def addAttempt (p : RedisLogParams) (s : Relay) : Relay :=
  { s with relayTxAttempts := s.relayTxAttempts ++ [p] }

def addSuccess (p : RedisLogParams) (s : Relay) : Relay :=
  { s with relayTxSuccesses := s.relayTxSuccesses ++ [p] }

def addFailure (p : Option RedisLogParams) (s : Relay) : Relay :=
  { s with relayTxFailures := s.relayTxFailures ++ [p] }

def setSender (receipt : Receipt) (senderAddress : String) (s : Relay) : Relay :=
  { s with
    txHashToSenderAddress :=
      Function.update s.txHashToSenderAddress receipt.transactionHash (some senderAddress) }

/-- `models.Transaction.create`, for a key that is not there. -/
def insert (row : Transaction) (s : Relay) : Relay :=
  { s with transactions := Function.update s.transactions row.encodedABI (some row) }

def record (w : Wire) (s : Relay) : Relay := { s with wire := s.wire ++ [w] }

/-! ### The calls -/

variable (c : Config) (q : Request)

/-- `txRelay.js:74–86`. -/
def findOne : Answer → Except String (Request × Relay)
  | .ok =>
    match s.transactions q.txProps.encodedABI with
    | some existingTx => .ok (q.goTo (.returned existingTx.receipt), s)
    | none =>
      match c.decodeMethod q.txProps.contractRegistryKey.capitalize q.txProps.encodedABI with
      | some decodedABI => .ok (q.goTo (.selectWallet decodedABI), s)
      | none => .ok (q.throws, s)
  | .fails _ => .ok (q.throws, s)
  | _ => .error "another call"

variable (decodedABI : DecodedABI)

/-- `txRelay.js:147–161` from its random offset. -/
def selectWallet : Answer → Except String (Request × Relay)
  | .offset i => .ok (q.goTo (c.nextWallet decodedABI i 0), s)
  | _ => .error "another call"

/-- One turn of the loop, `txRelay.js:152–158`, with `redis.js:17–21`. -/
def setLock (i count : ℕ) (answer : Answer) : Except String (Request × Relay) :=
  let next := q.goTo (c.nextWallet decodedABI (i + 1) (count + 1))
  match c.relayerWallets[i % c.relayerWallets.length]?, answer with
  | some wallet, .ok =>
    if s.locked wallet.lockKey then .ok (next, s)
    else .ok (q.goTo (.relaying decodedABI wallet (c.firstTask wallet)),
      s.setLocked wallet.lockKey true)
  | some wallet, .fails applied => .ok (next, s.after applied (setLocked · wallet.lockKey true))
  | _, _ => .error "another call"

/-- `txRelay.js:99–123` and `205–236`. The deletion of the lock is sent and not waited for,
`redis.js:34–36`. -/
def relay (wallet : Wallet) : Task → Answer →
    Except String (Request × Relay)
  | .getGasPrice, .gasPrice answer =>
    .ok (q.goTo (.relaying decodedABI wallet (.getTransactionCount (c.getGasPrice answer))), s)
  | .getTransactionCount gasPrice, .nonce nonce =>
    .ok (q.goTo (.relaying decodedABI wallet
        (.sendSignedTransaction (c.txParams q.txProps gasPrice nonce))),
      s.record (.sent q.txProps.encodedABI))
  | .sendSignedTransaction txParams, .receipt receipt date =>
    .ok (q.goTo (.relaying decodedABI wallet
        (.logAttempt receipt (q.redisLogParams txParams date))),
      s.record (.receipt q.txProps.encodedABI))
  | .logAttempt receipt params, .ok =>
    .ok (q.goTo (.relaying decodedABI wallet (.logSuccess receipt params)), s.addAttempt params)
  | .logSuccess receipt params, .ok =>
    .ok (q.goTo (.relaying decodedABI wallet (.logHash receipt params)), s.addSuccess params)
  | .logHash receipt _, .ok =>
    .ok (q.goTo (.relaying decodedABI wallet (.clearLock (some receipt))),
      s.setSender receipt q.txProps.senderAddress)
  | .getGasPrice, .fails _ | .getTransactionCount _, .fails _ | .sendSignedTransaction _, .fails _ =>
    .ok (q.goTo (.relaying decodedABI wallet (.logFailure none)), s)
  | .logAttempt _ params, .fails applied =>
    .ok (q.goTo (.relaying decodedABI wallet (.logFailure (some params))),
      s.after applied (addAttempt params))
  | .logSuccess _ params, .fails applied =>
    .ok (q.goTo (.relaying decodedABI wallet (.logFailure (some params))),
      s.after applied (addSuccess params))
  | .logHash receipt params, .fails applied =>
    .ok (q.goTo (.relaying decodedABI wallet (.logFailure (some params))),
      s.after applied (setSender receipt q.txProps.senderAddress))
  | .logFailure params, .ok =>
    .ok (q.goTo (.relaying decodedABI wallet (.clearLock none)), s.addFailure params)
  | .logFailure params, .fails applied =>
    .ok (q.goTo (.relaying decodedABI wallet (.clearLock none)),
      s.after applied (addFailure params))
  | .clearLock txReceipt, .ok =>
    let s := { s with deletions := s.deletions ++ [wallet.lockKey] }
    match txReceipt with
    | some receipt => .ok (q.goTo (.create decodedABI receipt), s)
    | none => .ok (q.throws, s)
  | _, _ => .error "another call"

/-- `txRelay.js:129–139`. -/
def create (receipt : Receipt) :
    Answer → Except String (Request × Relay)
  | .ok =>
    if (s.transactions q.txProps.encodedABI).isSome then .ok (q.throws, s)
    else .ok (q.goTo (.returned receipt), s.insert (q.transaction decodedABI receipt))
  | .fails applied =>
    if (s.transactions q.txProps.encodedABI).isSome then .ok (q.throws, s)
    else .ok (q.throws, s.after applied (insert (q.transaction decodedABI receipt)))
  | _ => .error "another call"

/-- The call of the request returns. -/
def proceed (answer : Answer) : Except String (Request × Relay) :=
  match q.stage with
  | .findOne => s.findOne c q answer
  | .selectWallet decodedABI => s.selectWallet c q decodedABI answer
  | .setLock decodedABI i count => s.setLock c q decodedABI i count answer
  | .relaying decodedABI wallet task => s.relay c q decodedABI wallet task answer
  | .create decodedABI receipt => s.create q decodedABI receipt answer
  | .returned _ | .thrown => .error "no call"

end Relay

/-- What can happen: a call of `sendTransaction`, a call of a request returning, and a deletion
carried out or lost. -/
inductive Event where
  | sendTransaction (id : ℕ) (txProps : TxProps) (reqBodySHA : String)
  | returns (id : ℕ) (answer : Answer)
  | deleted (key : String) (applied : Bool)

/-- One event. -/
def step (c : Config) (s : Relay) : Event → Except String Relay
  | .sendTransaction id txProps reqBodySHA => do
    require (s.requests id).isNone "id in use"
    return { s with
      requests := Function.update s.requests id (some ⟨txProps, reqBodySHA, .primary, .findOne⟩) }
  | .returns id answer =>
    match s.requests id with
    | none => .error "no request"
    | some q => do
      let (q, s) ← s.proceed c q answer
      return { s with requests := Function.update s.requests id (some q) }
  | .deleted key applied => do
    require (key ∈ s.deletions) "no deletion"
    let s := { s with deletions := s.deletions.erase key }
    return s.after applied (·.setLocked key false)

end TxRelay

end ColivingSpec
