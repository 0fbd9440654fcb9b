import ColivingSpec.Discovery.ChallengeEventBus
import ColivingSpec.Discovery.Models
import ColivingSpec.Lib.Checked
import Mathlib.Data.List.Sort

/-!
# Indexing a block

One pass of the loop of `index_blocks`: the block is parsed, its row and the changes of its
transactions are added in a session of the database, the session is committed, and the challenge
events that the handlers dispatched are flushed when the scope is left. What the handlers do and
what Redis, the chain, the metadata and the database answer is met by the pass. Entities other
than blocks, metrics and caches are not kept, nothing here reads them.
-/

namespace ColivingSpec.Discovery

open Lib

/-- The contracts whose transactions are handled. -/
inductive TxType where
  | userFactory
  | digitalContentFactory
  | socialFeatureFactory
  | contentListFactory
  | userLibraryFactory
  | userReplicaSetManager
  deriving DecidableEq, Repr

/-- `index.py:92–99`: the contracts in the order of their handlers. -/
def TxType.all : List TxType :=
  [userFactory, digitalContentFactory, socialFeatureFactory, contentListFactory,
    userLibraryFactory, userReplicaSetManager]

/-- The record of a failure in Redis, `indexing:error`. -/
structure IndexingErrorRecord where
  count : ℕ
  blocknumber : ℕ
  blockhash : BlockHash
  txhash : Option TxHash
  message : String
  hasConsensus : Bool
  deriving DecidableEq, Repr

/-- What a call of a handler does: it dispatches events, and then it may raise. -/
structure Handling where
  dispatches : List Dispatch
  raised : Option String
  deriving DecidableEq, Repr

/-- What a pass meets. -/
structure Circumstances where
  /-- `indexing_transaction_index_sort_order_start_block` of the configuration. -/
  sortOrderStartBlock : ℕ
  /-- The addresses, once `update_ursm_address` has looked up the last one. -/
  contractAddresses : Except String (TxType → ChainAddress)
  /-- Whether the record of the last failure can be read. -/
  redisReads : Except String Unit
  /-- `fetch_tx_receipts`, and the reads of Redis for skipped transactions. -/
  txReceipts : Except String Unit
  /-- `fetch_cid_metadata`. -/
  cidMetadata : Except String Unit
  /-- The handlers, on the transactions of their contract. -/
  handlers : TxType → List Transaction → Handling
  /-- `session.commit`. -/
  commit : Except String Unit
  /-- Whether a failure can be recorded, and if so whether the other nodes confirm it. -/
  consensus : Except String Bool
  /-- `clear_indexing_error`. -/
  clearsError : Except String Unit
  /-- What follows the scope: the caches, and the last indexed block in Redis. -/
  afterwards : Except String Unit
  /-- Whether the push of the event at a position of the queue answers. -/
  pushes : ℕ → Bool

/-- What the loop reads and writes. -/
structure Indexer where
  blocks : List Block
  bus : ChallengeEventBus
  indexingError : Option IndexingErrorRecord
  deriving DecidableEq, Repr

/-- `index.py:444–460`. -/
def addIndexedBlockToDb (blocks : List Block) (block : ChainBlock) :
    Except String (List Block) := do
  require ((blocks.filter Block.isCurrent).length = 1) "Expected single row marked as current"
  return blocks.map Block.demote ++ [block.row]

/-- The row is added on top of the one current row. -/
theorem addIndexedBlockToDb_eq_ok {blocks blocks' : List Block} {block : ChainBlock}
    (h : addIndexedBlockToDb blocks block = .ok blocks') :
    (blocks.filter Block.isCurrent).length = 1 ∧
      blocks' = blocks.map Block.demote ++ [block.row] := by
  obtain ⟨hone, hblocks⟩ := require_bind_eq_ok.mp h
  cases hblocks
  exact ⟨hone, rfl⟩

theorem addIndexedBlockToDb_of_current {blocks : List Block} (block : ChainBlock)
    (hone : (blocks.filter Block.isCurrent).length = 1) :
    addIndexedBlockToDb blocks block = .ok (blocks.map Block.demote ++ [block.row]) := by
  rw [addIndexedBlockToDb, require, if_pos hone]
  rfl

/-- `index.py:401–411`. -/
def getTxHashToSkip (record : Option IndexingErrorRecord) : Option TxHash :=
  match record with
  | some record => if record.hasConsensus then record.txhash else none
  | none => none

/-- `sort_block_transactions.py`. -/
def sortBlockTransactions (startBlock : ℕ) (block : ChainBlock) : List Transaction :=
  if block.number > startBlock then
    block.transactions.insertionSort fun tx tx' ↦ tx.transactionIndex ≤ tx'.transactionIndex
  else
    block.transactions.insertionSort fun tx tx' ↦ tx.hash ≤ tx'.hash

/-- `index.py:429–441`: the first contract that the transaction is sent to. -/
def getContractTypeForTx (addresses : TxType → ChainAddress) (tx : Transaction) : Option TxType :=
  TxType.all.find? fun txType ↦ tx.toAddress = some (addresses txType)

/-- `index.py:621–623`. -/
def shouldSkipTx (skipTxHash : Option TxHash) (tx : Transaction) : Bool :=
  tx.toAddress.getD zeroAddress = zeroAddress ∨ skipTxHash = some tx.hash

variable (c : Circumstances)

variable (addresses : TxType → ChainAddress) (skipTxHash : Option TxHash) (indexer : Indexer)
  (bus : ChallengeEventBus)

/-- `index.py:609–635`: the transactions for a contract. -/
def txsGroupedByType (block : ChainBlock) (txType : TxType) : List Transaction :=
  (sortBlockTransactions c.sortOrderStartBlock block).filter fun tx ↦
    ¬ shouldSkipTx skipTxHash tx ∧ getContractTypeForTx addresses tx = some txType

/-- `index.py:486–513`: the handlers in their order, up to one that raises. -/
def processStateChanges (handlings : List Handling) (bus : ChallengeEventBus) :
    ChallengeEventBus × Except String Unit :=
  match handlings with
  | [] => (bus, .ok ())
  | handling :: rest =>
    match handling.raised with
    | some message => (handling.dispatches.foldl ChallengeEventBus.dispatch bus, .error message)
    | none => processStateChanges rest (handling.dispatches.foldl ChallengeEventBus.dispatch bus)

/-- What each handler does in the pass. -/
def handlings (block : ChainBlock) :
    List Handling :=
  TxType.all.map fun txType ↦
    c.handlers txType (txsGroupedByType c addresses skipTxHash block txType)

/-- `index.py:591–710`: the rows to commit, and the bus with what was dispatched for them. -/
def addStateChanges (block : ChainBlock) :
    ChallengeEventBus × Except String (List Block) :=
  match (do c.txReceipts; c.cidMetadata; addIndexedBlockToDb indexer.blocks block) with
  | .error message => (indexer.bus, .error message)
  | .ok blocks =>
    let (bus, processed) :=
      processStateChanges (handlings c addresses skipTxHash block) indexer.bus
    (bus, processed.map fun _ ↦ blocks)

/-- `get_skipped_transactions.py:102–124`. -/
def setIndexingError (record : Option IndexingErrorRecord) (block : ChainBlock)
    (txhash : Option TxHash) (message : String) (hasConsensus : Bool) : IndexingErrorRecord :=
  match record with
  | some old =>
    if old.blocknumber = block.number ∧ old.blockhash = block.hash ∧ old.txhash = txhash then
      { old with count := old.count + 1, hasConsensus := hasConsensus }
    else
      ⟨1, block.number, block.hash, txhash, message, hasConsensus⟩
  | none => ⟨1, block.number, block.hash, txhash, message, hasConsensus⟩

/-- `index.py:532–541` inside the scopes: the failure is recorded and raised, so that the session
is rolled back; the events are flushed all the same. -/
def createAndRaiseIndexingError (block : ChainBlock) (txhash : Option TxHash) (message : String) :
    Indexer × Except String Unit :=
  match c.consensus with
  | .error redisMessage => ({ indexer with bus := bus.flush c.pushes }, .error redisMessage)
  | .ok confirmed =>
    let record := setIndexingError indexer.indexingError block txhash message false
    let record :=
      if confirmed then setIndexingError (some record) block txhash message true else record
    ({ indexer with bus := bus.flush c.pushes, indexingError := some record }, .error message)

/-- `index.py:720–752`: the session is committed and the scopes are left. -/
def commitBlock (blocks : List Block) (block : ChainBlock) :
    Indexer × Except String Unit :=
  match c.commit with
  | .error message => createAndRaiseIndexingError c indexer bus block (some "commit") message
  | .ok () =>
    let committed := { indexer with blocks := blocks, bus := bus.flush c.pushes }
    match (if skipTxHash.isSome then c.clearsError else .ok ()) with
    | .error message => (committed, .error message)
    | .ok () =>
      let record := if skipTxHash.isSome then none else indexer.indexingError
      ({ committed with indexingError := record }, c.afterwards)

/-- `index.py:559–775`, the body of the loop: what is left when the pass ends, and whether it
raises. -/
def indexBlock (block : ChainBlock) : Indexer × Except String Unit :=
  match c.contractAddresses, c.redisReads with
  | .error message, _ => (indexer, .error message)
  | .ok _, .error message =>
    ({ indexer with bus := indexer.bus.flush c.pushes }, .error message)
  | .ok addresses, .ok () =>
    let skipTxHash := getTxHashToSkip indexer.indexingError
    if skipTxHash = some "commit" then
      match addIndexedBlockToDb indexer.blocks block with
      | .error message => ({ indexer with bus := indexer.bus.flush c.pushes }, .error message)
      | .ok blocks => commitBlock c skipTxHash indexer indexer.bus blocks block
    else
      match addStateChanges c addresses skipTxHash indexer block with
      | (bus, .error message) =>
        createAndRaiseIndexingError c indexer bus block none message
      | (bus, .ok blocks) => commitBlock c skipTxHash indexer bus blocks block

end ColivingSpec.Discovery
