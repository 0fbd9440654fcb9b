import ColivingSpec.Discovery.RevertBlocks
import ColivingSpec.Lib.HashChain

/-!
# The indexing task

One run of `update_task`: from a block of the chain the run goes back to a block whose parent is
in the table, then from the current row of the table back to that parent, reverts the rows it
passed and indexes the blocks it passed. The table of blocks is kept, the handlers write the
others. What the run sees of the chain does not change while it runs.
-/

namespace ColivingSpec.Discovery

open Lib

/-- What hashes commit to: the parent and the number of a block. -/
structure Headers where
  parentOf : BlockHash → BlockHash
  numberOf : BlockHash → ℕ

/-- A chain as a run sees it, from its first block on. -/
structure ChainView (headers : Headers) where
  blocks : List ChainBlock
  nonempty : blocks ≠ []
  parent : ∀ block ∈ blocks, block.parentHash = headers.parentOf block.hash
  number : ∀ block ∈ blocks, block.number = headers.numberOf block.hash
  segment : Segment headers.parentOf headers.numberOf 0 (blocks.map ChainBlock.hash)
  first : ∀ block ∈ blocks, block.parentHash = defaultPaddedStartHash ↔ block.number = 0
  proper : ∀ block ∈ blocks, block.hash ≠ defaultPaddedStartHash ∧
    block.hash ≠ defaultConfigStartHash

/-- The configuration: where indexing starts, and how many blocks a run goes forward. -/
structure DiscprovConfig where
  startBlock : BlockHash
  blockProcessingWindow : ℕ

namespace ChainView

variable {headers : Headers}

variable (view : ChainView headers)

/-- The hashes of a chain. -/
def hashes : List BlockHash := view.blocks.map ChainBlock.hash

/-- `web3.eth.get_block` with a hash. -/
def getBlock (hash : BlockHash) : Except String ChainBlock :=
  match view.blocks.find? fun block ↦ block.hash = hash with
  | some block => .ok block
  | none => .error "BlockNotFound"

/-- `web3.eth.get_block` with a number. -/
def getBlockByNumber (number : ℕ) : Except String ChainBlock :=
  match view.blocks[number]? with
  | some block => .ok block
  | none => .error "BlockNotFound"

/-- `web3.eth.get_block("latest")`. -/
def latest : ChainBlock := view.blocks.getLast view.nonempty

end ChainView

/-- The one row marked as current. -/
def currentRow (rows : List Block) : Except String Block :=
  match rows.filter Block.isCurrent with
  | [row] => .ok row
  | _ => .error "Expected SINGLE row marked as current"

variable {headers : Headers} (config : DiscprovConfig) (view : ChainView headers)

/-- `index.py:129`: the block that indexing starts with; a start of 0x0 is the number 0. -/
def getTargetBlock : Except String ChainBlock :=
  if config.startBlock = defaultConfigStartHash then view.getBlockByNumber 0
  else view.getBlock config.startBlock

variable (rows : List Block)

/-- `index.py:124–171`. -/
def initializeBlocksTableIfNecessary : Except String (List Block) := do
  let targetBlock ← getTargetBlock config view
  if rows.filter Block.isCurrent = [] then
    require (rows = []) "Corrupted DB State - Expect single row marked as current"
    let number :=
      if targetBlock.number = 0 ∨ config.startBlock = defaultConfigStartHash then none
      else some targetBlock.number
    return [⟨config.startBlock, config.startBlock, number, true⟩]
  else
    let _ ← currentRow rows
    return rows

/-- `index.py:174–203`. -/
def getLatestBlock : Except String ChainBlock := do
  let currentBlock ← currentRow rows
  let currentBlockNumber := currentBlock.number.getD 0
  view.getBlockByNumber
    (min (currentBlockNumber + config.blockProcessingWindow) view.latest.number)

/-- Whether a row has the hash. -/
def inBlocks (hash : BlockHash) : Bool :=
  rows.any fun row ↦ row.blockhash = hash

/-- `index.py:1149–1198`: back from a block of the chain to one whose parent has a row. -/
def populateIndexBlocksList (rows : List Block) :
    ℕ → ChainBlock → List ChainBlock → Except String (List ChainBlock × BlockHash)
  | 0, _, _ => .error "The search does not end"
  | fuel + 1, latestBlock, indexBlocksList =>
    if inBlocks rows latestBlock.hash then .ok (indexBlocksList, latestBlock.hash)
    else if latestBlock.parentHash = defaultPaddedStartHash then
      .ok (indexBlocksList ++ [latestBlock], defaultConfigStartHash)
    else
      match view.getBlock latestBlock.parentHash with
      | .error message => .error message
      | .ok parent =>
        if inBlocks rows latestBlock.parentHash then
          .ok (indexBlocksList ++ [latestBlock], parent.hash)
        else populateIndexBlocksList rows fuel parent (indexBlocksList ++ [latestBlock])

/-- `index.py:1221–1238`: back from a row to the one with the hash. -/
def populateRevertBlocksList (rows : List Block) (intersectBlockHash : BlockHash) :
    ℕ → Block → List Block → Except String (List Block)
  | 0, _, _ => .error "The search does not end"
  | fuel + 1, traverseBlock, revertBlocksList =>
    if traverseBlock.blockhash = intersectBlockHash then .ok revertBlocksList
    else
      match rows.find? fun row ↦ row.blockhash = traverseBlock.parenthash with
      | none => .ok (revertBlocksList ++ [traverseBlock])
      | some parent =>
        populateRevertBlocksList rows intersectBlockHash fuel parent
          (revertBlocksList ++ [traverseBlock])

/-- `index.py:1140–1238`: the blocks to index, the latest one first, and the rows to revert. -/
def populateLists : Except String (List ChainBlock × List Block) := do
  let latestBlock ← getLatestBlock config view rows
  let (indexBlocksList, intersectBlockHash) ←
    populateIndexBlocksList view rows (view.blocks.length + 1) latestBlock []
  let dbCurrentBlock ← currentRow rows
  let revertBlocksList ←
    populateRevertBlocksList rows intersectBlockHash (rows.length + 1) dbCurrentBlock []
  return (indexBlocksList, revertBlocksList)

/-- `index.py:782–828`: what `revert_blocks` does to the table of blocks. -/
def revertBlockRows (revertBlocksList : List Block) : Except String (List Block) :=
  if revertBlocksList.length > 10000 then
    .error "Unexpected revert, >10,0000 blocks"
  else
    .ok ((revertBlocksList.take 500).foldl Database.revertBlockRow rows)

/-- What a pass of `index_blocks` whose handlers do not raise does to the table of blocks: its row
is committed, if its hash and its number are not in the table. -/
def commitBlockRow (block : ChainBlock) : Except String (List Block) := do
  let rows' ← addIndexedBlockToDb rows block
  require (¬ inBlocks rows block.hash) "duplicate key value violates unique constraint (blockhash)"
  require (∀ row ∈ rows, row.number ≠ some block.number)
    "duplicate key value violates unique constraint (number)"
  return rows'

/-- `index.py:544–778`: from the end of the list, up to a pass that raises. -/
def indexBlockRows (indexBlocksList : List ChainBlock) : List Block × Except String Unit :=
  indexBlocksList.foldr
    (fun block result ↦
      match result with
      | (rows, .error message) => (rows, .error message)
      | (rows, .ok ()) =>
        match commitBlockRow rows block with
        | .error message => (rows, .error message)
        | .ok rows' => (rows', .ok ()))
    (rows, .ok ())

/-- `index.py:1140–1245`: the blocks to index, and the table they are to be indexed on. -/
def beforeIndexing : Except String (List ChainBlock × List Block) := do
  let (indexBlocksList, revertBlocksList) ← populateLists config view rows
  let reverted ← revertBlockRows rows revertBlocksList
  return (indexBlocksList, reverted)

/-- `index.py:1063–1260`: a run that acquires the lock. What is committed before the run raises
stays. -/
def updateTask : List Block × Except String Unit :=
  match initializeBlocksTableIfNecessary config view rows with
  | .error message => (rows, .error message)
  | .ok rows =>
    match beforeIndexing config view rows with
    | .error message => (rows, .error message)
    | .ok (indexBlocksList, reverted) => indexBlockRows reverted indexBlocksList

end ColivingSpec.Discovery
