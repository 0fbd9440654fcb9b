import Mathlib.Data.Nat.Notation

/-!
# What the indexer reads and writes

A block as the chain gives it, and its row in the `blocks` table. Hashes and addresses are the
strings the code writes them as.
-/

namespace ColivingSpec.Discovery

/-- A hash of a block, in hex. -/
abbrev BlockHash := String

/-- A hash of a transaction, in hex. -/
abbrev TxHash := String

/-- An address of an account or a contract, in hex. -/
abbrev ChainAddress := String

/-- `index.py:114`: stands for no account. -/
def zeroAddress : ChainAddress := "0x0000000000000000000000000000000000000000"

/-- `index.py:108–110`: the parent hash of the first block of a chain. -/
def defaultPaddedStartHash : BlockHash :=
  "0x0000000000000000000000000000000000000000000000000000000000000000"

/-- `index.py:111`: the hash of the row that stands below the first block. -/
def defaultConfigStartHash : BlockHash := "0x0"

/-- A transaction of a block. -/
structure Transaction where
  hash : TxHash
  toAddress : Option ChainAddress
  transactionIndex : ℕ
  deriving DecidableEq, Repr

/-- A block of the chain, with its transactions. -/
structure ChainBlock where
  hash : BlockHash
  parentHash : BlockHash
  number : ℕ
  transactions : List Transaction
  deriving DecidableEq, Repr

/-- A row of the `blocks` table. -/
structure Block where
  blockhash : BlockHash
  parenthash : BlockHash
  number : Option ℕ
  isCurrent : Bool
  deriving DecidableEq, Repr

/-- The row with `is_current` cleared. -/
def Block.demote (row : Block) : Block := { row with isCurrent := false }

/-- The row of a block, as the current one. -/
def ChainBlock.row (block : ChainBlock) : Block where
  blockhash := block.hash
  parenthash := block.parentHash
  number := some block.number
  isCurrent := true

end ColivingSpec.Discovery
