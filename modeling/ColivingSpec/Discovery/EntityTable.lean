import ColivingSpec.Discovery.Models
import ColivingSpec.Lib.Checked
import Mathlib.Data.List.MinMax
import Mathlib.Data.Prod.Lex
import Mathlib.Data.String.Basic
import Mathlib.Order.Nat

/-!
# Tables of entities

The tables of entities keep every version of an entity, one of them marked as current. Indexing
a block demotes the versions of an entity and adds the new ones; reverting a block looks up a
previous version for each row of the block, makes it current and deletes the row. The kinds of
entities differ in the columns they are looked up by and in the query for the previous version.
-/

namespace ColivingSpec.Discovery

open Lib

/-- A row of a table of entities. The rows of a table are told apart by their primary keys, which
`rowId` stands for; `columns` has the columns that the queries read. -/
structure Row (ρ : Type) where
  rowId : ℕ
  columns : ρ
  blockhash : Option BlockHash
  blocknumber : Option ℕ
  isCurrent : Bool
  deriving DecidableEq, Repr

/-- What is particular to a kind of entity, of rows with columns `ρ`. -/
structure EntityKind (ρ κ π : Type) where
  /-- The columns by which the previous versions are demoted. -/
  demoteKey : ρ → κ
  /-- The message of the assertion that there was a current version to demote, if it is made. -/
  assertion : Option String
  /-- The columns by which the previous version is looked up. -/
  previousKey : ρ → π
  /-- Whether only versions of earlier blocks are looked up. -/
  beforeBlock : Bool
  /-- The column that orders versions of one block, if there is one, else a constant. -/
  thenBy : ρ → String
  /-- Whether all versions of the previous one's block are made current, or that one alone. -/
  wholeBlock : Bool

/-- The rows that a handler adds together for one entity. -/
structure Change (ρ κ : Type) where
  subject : κ
  added : List (ℕ × ρ)

namespace Row

variable {ρ : Type}

variable (row : Row ρ)

/-- The row with `is_current` cleared. -/
def demote : Row ρ := { row with isCurrent := false }

/-- The row with `is_current` set. -/
def promote : Row ρ := { row with isCurrent := true }

/-- A new row of a block. -/
def new (block : ChainBlock) (added : ℕ × ρ) : Row ρ where
  rowId := added.1
  columns := added.2
  blockhash := some block.hash
  blocknumber := some block.number
  isCurrent := true

/-- The row is of a block before the number; a comparison with `NULL` holds of no row. -/
def before (number : Option ℕ) : Bool :=
  match row.blocknumber, number with
  | some n, some number => n < number
  | _, _ => false

end Row

/-- The block comes after the indexed ones. -/
def Extends (blocks : List ChainBlock) (block : ChainBlock) : Prop :=
  ∀ earlier ∈ blocks, earlier.number < block.number ∧ earlier.hash ≠ block.hash

instance (blocks : List ChainBlock) (block : ChainBlock) : Decidable (Extends blocks block) :=
  inferInstanceAs (Decidable (∀ _ ∈ _, _))

/-- The place of a block number in descending order, where `NULL` comes first. -/
def descending : Option ℕ → (WithTop ℕ)ᵒᵈ
  | none => OrderDual.toDual ⊤
  | some n => OrderDual.toDual (WithTop.some n)

namespace EntityKind

variable {ρ κ π : Type} [DecidableEq κ] [DecidableEq π] (kind : EntityKind ρ κ π)

/-! ### Indexing -/

/-- The versions of an entity are demoted, and new ones are added. -/
def change (block : ChainBlock) (table : List (Row ρ)) (change : Change ρ κ) :
    Except String (List (Row ρ)) :=
  let versions := table.filter fun row ↦ kind.demoteKey row.columns = change.subject
  let demoted := table.map fun row ↦
    if kind.demoteKey row.columns = change.subject then row.demote else row
  match kind.assertion with
  | some message =>
    if versions ≠ [] ∧ versions.all (fun row ↦ !row.isCurrent) then .error message
    else .ok (demoted ++ change.added.map (Row.new block))
  | none => .ok (demoted ++ change.added.map (Row.new block))

variable (table : List (Row ρ))

/-- The changes of a block, in their order. -/
def indexBlock (block : ChainBlock) (changes : List (Change ρ κ)) : Except String (List (Row ρ)) :=
  changes.foldlM (kind.change block) table

/-! ### Reverting -/

/-- The versions that the query for a previous one selects. -/
def candidates (key : π) (number : Option ℕ) : List (Row ρ) :=
  table.filter fun row ↦
    kind.previousKey row.columns = key ∧ (kind.beforeBlock → row.before number)

/-- The order of the query: the latest block first. -/
def order (row : Row ρ) : (WithTop ℕ)ᵒᵈ ×ₗ String :=
  toLex (descending row.blocknumber, kind.thenBy row.columns)

/-- The first of the selected versions; rows that the order leaves equal are taken in the order
of the table. -/
def previousEntry (key : π) (number : Option ℕ) : Option (Row ρ) :=
  (kind.candidates table key number).argmin kind.order

/-- The row is made current together with the previous version that was found. -/
def restores (previous row : Row ρ) : Bool :=
  if kind.wholeBlock then
    kind.previousKey row.columns = kind.previousKey previous.columns ∧
      row.blocknumber = previous.blocknumber
  else row.rowId = previous.rowId

/-- A row to revert: the previous version is made current, and the row is deleted. -/
def revertEntry (number : Option ℕ) (table : List (Row ρ)) (entry : Row ρ) : List (Row ρ) :=
  let restored :=
    match kind.previousEntry table (kind.previousKey entry.columns) number with
    | some previous => table.map fun row ↦ if kind.restores previous row then row.promote else row
    | none => table
  restored.filter fun row ↦ row.rowId ≠ entry.rowId

/-- The rows of a block, in the order of the table. -/
def revertBlock (block : Block) : List (Row ρ) :=
  (table.filter fun row ↦ row.blockhash = some block.blockhash).foldl
    (kind.revertEntry block.number) table

end EntityKind

end ColivingSpec.Discovery
