import ColivingSpec.Discovery.EntityTable
import ColivingSpec.Discovery.IndexBlocks

/-!
# Reverting blocks

The database of the indexer, what a block changes in it, and `revert_blocks`. Each kind of entity
has its own columns, and its own query for the version before a reverted one. The entities'
other columns are not kept, no query of `revert_blocks` reads them.
-/

namespace ColivingSpec.Discovery

open Lib

/-! ### The kinds of entities -/

/-- What a user saves, and what kind of list it is. -/
inductive SaveType where
  | digitalContent
  | contentList
  | album
  deriving DecidableEq, Repr

/-- What a user reposts. -/
inductive RepostType where
  | digitalContent
  | contentList
  | album
  deriving DecidableEq, Repr

/-- The chain of a wallet. -/
inductive WalletChain where
  | eth
  | sol
  deriving DecidableEq, Repr

/-- The columns of `saves`. -/
structure Save where
  userId : ℕ
  saveItemId : ℕ
  saveType : SaveType
  deriving DecidableEq, Repr

/-- The columns of `reposts`. -/
structure Repost where
  userId : ℕ
  repostItemId : ℕ
  repostType : RepostType
  deriving DecidableEq, Repr

/-- The columns of `follows`. -/
structure Follow where
  followerUserId : ℕ
  followeeUserId : ℕ
  deriving DecidableEq, Repr

/-- The columns of `associated_wallets`. -/
structure AssociatedWallet where
  userId : ℕ
  wallet : String
  chain : WalletChain
  deriving DecidableEq, Repr

/-- The columns of `digital_content_routes`. -/
structure DigitalContentRoute where
  digitalContentId : ℕ
  slug : String
  deriving DecidableEq, Repr

/-- A kind whose versions are demoted and looked up by the same columns, one at a time. -/
def versioned {ρ κ : Type} (key : ρ → κ) (assertion : Option String) (beforeBlock : Bool)
    (thenBy : ρ → String) : EntityKind ρ κ κ where
  demoteKey := key
  assertion := assertion
  previousKey := key
  beforeBlock := beforeBlock
  thenBy := thenBy
  wholeBlock := false

/-- `user_library.py:122–133`, `index.py:870–885`: the query has no condition on the block. -/
def saveKind : EntityKind Save Save Save := versioned id none false fun _ ↦ ""

/-- `social_features.py:160–173`, `index.py:887–904`: nor has this one. -/
def repostKind : EntityKind Repost Repost Repost := versioned id none false fun _ ↦ ""

/-- `social_features.py:176–188`, `index.py:906–923`: nor has this one. -/
def followKind : EntityKind Follow Follow Follow := versioned id none false fun _ ↦ ""

/-- `content_lists.py:168–183`, `index.py:925–937`, by `content_list_id`. -/
def contentListKind : EntityKind ℕ ℕ ℕ :=
  versioned id (some "Update operation requires a current contentList to be invalidated") true
    fun _ ↦ ""

/-- `digital_contents.py:190–203`, `index.py:939–953`, by `digital_content_id`. -/
def digitalContentKind : EntityKind ℕ ℕ ℕ :=
  versioned id (some "Update operation requires a current digital_content to be invalidated") true
    fun _ ↦ ""

/-- `user_replica_set.py:409–424`, `index.py:955–970`, by `cnode_sp_id`. -/
def ursmContentNodeKind : EntityKind ℕ ℕ ℕ :=
  versioned id (some "Update operation requires a current cnode to be invalidated") true
    fun _ ↦ ""

/-- `users.py:264–268`, `index.py:973–992`, by `user_id`. -/
def userKind : EntityKind ℕ ℕ ℕ := versioned id none true fun _ ↦ ""

/-- `users.py:443–535`, `index.py:994–1014`: the wallets of a user on one chain are demoted
together, and those of the user's latest block are made current together. -/
def associatedWalletKind : EntityKind AssociatedWallet (ℕ × WalletChain) ℕ where
  demoteKey wallet := (wallet.userId, wallet.chain)
  assertion := none
  previousKey := AssociatedWallet.userId
  beforeBlock := true
  thenBy _ := ""
  wholeBlock := true

/-- `users.py:565–642`, `index.py:1045–1060`, by `user_id`: the versions of the latest block are
made current together. -/
def userEventKind : EntityKind ℕ ℕ ℕ where
  demoteKey := id
  assertion := none
  previousKey := id
  beforeBlock := true
  thenBy _ := ""
  wholeBlock := true

/-- `digital_contents.py:294–299`, `index.py:1018–1032`: routes of one block are in the order of
their slugs. -/
def digitalContentRouteKind : EntityKind DigitalContentRoute ℕ ℕ :=
  versioned DigitalContentRoute.digitalContentId none true DigitalContentRoute.slug

/-! ### The database -/

/-- The tables that `revert_blocks` writes. -/
@[ext]
structure Database where
  blocks : List Block
  saves : List (Row Save)
  reposts : List (Row Repost)
  follows : List (Row Follow)
  contentLists : List (Row ℕ)
  digitalContents : List (Row ℕ)
  users : List (Row ℕ)
  ursmContentNodes : List (Row ℕ)
  associatedWallets : List (Row AssociatedWallet)
  userEvents : List (Row ℕ)
  digitalContentRoutes : List (Row DigitalContentRoute)
  deriving DecidableEq

/-- A block with what its transactions change. -/
structure BlockChanges where
  block : ChainBlock
  saves : List (Change Save Save)
  reposts : List (Change Repost Repost)
  follows : List (Change Follow Follow)
  contentLists : List (Change ℕ ℕ)
  digitalContents : List (Change ℕ ℕ)
  users : List (Change ℕ ℕ)
  ursmContentNodes : List (Change ℕ ℕ)
  associatedWallets : List (Change AssociatedWallet (ℕ × WalletChain))
  userEvents : List (Change ℕ ℕ)
  digitalContentRoutes : List (Change DigitalContentRoute ℕ)

namespace Database

/-- `index.py:676–693`: the row of the block, and the changes of its transactions. -/
def indexBlock (db : Database) (changes : BlockChanges) : Except String Database := do
  let block := changes.block
  let blocks ← addIndexedBlockToDb db.blocks block
  let users ← userKind.indexBlock db.users block changes.users
  let associatedWallets ←
    associatedWalletKind.indexBlock db.associatedWallets block changes.associatedWallets
  let userEvents ← userEventKind.indexBlock db.userEvents block changes.userEvents
  let digitalContents ←
    digitalContentKind.indexBlock db.digitalContents block changes.digitalContents
  let digitalContentRoutes ← digitalContentRouteKind.indexBlock db.digitalContentRoutes block
    changes.digitalContentRoutes
  let reposts ← repostKind.indexBlock db.reposts block changes.reposts
  let follows ← followKind.indexBlock db.follows block changes.follows
  let contentLists ← contentListKind.indexBlock db.contentLists block changes.contentLists
  let saves ← saveKind.indexBlock db.saves block changes.saves
  let ursmContentNodes ←
    ursmContentNodeKind.indexBlock db.ursmContentNodes block changes.ursmContentNodes
  return {
    blocks, saves, reposts, follows, contentLists, digitalContents, users, ursmContentNodes,
    associatedWallets, userEvents, digitalContentRoutes }

/-- The blocks one after another. -/
def indexBlocks (db : Database) (blocks : List BlockChanges) : Except String Database :=
  blocks.foldlM indexBlock db

/-- `index.py:818–820`: the parent hash, under which the row below the first block is found. -/
def parentHash (revertBlock : Block) : BlockHash :=
  if revertBlock.parenthash = defaultPaddedStartHash then defaultConfigStartHash
  else revertBlock.parenthash

/-- `index.py:822–828,1034–1035`: the parent of the block is made current, and the row is
deleted. -/
def revertBlockRow (blocks : List Block) (revertBlock : Block) : List Block :=
  let demoted := blocks.map fun row ↦
    if row.blockhash = revertBlock.blockhash then row.demote else row
  let promoted := demoted.map fun row ↦
    if row.blockhash = parentHash revertBlock then { row with isCurrent := true } else row
  promoted.filter fun row ↦ row.blockhash ≠ revertBlock.blockhash

/-- `index.py:810–1035`, the body of the loop. -/
def revertBlock (db : Database) (block : Block) : Database where
  blocks := revertBlockRow db.blocks block
  saves := saveKind.revertBlock db.saves block
  reposts := repostKind.revertBlock db.reposts block
  follows := followKind.revertBlock db.follows block
  contentLists := contentListKind.revertBlock db.contentLists block
  digitalContents := digitalContentKind.revertBlock db.digitalContents block
  users := userKind.revertBlock db.users block
  ursmContentNodes := ursmContentNodeKind.revertBlock db.ursmContentNodes block
  associatedWallets := associatedWalletKind.revertBlock db.associatedWallets block
  userEvents := userEventKind.revertBlock db.userEvents block
  digitalContentRoutes := digitalContentRouteKind.revertBlock db.digitalContentRoutes block

/-- `index.py:782–1042`: of a longer list only the first 500 blocks are reverted. -/
def revertBlocks (db : Database) (revertBlocksList : List Block) : Except String Database :=
  if revertBlocksList.length > 10000 then
    .error "Unexpected revert, >10,0000 blocks"
  else
    .ok ((revertBlocksList.take 500).foldl revertBlock db)

end Database

end ColivingSpec.Discovery
