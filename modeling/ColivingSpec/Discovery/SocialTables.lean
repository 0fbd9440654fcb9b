import ColivingSpec.Discovery.SocialFeatures
import ColivingSpec.Lib.Replay

/-!
# The social tables over blocks

The tables of reposts, saves and follows, and the counts that the row triggers keep, as blocks are
indexed and reverted. A trigger runs for each inserted row and knows that row alone; `revert_blocks`
inserts none. The rows that a block adds to `content_lists` are taken as they are added.
-/

namespace ColivingSpec.Discovery

open Lib

/-! ### The triggers -/

/-- The counts of a user that the triggers keep; a row of zeros is there before any. -/
structure AggregateUser where
  repostCount : ℤ
  digitalContentSaveCount : ℤ
  followerCount : ℤ
  followingCount : ℤ
  deriving DecidableEq, Repr

/-- The counts of a digital content or a content list. -/
structure AggregateItem where
  repostCount : ℤ
  saveCount : ℤ
  deriving DecidableEq, Repr

/-- `aggregate_user`, `aggregate_digital_content` and `aggregate_content_list`. -/
structure Aggregates where
  user : ℕ → AggregateUser
  digitalContent : ℕ → AggregateItem
  contentList : ℕ → AggregateItem

/-- Increment or decrement, by `new.is_delete`. -/
def delta (isDelete : Bool) : ℤ := if isDelete then -1 else 1

namespace Aggregates

/-- Nothing is counted. -/
def zero : Aggregates where
  user _ := ⟨0, 0, 0, 0⟩
  digitalContent _ := ⟨0, 0⟩
  contentList _ := ⟨0, 0⟩

variable (agg : Aggregates) (id : ℕ)

/-- A row of `aggregate_user` is updated. -/
def updateUser (f : AggregateUser → AggregateUser) : Aggregates :=
  { agg with user := Function.update agg.user id (f (agg.user id)) }

/-- A row of `aggregate_digital_content` is updated. -/
def updateDigitalContent (f : AggregateItem → AggregateItem) : Aggregates :=
  { agg with digitalContent := Function.update agg.digitalContent id (f (agg.digitalContent id)) }

/-- A row of `aggregate_content_list` is updated. -/
def updateContentList (f : AggregateItem → AggregateItem) : Aggregates :=
  { agg with contentList := Function.update agg.contentList id (f (agg.contentList id)) }

section Updates

variable (agg : Aggregates) (id id' : ℕ) (f : AggregateUser → AggregateUser)
variable (g : AggregateItem → AggregateItem)

@[simp] theorem user_updateUser :
    (agg.updateUser id f).user id' = if id' = id then f (agg.user id') else agg.user id' := by
  simp only [updateUser, Function.update_apply]
  split
  · next heq => rw [heq]
  · rfl

@[simp] theorem digitalContent_updateDigitalContent :
    (agg.updateDigitalContent id g).digitalContent id'
      = if id' = id then g (agg.digitalContent id') else agg.digitalContent id' := by
  simp only [updateDigitalContent, Function.update_apply]
  split
  · next heq => rw [heq]
  · rfl

@[simp] theorem contentList_updateContentList :
    (agg.updateContentList id g).contentList id'
      = if id' = id then g (agg.contentList id') else agg.contentList id' := by
  simp only [updateContentList, Function.update_apply]
  split
  · next heq => rw [heq]
  · rfl

@[simp] theorem digitalContent_updateUser :
    (agg.updateUser id f).digitalContent = agg.digitalContent := rfl

@[simp] theorem contentList_updateUser :
    (agg.updateUser id f).contentList = agg.contentList := rfl

@[simp] theorem user_updateDigitalContent : (agg.updateDigitalContent id g).user = agg.user := rfl

@[simp] theorem contentList_updateDigitalContent :
    (agg.updateDigitalContent id g).contentList = agg.contentList := rfl

@[simp] theorem user_updateContentList : (agg.updateContentList id g).user = agg.user := rfl

@[simp] theorem digitalContent_updateContentList :
    (agg.updateContentList id g).digitalContent = agg.digitalContent := rfl

end Updates

end Aggregates

variable (agg : Aggregates) (sortOrderStartBlock : ℕ)

/-- `handle_repost.sql`. -/
def handleRepost (new : SocialRow Repost) : Aggregates :=
  let countRepost (item : AggregateItem) : AggregateItem :=
    { item with repostCount := item.repostCount + delta new.isDelete }
  let agg := agg.updateUser new.subject.userId fun user ↦
    { user with repostCount := user.repostCount + delta new.isDelete }
  if new.subject.repostType = .digitalContent then
    agg.updateDigitalContent new.subject.repostItemId countRepost
  else agg.updateContentList new.subject.repostItemId countRepost

/-- `handle_save.sql`: saved content lists are not counted for the user. -/
def handleSave (new : SocialRow Save) : Aggregates :=
  let countSave (item : AggregateItem) : AggregateItem :=
    { item with saveCount := item.saveCount + delta new.isDelete }
  if new.subject.saveType = .digitalContent then
    (agg.updateDigitalContent new.subject.saveItemId countSave).updateUser new.subject.userId
      fun user ↦
        { user with
          digitalContentSaveCount := user.digitalContentSaveCount + delta new.isDelete }
  else agg.updateContentList new.subject.saveItemId countSave

/-- `handle_follow.sql`. -/
def handleFollow (new : SocialRow Follow) : Aggregates :=
  let agg := agg.updateUser new.subject.followerUserId fun user ↦
    { user with followingCount := user.followingCount + delta new.isDelete }
  agg.updateUser new.subject.followeeUserId fun user ↦
    { user with followerCount := user.followerCount + delta new.isDelete }

/-! ### Blocks -/

/-- A block, with the events in the receipts of its transactions to the social feature factory and
to the user library factory, none for other transactions, and the rows that the handler of content
lists adds. -/
structure SocialBlock where
  block : ChainBlock
  socialReceipt : Transaction → List (Log SocialFeatureEvent)
  libraryReceipt : Transaction → List (Log UserLibraryEvent)
  contentLists : List (Change ContentListColumns ℕ)

/-- The receipts that the handler of social features gets, in its order. -/
def SocialBlock.socialReceipts (b : SocialBlock) : List (List (Log SocialFeatureEvent)) :=
  (sortBlockTransactions sortOrderStartBlock b.block).map b.socialReceipt

/-- The receipts that the handler of the library gets, in its order. -/
def SocialBlock.libraryReceipts (b : SocialBlock) : List (List (Log UserLibraryEvent)) :=
  (sortBlockTransactions sortOrderStartBlock b.block).map b.libraryReceipt

/-- The tables, with the indexed blocks, the latest one first. -/
structure SocialDatabase where
  blocks : List ChainBlock
  contentLists : List (Row ContentListColumns)
  reposts : List (Row (SocialRow Repost))
  saves : List (Row (SocialRow Save))
  follows : List (Row (SocialRow Follow))
  aggregates : Aggregates

namespace SocialDatabase

/-- No block is indexed. -/
def empty : SocialDatabase := ⟨[], [], [], [], [], Aggregates.zero⟩

variable (sortOrderStartBlock : ℕ)

variable (db : SocialDatabase) (b : SocialBlock)

/-- `social_features.py:17–147`. -/
def socialFeatureStateUpdate : SocialDatabase :=
  let changes := socialChanges db.contentLists (b.socialReceipts sortOrderStartBlock)
  { db with
    reposts := changes.repostRows.foldl (addSocialRow b.block) db.reposts
    follows := changes.follows.values.foldl (addSocialRow b.block) db.follows
    aggregates := changes.follows.values.foldl handleFollow
      (changes.repostRows.foldl handleRepost db.aggregates) }

/-- `content_lists.py:109–112`: the rows of the handler of content lists. -/
def contentListStateUpdate : Except String SocialDatabase := do
  let contentLists ← contentListColumnsKind.indexBlock db.contentLists b.block b.contentLists
  return { db with contentLists }

/-- `user_library.py:16–112`. -/
def userLibraryStateUpdate : SocialDatabase :=
  let changes := libraryChanges db.contentLists (b.libraryReceipts sortOrderStartBlock)
  { db with
    saves := changes.saveRows.foldl (addSocialRow b.block) db.saves
    aggregates := changes.saveRows.foldl handleSave db.aggregates }

/-- `index.py:463–513`: the handlers in their order; the next block is one that comes after those
that are indexed. -/
def indexBlock : Except String SocialDatabase := do
  require (Extends db.blocks b.block) "The block does not come after the indexed ones"
  let db := db.socialFeatureStateUpdate sortOrderStartBlock b
  let db ← db.contentListStateUpdate b
  let db := db.userLibraryStateUpdate sortOrderStartBlock b
  return { db with blocks := b.block :: db.blocks }

/-- `index.py:810–1035`, the body of the loop, on the latest block. -/
def revertBlock (db : SocialDatabase) (block : ChainBlock) : SocialDatabase :=
  { db with
    blocks := db.blocks.filter fun b ↦ b.hash ≠ block.hash
    contentLists := contentListColumnsKind.revertBlock db.contentLists block.row
    reposts := (socialKind Repost).revertBlock db.reposts block.row
    saves := (socialKind Save).revertBlock db.saves block.row
    follows := (socialKind Follow).revertBlock db.follows block.row }

/-- `index.py:782–1042`: the latest blocks, at most 500 of them. -/
def revertBlocks (count : ℕ) : Except String SocialDatabase := do
  let revertBlocksList := db.blocks.take count
  require (revertBlocksList.length ≤ 10000) "Unexpected revert, >10,0000 blocks"
  return (revertBlocksList.take 500).foldl revertBlock db

end SocialDatabase

/-- What happens: a block is indexed, or the latest blocks are reverted. -/
inductive SocialStep where
  | indexes (b : SocialBlock)
  | reverts (count : ℕ)

/-- One step. -/
def socialStep (db : SocialDatabase) :
    SocialStep → Except String SocialDatabase
  | .indexes b => db.indexBlock sortOrderStartBlock b
  | .reverts count => db.revertBlocks count

/-- The tables after the handlers of a block, when the rows of content lists are given. -/
def SocialDatabase.afterHandlers (startBlock : ℕ) (db : SocialDatabase) (b : SocialBlock)
    (contentLists : List (Row ContentListColumns)) : SocialDatabase :=
  let social := socialChanges db.contentLists (b.socialReceipts startBlock)
  let library := libraryChanges contentLists (b.libraryReceipts startBlock)
  { blocks := b.block :: db.blocks
    contentLists := contentLists
    reposts := social.repostRows.foldl (addSocialRow b.block) db.reposts
    saves := library.saveRows.foldl (addSocialRow b.block) db.saves
    follows := social.follows.values.foldl (addSocialRow b.block) db.follows
    aggregates := library.saveRows.foldl handleSave
      (social.follows.values.foldl handleFollow
        (social.repostRows.foldl handleRepost db.aggregates)) }

/-- A block that is indexed comes after the others, and the tables are those of its handlers. -/
theorem SocialDatabase.indexBlock_eq_ok {startBlock : ℕ} {db db' : SocialDatabase}
    {b : SocialBlock} (h : db.indexBlock startBlock b = .ok db') :
    Extends db.blocks b.block ∧ ∃ contentLists,
      contentListColumnsKind.indexBlock db.contentLists b.block b.contentLists
        = .ok contentLists ∧
      db' = db.afterHandlers startBlock b contentLists := by
  obtain ⟨hextends, h⟩ := require_bind_eq_ok.mp h
  obtain ⟨mid, hmid, h⟩ := bind_eq_ok.mp h
  obtain ⟨contentLists, hlists, hmid⟩ := bind_eq_ok.mp hmid
  cases pure_eq_ok.mp hmid
  cases pure_eq_ok.mp h
  exact ⟨hextends, contentLists, hlists, rfl⟩

end ColivingSpec.Discovery
