import Mathlib.Data.List.Sort
import ColivingSpec.Lib.Checked
import ColivingSpec.Lib.Dict
import ColivingSpec.Discovery.Models

/-!
# Notifications of the discovery node

The endpoint `/notifications` (`queries/notifications.py`): the favorites, reposts and creates of a
range of blocks, the owners of what they are of, and the milestones reached. A response is read by
its keys, so dictionaries keep the strings that the code writes. What notifications of other types
there are is a parameter; they stand behind these when the blocks are the same.
-/

namespace ColivingSpec

open Lib ColivingSpec.Discovery

namespace NotificationFeed

/-- `RepostType` and `SaveType`. -/
inductive EntityKind where
  | digitalContent
  | contentList
  | album
  deriving DecidableEq

/-- The value, which is what JSON has. -/
def EntityKind.value : EntityKind → String
  | digitalContent => "digital_content"
  | contentList => "content_list"
  | album => "album"

/-- The key of `owner_info`, `response_name_constants.py:72–74`. -/
def EntityKind.ownersKey : EntityKind → String
  | digitalContent => "digitalContents"
  | contentList => "content_lists"
  | album => "albums"

/-- A row of `saves` or `reposts`. -/
structure SocialRow where
  userId : ℕ
  itemId : ℕ
  type : EntityKind
  isCurrent : Bool
  isDelete : Bool
  blocknumber : ℕ
  createdAt : ℕ
  deriving DecidableEq

/-- A row of `digitalContents`. -/
structure DigitalContent where
  digitalContentId : ℕ
  ownerId : ℕ
  isCurrent : Bool
  isDelete : Bool
  isUnlisted : Bool
  stemOf : Option ℕ
  blocknumber : ℕ
  createdAt : ℕ
  updatedAt : ℕ
  deriving DecidableEq

/-- A row of `content_lists`, with the ids of its contents. -/
structure ContentList where
  contentListId : ℕ
  contentListOwnerId : ℕ
  isAlbum : Bool
  isPrivate : Bool
  isCurrent : Bool
  isDelete : Bool
  contentListContents : List ℕ
  blocknumber : ℕ
  createdAt : ℕ
  updatedAt : ℕ
  deriving DecidableEq

inductive MilestoneName where
  | listenCount
  | followerCount
  | digitalContentSaveCount
  | contentListSaveCount
  | digitalContentRepostCount
  | contentListRepostCount
  deriving DecidableEq

/-- A row of `milestones`. Milestones of listens have a slot instead of a block. -/
structure Milestone where
  name : MilestoneName
  id : ℕ
  threshold : ℕ
  blocknumber : Option ℕ
  deriving DecidableEq

structure Database where
  blocks : List Block
  saves : List SocialRow
  reposts : List SocialRow
  digitalContents : List DigitalContent
  contentLists : List ContentList
  milestones : List Milestone

/-- The metadata of a notification, as far as these types have it. -/
structure Metadata where
  entityType : Option String
  entityId : Option ℕ
  entityOwnerId : Option ℕ
  collectionContent : Option (List ℕ)
  deriving DecidableEq

structure Notification where
  type : String
  blocknumber : ℕ
  timestamp : ℕ
  initiator : ℕ
  metadata : Metadata
  deriving DecidableEq

/-- `MilestoneInfo`: the counts by id, grouped under the keys that the code writes. -/
structure MilestoneInfo where
  followerCounts : Dict ℕ ℕ
  repostCounts : NestedDict String ℕ ℕ
  favoriteCounts : NestedDict String ℕ ℕ

structure Response where
  notifications : List Notification
  minBlockNumber : ℕ
  maxBlockNumber : ℕ
  milestones : MilestoneInfo
  owners : NestedDict String ℕ ℕ

/-- `dict` of pairs. -/
def dict (pairs : List (ℕ × ℕ)) : Dict ℕ ℕ :=
  pairs.foldl (fun d pair ↦ d.set pair.1 pair.2) Dict.empty

namespace Database

variable (db : Database)

/-- Lines 46–105. -/
def getOwnerId (entityType : EntityKind) (entityId : ℕ) : Option ℕ :=
  match entityType with
  | .digitalContent =>
    (db.digitalContents.find? fun entry ↦
      entry.digitalContentId = entityId ∧ !entry.isDelete ∧ entry.isCurrent).map
        DigitalContent.ownerId
  | .album =>
    (db.contentLists.find? fun entry ↦
      entry.contentListId = entityId ∧ !entry.isDelete ∧ entry.isCurrent ∧ entry.isAlbum).map
        ContentList.contentListOwnerId
  | .contentList =>
    (db.contentLists.find? fun entry ↦
      entry.contentListId = entityId ∧ !entry.isDelete ∧ entry.isCurrent ∧ !entry.isAlbum).map
        ContentList.contentListOwnerId

/-! ### Favorites and reposts -/

/-- The rows of a range, lines 432–439 and 553–560. -/
def inRange (rows : List SocialRow) (low high : ℕ) : List SocialRow :=
  rows.filter fun row ↦
    row.isCurrent ∧ !row.isDelete ∧ low < row.blocknumber ∧ row.blocknumber ≤ high

/-- The rows whose owner there is, with the owner; `if not owner_id: continue`. -/
def withOwner (rows : List SocialRow) : List (SocialRow × ℕ) :=
  rows.filterMap fun row ↦
    match db.getOwnerId row.type row.itemId with
    | none | some 0 => none
    | some ownerId => some (row, ownerId)

/-- The notification of a favorite or a repost. -/
def socialNotification (type : String) (row : SocialRow) (ownerId : ℕ) : Notification where
  type := type
  blocknumber := row.blocknumber
  timestamp := row.createdAt
  initiator := row.userId
  metadata := ⟨some row.type.value, some row.itemId, some ownerId, none⟩

/-- Lines 428–507. -/
def favoriteNotifications (low high : ℕ) : List Notification :=
  (db.withOwner (inRange db.saves low high)).map fun entry ↦
    socialNotification "Favorite" entry.1 entry.2

/-- Lines 549–630. -/
def repostNotifications (low high : ℕ) : List Notification :=
  (db.withOwner (inRange db.reposts low high)).map fun entry ↦
    socialNotification "Repost" entry.1 entry.2

/-! ### Creates -/

/-- The notification of a digital content that is public. -/
def digitalContentNotif (entry : DigitalContent) : Notification where
  type := "Create"
  blocknumber := entry.blocknumber
  timestamp := entry.createdAt
  initiator := entry.ownerId
  metadata := ⟨some "digital_content", some entry.digitalContentId, some entry.ownerId, none⟩

/-- Lines 637–661. -/
def createdDigitalContents (low high : ℕ) : List DigitalContent :=
  db.digitalContents.filter fun entry ↦
    !entry.isUnlisted ∧ !entry.isDelete ∧ entry.stemOf = none ∧ low < entry.blocknumber ∧
      entry.blocknumber ≤ high ∧ entry.createdAt = entry.updatedAt

/-- `get_prev_digital_content_entries.py`: the rows of the last block before. -/
def getPrevDigitalContentEntries (entries : List DigitalContent) : List DigitalContent :=
  db.digitalContents.filter fun row ↦
    let before := db.digitalContents.filter fun other ↦
      other.digitalContentId = row.digitalContentId ∧ ∃ entry ∈ entries,
        entry.digitalContentId = other.digitalContentId ∧ other.blocknumber < entry.blocknumber
    (before.map DigitalContent.blocknumber).max? = some row.blocknumber

/-- Lines 685–724: the contents that were unlisted and are public now. -/
def publishedDigitalContents (low high : ℕ) : List DigitalContent :=
  let updated := db.digitalContents.filter fun entry ↦
    !entry.isUnlisted ∧ entry.stemOf = none ∧ entry.createdAt ≠ entry.updatedAt ∧
      low < entry.blocknumber ∧ entry.blocknumber ≤ high
  (db.getPrevDigitalContentEntries updated).filterMap fun prevEntry ↦
    if prevEntry.isUnlisted then
      updated.find? fun entry ↦ entry.digitalContentId = prevEntry.digitalContentId
    else none

/-- The notification of a content list or an album. -/
def collectionNotif (entityType : String) (entry : ContentList) : Notification where
  type := "Create"
  blocknumber := entry.blocknumber
  timestamp := entry.createdAt
  initiator := entry.contentListOwnerId
  metadata := ⟨some entityType, some entry.contentListId, some entry.contentListOwnerId,
    some entry.contentListContents⟩

/-- Lines 775–809. -/
def createdCollections (low high : ℕ) : List Notification :=
  let results := db.contentLists.filter fun entry ↦
    !entry.isDelete ∧ !entry.isPrivate ∧ low < entry.blocknumber ∧ entry.blocknumber ≤ high ∧
      entry.createdAt = entry.updatedAt
  results.map fun entry ↦ collectionNotif (if entry.isAlbum then "album" else "content_list") entry

/-- The entry before, lines 823–834. -/
def prevEntry (entry : ContentList) : Option ContentList :=
  let before := db.contentLists.filter fun other ↦
    other.contentListId = entry.contentListId ∧ other.blocknumber < entry.blocknumber
  (before.insertionSort fun a b ↦ b.blocknumber ≤ a.blocknumber).head?

/-- Lines 811–850: the content lists that were private and are public now. -/
def publishedContentLists (low high : ℕ) : Except String (List Notification) := do
  let results := db.contentLists.filter fun entry ↦
    !entry.isPrivate ∧ entry.createdAt ≠ entry.updatedAt ∧ low < entry.blocknumber ∧
      entry.blocknumber ≤ high
  let published ← results.mapM fun entry ↦
    match db.prevEntry entry with
    | none => .error "AttributeError: 'NoneType' object has no attribute 'is_private'"
    | some prev =>
      .ok (if prev.isPrivate then some (collectionNotif "content_list" entry) else none)
  return published.reduceOption

/-- The creates of digital contents, albums and content lists. -/
def createdNotifications (low high : ℕ) : Except String (List Notification) := do
  let published ← db.publishedContentLists low high
  return (db.createdDigitalContents low high).map digitalContentNotif ++
    (db.publishedDigitalContents low high).map digitalContentNotif ++
      db.createdCollections low high ++ published

/-! ### Owners and milestones -/

/-- `owner_info`: the owners of what was favorited and reposted, and of the contents asked for. -/
def ownerInfo (digitalContentIds : List ℕ) (low high : ℕ) : NestedDict String ℕ ℕ :=
  let empty : NestedDict String ℕ ℕ :=
    ((Dict.empty.set "digitalContents" Dict.empty).set "albums" Dict.empty).set "content_lists"
      Dict.empty
  let social := db.withOwner (inRange db.saves low high) ++
    db.withOwner (inRange db.reposts low high)
  let asked := db.digitalContents.filter fun entry ↦
    entry.isCurrent ∧ entry.digitalContentId ∈ digitalContentIds
  let owners := social.foldl
    (fun d entry ↦ d.setEntry entry.1.type.ownersKey entry.1.itemId entry.2) empty
  asked.foldl (fun d entry ↦ d.setEntry "digitalContents" entry.digitalContentId entry.ownerId)
    owners

/-- The ids and thresholds of the milestones of a name in a range. -/
def milestonesOf (name : MilestoneName) (low high : ℕ) : List (ℕ × ℕ) :=
  (db.milestones.filter fun milestone ↦ milestone.name = name ∧
    milestone.blocknumber.any fun blocknumber ↦ low < blocknumber ∧ blocknumber ≤ high).map
      fun milestone ↦ (milestone.id, milestone.threshold)

/-- `content_list_id_albums`: whether the current row of an id is an album. -/
def isAlbum (contentListId : ℕ) : Bool :=
  (db.contentLists.reverse.find? fun entry ↦
    entry.isCurrent ∧ entry.contentListId = contentListId).any ContentList.isAlbum

/-- `GroupMilestones`, with the keys of lines 260–270. -/
def groupMilestones (digitalContents contentLists : List (ℕ × ℕ)) : NestedDict String ℕ ℕ :=
  ((Dict.empty.set "digitalContents" (dict digitalContents)).set "albums"
      (dict (contentLists.filter fun pair ↦ db.isAlbum pair.1))).set "content_lists"
    (dict (contentLists.filter fun pair ↦ !db.isAlbum pair.1))

/-- Lines 208–277. -/
def getMilestoneInfo (low high : ℕ) : MilestoneInfo where
  followerCounts := dict (db.milestonesOf .followerCount low high)
  repostCounts := db.groupMilestones (db.milestonesOf .digitalContentRepostCount low high)
    (db.milestonesOf .contentListRepostCount low high)
  favoriteCounts := db.groupMilestones (db.milestonesOf .digitalContentSaveCount low high)
    (db.milestonesOf .contentListSaveCount low high)

/-! ### The endpoint -/

/-- Lines 318–345: the end of the range, which the current block limits. -/
def maxBlockNumber (maxBlockDiff minBlockNumber : ℕ) (maxBlockNumber : Option ℕ) :
    Except String ℕ :=
  let requested :=
    match maxBlockNumber with
    | none | some 0 => minBlockNumber + maxBlockDiff
    | some requested =>
      if minBlockNumber + maxBlockDiff < requested then minBlockNumber + maxBlockDiff
      else requested
  match db.blocks.find? Block.isCurrent with
  | none => .error "IndexError: list index out of range"
  | some block =>
    match block.number with
    | none => .error "TypeError: '<' not supported between instances of 'NoneType' and 'int'"
    | some number => .ok (if number < requested then number else requested)

/-- Lines 280–1051. -/
def notifications (maxBlockDiff : ℕ) (others : List Notification) (minBlockNumber : Option ℕ)
    (maxBlockNumber : Option ℕ) (digitalContentIds : List ℕ) : Except String Response :=
  match minBlockNumber with
  | none => .error "Missing min block number"
  | some low => do
    let high ← db.maxBlockNumber maxBlockDiff low maxBlockNumber
    let created ← db.createdNotifications low high
    let unsorted := db.favoriteNotifications low high ++ db.repostNotifications low high ++
      created ++ others
    return {
      notifications := unsorted.insertionSort fun a b ↦ a.blocknumber ≤ b.blocknumber
      minBlockNumber := low
      maxBlockNumber := high
      milestones := db.getMilestoneInfo low high
      owners := db.ownerInfo digitalContentIds low high }

end Database

end NotificationFeed

end ColivingSpec
