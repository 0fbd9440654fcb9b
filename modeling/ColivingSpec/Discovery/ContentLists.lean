import ColivingSpec.Discovery.Models
import ColivingSpec.Lib.Checked
import ColivingSpec.Lib.Dict

/-!
# Content lists

The handler of content lists. The records of a block are kept in a dictionary by content list, each
with the types of its events; an event is applied to the record that is there, or to the current
row. At the end each record takes the place of the current row. Timestamps are in seconds, and the
encoding of a digest as a CID is a parameter.
-/

namespace ColivingSpec.Discovery

open Lib

/-! ### Events -/

/-- `content_list_event_constants.py:4–15`. -/
inductive ContentListEventType where
  | contentListCreated
  | contentListDeleted
  | contentListDigitalContentAdded
  | contentListDigitalContentDeleted
  | contentListDigitalContentsOrdered
  | contentListNameUpdated
  | contentListPrivacyUpdated
  | contentListCoverPhotoUpdated
  | contentListDescriptionUpdated
  | contentListUpcUpdated
  deriving DecidableEq, Repr

/-- `content_list_event_constants.py:18–29`: the types in the order in which they are handled. -/
def contentListEventTypesArr : List ContentListEventType :=
  [.contentListCreated, .contentListDeleted, .contentListDigitalContentAdded,
    .contentListDigitalContentDeleted, .contentListDigitalContentsOrdered,
    .contentListNameUpdated, .contentListPrivacyUpdated, .contentListCoverPhotoUpdated,
    .contentListDescriptionUpdated, .contentListUpcUpdated]

/-- An event of the content list factory with its arguments. -/
inductive ContentListEvent where
  | created (contentListOwnerId : ℕ) (isPrivate isAlbum : Bool) (digitalContentIds : List ℕ)
  | deleted
  | digitalContentAdded (addedDigitalContentId : ℕ)
  | digitalContentDeleted (deletedDigitalContentId deletedDigitalContentTimestamp : ℕ)
  | digitalContentsOrdered (orderedDigitalContentIds : List ℕ)
  | nameUpdated (updatedContentListName : String)
  | privacyUpdated (updatedIsPrivate : Bool)
  | coverPhotoUpdated (contentListImageMultihashDigest : List UInt8)
  | descriptionUpdated (contentListDescription : String)
  | upcUpdated (contentListUpc : List UInt8)
  deriving DecidableEq, Repr

/-- The type of an event. -/
def ContentListEvent.type : ContentListEvent → ContentListEventType
  | .created .. => .contentListCreated
  | .deleted => .contentListDeleted
  | .digitalContentAdded _ => .contentListDigitalContentAdded
  | .digitalContentDeleted .. => .contentListDigitalContentDeleted
  | .digitalContentsOrdered _ => .contentListDigitalContentsOrdered
  | .nameUpdated _ => .contentListNameUpdated
  | .privacyUpdated _ => .contentListPrivacyUpdated
  | .coverPhotoUpdated _ => .contentListCoverPhotoUpdated
  | .descriptionUpdated _ => .contentListDescriptionUpdated
  | .upcUpdated _ => .contentListUpcUpdated

/-- An event in a receipt, with its content list. -/
structure ContentListLog where
  contentListId : ℕ
  event : ContentListEvent
  deriving DecidableEq, Repr

/-- The receipt of a transaction. -/
structure ContentListReceipt where
  transactionHash : TxHash
  logs : List ContentListLog
  deriving DecidableEq, Repr

/-! ### Records and rows -/

/-- An entry of `content_list_contents`. -/
structure ContentListEntry where
  digitalContent : ℕ
  time : ℕ
  deriving DecidableEq, Repr

/-- A record in memory: what is not set is `None`. -/
structure ContentListRecord where
  contentListId : ℕ
  contentListOwnerId : Option ℕ
  isAlbum : Option Bool
  isPrivate : Option Bool
  contentListName : Option String
  contentListContents : Option (List ContentListEntry)
  contentListImageMultihash : Option String
  contentListImageSizesMultihash : Option String
  description : Option String
  upc : Option String
  isDelete : Bool
  createdAt : Option ℕ
  updatedAt : Option ℕ
  lastAddedTo : Option ℕ
  blocknumber : Option ℕ
  blockhash : Option BlockHash
  txhash : Option TxHash
  deriving DecidableEq, Repr

/-- A row of `content_lists`. -/
structure ContentListRow where
  contentListId : ℕ
  contentListOwnerId : ℕ
  isAlbum : Bool
  isPrivate : Bool
  contentListName : Option String
  contentListContents : List ContentListEntry
  contentListImageMultihash : Option String
  contentListImageSizesMultihash : Option String
  description : Option String
  upc : Option String
  isDelete : Bool
  createdAt : ℕ
  updatedAt : ℕ
  lastAddedTo : Option ℕ
  blocknumber : Option ℕ
  blockhash : Option BlockHash
  txhash : TxHash
  isCurrent : Bool
  deriving DecidableEq, Repr

/-- The record of a row. -/
def ContentListRow.record (row : ContentListRow) : ContentListRecord where
  contentListId := row.contentListId
  contentListOwnerId := some row.contentListOwnerId
  isAlbum := some row.isAlbum
  isPrivate := some row.isPrivate
  contentListName := row.contentListName
  contentListContents := some row.contentListContents
  contentListImageMultihash := row.contentListImageMultihash
  contentListImageSizesMultihash := row.contentListImageSizesMultihash
  description := row.description
  upc := row.upc
  isDelete := row.isDelete
  createdAt := some row.createdAt
  updatedAt := some row.updatedAt
  lastAddedTo := row.lastAddedTo
  blocknumber := row.blocknumber
  blockhash := row.blockhash
  txhash := some row.txhash

namespace ContentListRecord

/-- A record of a content list that has no row. -/
def new (contentListId : ℕ) : ContentListRecord where
  contentListId := contentListId
  contentListOwnerId := none
  isAlbum := none
  isPrivate := none
  contentListName := none
  contentListContents := none
  contentListImageMultihash := none
  contentListImageSizesMultihash := none
  description := none
  upc := none
  isDelete := false
  createdAt := none
  updatedAt := none
  lastAddedTo := none
  blocknumber := none
  blockhash := none
  txhash := none

variable (record : ContentListRecord)

/-- `model_nullable_validator.py:10–29`: the columns without a default that may not be `NULL`. -/
def allRequiredFieldsPresent : Bool :=
  record.contentListOwnerId.isSome && record.isAlbum.isSome && record.isPrivate.isSome &&
    record.contentListContents.isSome && record.createdAt.isSome && record.updatedAt.isSome

/-- The row of a record, as the current one; `txhash` has a default. -/
def row? : Option ContentListRow := do
  let contentListOwnerId ← record.contentListOwnerId
  let isAlbum ← record.isAlbum
  let isPrivate ← record.isPrivate
  let contentListContents ← record.contentListContents
  let createdAt ← record.createdAt
  let updatedAt ← record.updatedAt
  return {
    contentListId := record.contentListId
    contentListOwnerId, isAlbum, isPrivate
    contentListName := record.contentListName
    contentListContents
    contentListImageMultihash := record.contentListImageMultihash
    contentListImageSizesMultihash := record.contentListImageSizesMultihash
    description := record.description
    upc := record.upc
    isDelete := record.isDelete
    createdAt, updatedAt
    lastAddedTo := record.lastAddedTo
    blocknumber := record.blocknumber
    blockhash := record.blockhash
    txhash := record.txhash.getD ""
    isCurrent := true }

end ContentListRecord

/-! ### Parsing -/

/-- `model_utils.py:59–86`: null characters are removed from text. The schema of the model is not
found under the name that is looked for, so nothing else is validated. -/
def sanitize (value : String) : String := String.ofList (value.toList.filter (· ≠ '\x00'))

/-- `helpers.py:120–122`: the text without the zero bytes at the end. -/
def bytes32ToStr (bytes : List UInt8) : Except String String :=
  match String.fromUTF8? ⟨(bytes.reverse.dropWhile (· = 0)).reverse.toArray⟩ with
  | some text => .ok text
  | none => .error "UnicodeDecodeError"

/-- `content_lists.py:241–254`: the first entry of the digital content and time is left out. -/
def removeEntry (digitalContentId timestamp : ℕ) :
    List ContentListEntry → List ContentListEntry
  | [] => []
  | entry :: entries =>
    if entry.digitalContent = digitalContentId ∧ entry.time = timestamp then entries
    else entry :: removeEntry digitalContentId timestamp entries

/-- `content_lists.py:267–275`: the times of each digital content. -/
def timeLookup (entries : List ContentListEntry) : Dict ℕ (List ℕ) :=
  entries.foldl
    (fun times entry ↦ times.set entry.digitalContent
      ((times.get? entry.digitalContent).getD [] ++ [entry.time]))
    Dict.empty

variable (blockTime : ℕ) (rows : List ContentListRow)

/-- `content_lists.py:277–297`: the time of a digital content, the last one more than once; a
digital content that is not found has the time of the block. -/
def orderEntry (s : Dict ℕ (List ℕ) × List ContentListEntry) (id : ℕ) :
    Dict ℕ (List ℕ) × List ContentListEntry :=
  match s.1.get? id with
  | some (time :: next :: times) => (s.1.set id (next :: times), s.2 ++ [⟨id, time⟩])
  | some [time] => (s.1, s.2 ++ [⟨id, time⟩])
  | some [] => (s.1, s.2 ++ [⟨id, blockTime⟩])
  | none => (s.1, s.2 ++ [⟨id, blockTime⟩])

/-- `content_lists.py:260–299`. -/
def orderEntries (entries : List ContentListEntry) (ordered : List ℕ) :
    List ContentListEntry :=
  (ordered.foldl (orderEntry blockTime) (timeLookup entries, [])).2

section Parsing

variable (multihashDigestToCid : List UInt8 → String) (blockTime : ℕ)

variable (record : ContentListRecord)

/-- `content_lists.py:194–343`: what an event sets. -/
def applyContentListEvent :
    ContentListEvent → Except String ContentListRecord
  | .created contentListOwnerId isPrivate isAlbum digitalContentIds =>
    .ok { record with
      contentListOwnerId := some contentListOwnerId
      isPrivate := some isPrivate
      isAlbum := some isAlbum
      contentListContents := some (digitalContentIds.map fun id ↦ ⟨id, blockTime⟩)
      createdAt := some blockTime }
  | .deleted => .ok { record with isDelete := true }
  | .digitalContentAdded addedDigitalContentId =>
    match record.contentListContents with
    | some entries =>
      .ok { record with
        contentListContents := some (entries ++ [⟨addedDigitalContentId, blockTime⟩])
        lastAddedTo := some blockTime }
    | none => .ok record
  | .digitalContentDeleted deletedDigitalContentId deletedDigitalContentTimestamp =>
    .ok { record with
      contentListContents := record.contentListContents.map
        (removeEntry deletedDigitalContentId deletedDigitalContentTimestamp) }
  | .digitalContentsOrdered orderedDigitalContentIds =>
    .ok { record with
      contentListContents := record.contentListContents.map fun entries ↦
        orderEntries blockTime entries orderedDigitalContentIds }
  | .nameUpdated updatedContentListName =>
    .ok { record with contentListName := some (sanitize updatedContentListName) }
  | .privacyUpdated updatedIsPrivate => .ok { record with isPrivate := some updatedIsPrivate }
  | .coverPhotoUpdated contentListImageMultihashDigest =>
    let cid := multihashDigestToCid contentListImageMultihashDigest
    if cid = "" then .ok { record with contentListImageMultihash := some cid }
    else .ok { record with
      contentListImageSizesMultihash := some cid
      contentListImageMultihash := none }
  | .descriptionUpdated contentListDescription =>
    .ok { record with description := some (sanitize contentListDescription) }
  | .upcUpdated contentListUpc => do
    let upc ← bytes32ToStr contentListUpc
    return { record with upc := some (sanitize upc) }

/-- `content_lists.py:186–354`: the event is applied, and the record is stamped. -/
def parseContentListEvent (event : ContentListEvent) :
    Except String ContentListRecord := do
  let record ← applyContentListEvent multihashDigestToCid blockTime record event
  return { record with updatedAt := some blockTime }

end Parsing

/-! ### The handler -/

/-- A block that is handled. -/
structure ContentListBlock where
  number : ℕ
  hash : BlockHash
  timestamp : ℕ
  txs : List ContentListReceipt
  deriving DecidableEq, Repr

/-- What is kept for a content list: a dictionary with two keys. -/
structure ContentListValue where
  contentList : ContentListRecord
  events : List ContentListEventType
  deriving DecidableEq, Repr

/-- The keys of the dictionary that is kept for a content list. -/
def valueObjKeys : List String := ["content_list", "events"]

/-- What the loop over the transactions keeps. -/
structure ContentListChanges where
  lookup : Dict ℕ ContentListValue
  contentListIds : List ℕ
  numTotalChanges : ℕ
  skippedTxs : List TxHash

/-- What the handler leaves: the rows, the challenge events, and what it returns. -/
structure ContentListUpdate where
  rows : List ContentListRow
  dispatches : List (Option ℕ × ℕ)
  skippedTxs : List TxHash
  numTotalChanges : ℕ
  contentListIds : List ℕ
  deriving DecidableEq, Repr

/-- `content_lists.py:132–165`: the current row of a content list that has rows, or a new record. -/
def lookupContentListRecord (block : ContentListBlock) (txhash : TxHash) (contentListId : ℕ) :
    Except String ContentListRecord :=
  let stamp (record : ContentListRecord) : ContentListRecord :=
    { record with
      blocknumber := some block.number
      blockhash := some block.hash
      txhash := some txhash }
  if rows.any fun row ↦ row.contentListId = contentListId then
    match rows.find? fun row ↦ row.contentListId = contentListId ∧ row.isCurrent with
    | some row => .ok (stamp row.record)
    | none => .error "UnmappedInstanceError"
  else .ok (stamp (ContentListRecord.new contentListId))

/-- `content_lists.py:168–183`. -/
def invalidateOldContentList (contentListId : ℕ) :
    Except String (List ContentListRow) := do
  require ((rows.any fun row ↦ row.contentListId = contentListId) →
      rows.any fun row ↦ row.contentListId = contentListId ∧ row.isCurrent)
    "Update operation requires a current contentList to be invalidated"
  return rows.map fun row ↦
    if row.contentListId = contentListId ∧ row.isCurrent then { row with isCurrent := false }
    else row

section Handler

variable (multihashDigestToCid : List UInt8 → String) (rows : List ContentListRow)
variable (block : ContentListBlock)

/-- `content_lists.py:55–62`: the record that an event is applied to. -/
def existingContentListRecord (cached : Option ContentListRecord) (txhash : TxHash) (id : ℕ) :
    Except String ContentListRecord :=
  match cached with
  | some record => .ok record
  | none => lookupContentListRecord rows block txhash id

/-- `content_lists.py:51–101`: an event of a transaction. A record without its required fields is
left out, and its transaction is marked as skipped. -/
def processContentListEntry (s : ContentListChanges) (entry : TxHash × ContentListLog) :
    Except String ContentListChanges := do
  let id := entry.2.contentListId
  let existing ← existingContentListRecord rows block
    ((s.lookup.get? id).map ContentListValue.contentList) entry.1 id
  let record ← parseContentListEvent multihashDigestToCid block.timestamp existing entry.2.event
  if record.allRequiredFieldsPresent then
    let events := ((s.lookup.get? id).map ContentListValue.events).getD []
    return {
      lookup := s.lookup.set id ⟨record, events ++ [entry.2.event.type]⟩
      contentListIds := if id ∈ s.contentListIds then s.contentListIds else s.contentListIds ++ [id]
      numTotalChanges := s.numTotalChanges + 1
      skippedTxs := s.skippedTxs }
  else return { s with skippedTxs := s.skippedTxs ++ [entry.1] }

/-- `content_lists.py:44–51`: the events of the block in the order in which they are handled, for
each transaction type by type. -/
def contentListEntries : List (TxHash × ContentListLog) :=
  block.txs.flatMap fun tx ↦ contentListEventTypesArr.flatMap fun eventType ↦
    (tx.logs.filter fun log ↦ log.event.type = eventType).map (tx.transactionHash, ·)

/-- `content_lists.py:43–102`: the loop over the transactions. -/
def processContentListTxs : Except String ContentListChanges :=
  (contentListEntries block).foldlM (processContentListEntry multihashDigestToCid rows block)
    ⟨Dict.empty, [], 0, []⟩

/-- `content_lists.py:108–121`: a content list of the block; the line for the log looks up a key of
its dictionary. -/
def addContentList (s : List ContentListRow × List (Option ℕ × ℕ))
    (item : ℕ × ContentListValue) : Except String (List ContentListRow × List (Option ℕ × ℕ)) := do
  require ("contentList" ∈ valueObjKeys) "KeyError: contentList"
  if item.2.events = [] then return s
  let old ← invalidateOldContentList s.1 item.1
  match item.2.contentList.row? with
  | some row =>
    let dispatches := if .contentListDigitalContentAdded ∈ item.2.events then
        [(row.blocknumber, row.contentListOwnerId)] else []
    return (old ++ [row], s.2 ++ dispatches)
  | none => .error "null value violates not-null constraint"

/-- `content_lists.py:21–123`. -/
def contentListStateUpdate : Except String ContentListUpdate := do
  let changes ← processContentListTxs multihashDigestToCid rows block
  let (rows, dispatches) ← changes.lookup.items.foldlM addContentList (rows, [])
  return ⟨rows, dispatches, changes.skippedTxs, changes.numTotalChanges, changes.contentListIds⟩

end Handler

end ColivingSpec.Discovery
