import ColivingSpec.Discovery.ContentLists

/-!
# Indexing content lists

The dictionary of a block has, for each content list, the fold of its events as they are handled.
The loop that writes the records to the table begins with a line for the log that looks up a key
which their dictionaries do not have, so that a block with an event of a content list is never
indexed.
-/

namespace ColivingSpec.Discovery

open Lib List

section Records

variable (multihashDigestToCid : List UInt8 → String) (rows : List ContentListRow)
variable (block : ContentListBlock)

/-- The record that the dictionary has for a content list. -/
def ContentListChanges.record (s : ContentListChanges) (id : ℕ) : Option ContentListRecord :=
  (s.lookup.get? id).map ContentListValue.contentList

variable {multihashDigestToCid rows block} {s s' : ContentListChanges}
variable {entry : TxHash × ContentListLog}

/-- What an event does to the dictionary: the record with the event applied is kept if its
required fields are there, and else the dictionary stays. -/
theorem processContentListEntry_eq_ok
    (h : processContentListEntry multihashDigestToCid rows block s entry = .ok s') :
    ∃ existing record,
      existingContentListRecord rows block (s.record entry.2.contentListId) entry.1
        entry.2.contentListId = .ok existing ∧
      parseContentListEvent multihashDigestToCid block.timestamp existing entry.2.event
        = .ok record ∧
      if record.allRequiredFieldsPresent then
        ∃ events, s'.lookup = s.lookup.set entry.2.contentListId ⟨record, events⟩
      else s'.lookup = s.lookup := by
  obtain ⟨existing, hexisting, h⟩ := bind_eq_ok.mp h
  obtain ⟨record, hrecord, h⟩ := bind_eq_ok.mp h
  refine ⟨existing, record, hexisting, hrecord, ?_⟩
  split at h
  · next hpresent =>
    cases pure_eq_ok.mp h
    rw [if_pos hpresent]
    exact ⟨_, rfl⟩
  · next hmissing =>
    cases pure_eq_ok.mp h
    rw [if_neg hmissing]

/-! ### Required fields -/

/-- A record keeps its required fields, and the time of the update is always set. -/
theorem allRequiredFieldsPresent_parse {timestamp : ℕ} {record parsed : ContentListRecord}
    {event : ContentListEvent} (hpresent : record.allRequiredFieldsPresent = true)
    (h : parseContentListEvent multihashDigestToCid timestamp record event = .ok parsed) :
    parsed.allRequiredFieldsPresent = true := by
  obtain ⟨applied, happlied, h⟩ := bind_eq_ok.mp h
  cases pure_eq_ok.mp h
  simp only [ContentListRecord.allRequiredFieldsPresent, Bool.and_eq_true] at hpresent ⊢
  obtain ⟨⟨⟨⟨⟨howner, halbum⟩, hprivate⟩, hcontents⟩, hcreated⟩, -⟩ := hpresent
  cases event with
  | created owner isPrivate isAlbum ids =>
    cases happlied
    exact ⟨⟨⟨⟨⟨rfl, rfl⟩, rfl⟩, rfl⟩, rfl⟩, rfl⟩
  | digitalContentAdded added =>
    simp only [applyContentListEvent] at happlied
    split at happlied
    · cases happlied
      exact ⟨⟨⟨⟨⟨howner, halbum⟩, hprivate⟩, rfl⟩, hcreated⟩, rfl⟩
    · cases happlied
      exact ⟨⟨⟨⟨⟨howner, halbum⟩, hprivate⟩, hcontents⟩, hcreated⟩, rfl⟩
  | digitalContentDeleted | digitalContentsOrdered =>
    cases happlied
    exact ⟨⟨⟨⟨⟨howner, halbum⟩, hprivate⟩, by rwa [Option.isSome_map]⟩, hcreated⟩, rfl⟩
  | privacyUpdated isPrivate =>
    cases happlied
    exact ⟨⟨⟨⟨⟨howner, halbum⟩, rfl⟩, hcontents⟩, hcreated⟩, rfl⟩
  | coverPhotoUpdated digest =>
    simp only [applyContentListEvent] at happlied
    split at happlied
    all_goals
      cases happlied
      exact ⟨⟨⟨⟨⟨howner, halbum⟩, hprivate⟩, hcontents⟩, hcreated⟩, rfl⟩
  | upcUpdated upc =>
    obtain ⟨text, -, happlied⟩ := bind_eq_ok.mp happlied
    cases pure_eq_ok.mp happlied
    exact ⟨⟨⟨⟨⟨howner, halbum⟩, hprivate⟩, hcontents⟩, hcreated⟩, rfl⟩
  | deleted | nameUpdated | descriptionUpdated =>
    cases happlied
    exact ⟨⟨⟨⟨⟨howner, halbum⟩, hprivate⟩, hcontents⟩, hcreated⟩, rfl⟩

/-- A content list that has a row is looked up with its required fields. -/
theorem allRequiredFieldsPresent_lookup {txhash : TxHash} {id : ℕ} {record : ContentListRecord}
    (hrow : ∃ row ∈ rows, row.contentListId = id)
    (h : lookupContentListRecord rows block txhash id = .ok record) :
    record.allRequiredFieldsPresent = true := by
  obtain ⟨row, hmem, hid⟩ := hrow
  unfold lookupContentListRecord at h
  rw [if_pos (any_eq_true.mpr ⟨row, hmem, decide_eq_true hid⟩)] at h
  split at h
  · cases h
    rfl
  · cases h

/-- An event keeps the dictionary from being empty, and an event of a content list that has a row
makes it so. -/
theorem items_ne_nil_of_processContentListEntry
    (h : processContentListEntry multihashDigestToCid rows block s entry = .ok s')
    (hs : s.lookup.items ≠ [] ∨ ∃ row ∈ rows, row.contentListId = entry.2.contentListId) :
    s'.lookup.items ≠ [] := by
  obtain ⟨existing, record, hexisting, hrecord, hlookup⟩ := processContentListEntry_eq_ok h
  split at hlookup
  · obtain ⟨events, hlookup⟩ := hlookup
    rw [hlookup]
    exact Dict.items_set_ne_nil _ _ _
  · next hmissing =>
    rw [hlookup]
    rcases hs with hne | hrow
    · exact hne
    · cases hcached : s.record entry.2.contentListId with
      | none =>
        rw [hcached] at hexisting
        have hpresent := allRequiredFieldsPresent_lookup hrow hexisting
        exact absurd (allRequiredFieldsPresent_parse hpresent hrecord) hmissing
      | some cached =>
        obtain ⟨value, hvalue, -⟩ := Option.map_eq_some_iff.mp hcached
        exact ne_nil_of_mem ((s.lookup.mem_items _ value).mpr hvalue)

/-- When an event is of a content list that has a row, the dictionary is not empty in the end. -/
theorem items_ne_nil_of_processContentListTxs
    (h : processContentListTxs multihashDigestToCid rows block = .ok s)
    (hentry : entry ∈ contentListEntries block)
    (hrow : ∃ row ∈ rows, row.contentListId = entry.2.contentListId) : s.lookup.items ≠ [] := by
  have hfold : ∀ (entries : List (TxHash × ContentListLog)) (s₀ : ContentListChanges),
      entries.foldlM (processContentListEntry multihashDigestToCid rows block) s₀ = .ok s →
      s₀.lookup.items ≠ [] ∨ entry ∈ entries → s.lookup.items ≠ [] := by
    intro entries
    induction entries with
    | nil =>
      rintro s₀ hs (hne | hmem)
      · cases pure_eq_ok.mp hs
        exact hne
      · cases hmem
    | cons first entries ih =>
      rintro s₀ hs hor
      obtain ⟨mid, hmid, hs⟩ := bind_eq_ok.mp hs
      apply ih mid hs
      rcases hor with hne | hmem
      · exact .inl (items_ne_nil_of_processContentListEntry hmid (.inl hne))
      · rcases mem_cons.mp hmem with rfl | hrest
        · exact .inl (items_ne_nil_of_processContentListEntry hmid (.inr hrow))
        · exact .inr hrest
  exact hfold _ _ h (.inr hentry)

end Records

/-! ### The fold of the events -/

/-- The content lists that the block has events of. -/
def ContentListBlock.touched (block : ContentListBlock) : List ℕ :=
  block.txs.flatMap fun tx ↦ tx.logs.map ContentListLog.contentListId

/-- The events of a content list in the order of the block, with their transactions. -/
def ContentListBlock.eventsOf (block : ContentListBlock) (id : ℕ) :
    List (TxHash × ContentListEvent) :=
  block.txs.flatMap fun tx ↦ (tx.logs.filter fun log ↦ log.contentListId = id).map fun log ↦
    (tx.transactionHash, log.event)

section Fold

variable (multihashDigestToCid : List UInt8 → String) (rows : List ContentListRow)
variable (block : ContentListBlock)

/-- The events of a content list, applied in order to its previous row. -/
def foldedRow (id : ℕ) : Except String (Option ContentListRow) :=
  match block.eventsOf id with
  | [] => .ok none
  | first :: rest => do
    let previous ← lookupContentListRecord rows block first.1 id
    let folded ← (first :: rest).foldlM
      (fun record event ↦
        parseContentListEvent multihashDigestToCid block.timestamp record event.2) previous
    return folded.row?

/-- The block is indexed, and the one current row of each content list that it touches is the fold
of the events. -/
def IndexedAsFold : Prop :=
  ∃ update, contentListStateUpdate multihashDigestToCid rows block = .ok update ∧
    ∀ id ∈ block.touched, ∃ row, foldedRow multihashDigestToCid rows block id = .ok (some row) ∧
      (update.rows.filter fun row ↦ row.contentListId = id ∧ row.isCurrent) = [row]

variable {multihashDigestToCid rows block}

/-- The line for the log: no content list of a dictionary is added. -/
theorem foldlM_addContentList_eq_ok {items : List (ℕ × ContentListValue)}
    {s s' : List ContentListRow × List (Option ℕ × ℕ)}
    (h : items.foldlM addContentList s = .ok s') : items = [] ∧ s' = s := by
  cases items with
  | nil =>
    cases pure_eq_ok.mp h
    exact ⟨rfl, rfl⟩
  | cons item items =>
    obtain ⟨mid, hmid, -⟩ := bind_eq_ok.mp h
    have hkey := (require_bind_eq_ok.mp hmid).1
    simp [valueObjKeys] at hkey

/-- A block that is indexed leaves the dictionary empty and the rows as they are. -/
theorem contentListStateUpdate_eq_ok {update : ContentListUpdate}
    (h : contentListStateUpdate multihashDigestToCid rows block = .ok update) :
    ∃ s, processContentListTxs multihashDigestToCid rows block = .ok s ∧ s.lookup.items = [] ∧
      update.rows = rows := by
  obtain ⟨s, hs, h⟩ := bind_eq_ok.mp h
  obtain ⟨added, hadded, h⟩ := bind_eq_ok.mp h
  obtain ⟨hitems, rfl⟩ := foldlM_addContentList_eq_ok hadded
  cases pure_eq_ok.mp h
  exact ⟨s, hs, hitems, rfl⟩

theorem ContentListEventType.mem_arr (eventType : ContentListEventType) :
    eventType ∈ contentListEventTypesArr := by
  cases eventType <;> decide

/-- Each event of the block is handled. -/
theorem exists_entry_of_mem_touched {id : ℕ} (h : id ∈ block.touched) :
    ∃ entry ∈ contentListEntries block, entry.2.contentListId = id := by
  obtain ⟨tx, htx, h⟩ := mem_flatMap.mp h
  obtain ⟨log, hlog, rfl⟩ := mem_map.mp h
  refine ⟨(tx.transactionHash, log), ?_, rfl⟩
  apply mem_flatMap.mpr ⟨tx, htx, _⟩
  apply mem_flatMap.mpr ⟨log.event.type, log.event.type.mem_arr, _⟩
  apply mem_map_of_mem
  exact mem_filter.mpr ⟨hlog, decide_eq_true rfl⟩

/-- A content list that is touched is not indexed as the fold: its row would be one of those
before the block, and its events would have put it in the dictionary. -/
theorem IndexedAsFold.touched_eq_nil (h : IndexedAsFold multihashDigestToCid rows block) :
    block.touched = [] := by
  obtain ⟨update, hupdate, hrows⟩ := h
  obtain ⟨s, hs, hitems, hsame⟩ := contentListStateUpdate_eq_ok hupdate
  apply eq_nil_iff_forall_not_mem.mpr
  intro id hid
  obtain ⟨row, -, hfilter⟩ := hrows id hid
  obtain ⟨entry, hentry, rfl⟩ := exists_entry_of_mem_touched hid
  have hrow : row ∈ rows ∧ row.contentListId = entry.2.contentListId := by
    have hmem := hfilter ▸ mem_singleton_self row
    rw [hsame, mem_filter] at hmem
    exact ⟨hmem.1, (of_decide_eq_true hmem.2).1⟩
  exact items_ne_nil_of_processContentListTxs hs hentry ⟨row, hrow⟩ hitems

theorem ContentListBlock.touched_eq_nil_iff :
    block.touched = [] ↔ ∀ tx ∈ block.txs, tx.logs = [] := by
  unfold ContentListBlock.touched
  simp only [flatMap_eq_nil_iff, map_eq_nil_iff]

/-- Without an event the block is indexed. -/
theorem indexedAsFold_of_touched_eq_nil (h : block.touched = []) :
    IndexedAsFold multihashDigestToCid rows block := by
  have hentries : contentListEntries block = [] := by
    apply flatMap_eq_nil_iff.mpr
    intro tx htx
    rw [ContentListBlock.touched_eq_nil_iff.mp h tx htx]
    rfl
  refine ⟨⟨rows, [], [], 0, []⟩, ?_, ?_⟩
  · unfold contentListStateUpdate processContentListTxs
    rw [hentries]
    rfl
  · intro id hid
    rw [h] at hid
    cases hid

variable (multihashDigestToCid rows block) in
/-- A block is indexed as the fold of its events just when it has no event. -/
theorem indexedAsFold_iff_forall_logs_eq_nil :
    IndexedAsFold multihashDigestToCid rows block ↔ ∀ tx ∈ block.txs, tx.logs = [] := by
  rw [← ContentListBlock.touched_eq_nil_iff]
  exact ⟨IndexedAsFold.touched_eq_nil, indexedAsFold_of_touched_eq_nil⟩

end Fold

/-- A block in which an album with two songs is made. -/
def createdBlock : ContentListBlock where
  number := 1
  hash := "0x1"
  timestamp := 1600000000
  txs := [⟨"0xa", [⟨1, .created 7 false true [3, 4]⟩]⟩]

/-- The album of `createdBlock` has a fold, and the block is refused. -/
theorem not_indexedAsFold_createdBlock :
    (∃ row, foldedRow (fun _ ↦ "") [] createdBlock 1 = .ok (some row)) ∧
      contentListStateUpdate (fun _ ↦ "") [] createdBlock = .error "KeyError: contentList" ∧
      ¬ IndexedAsFold (fun _ ↦ "") [] createdBlock := by
  have herror : contentListStateUpdate (fun _ ↦ "") [] createdBlock
      = .error "KeyError: contentList" := by
    decide +kernel
  refine ⟨⟨_, rfl⟩, herror, ?_⟩
  rintro ⟨update, hok, -⟩
  cases hok

end ColivingSpec.Discovery
