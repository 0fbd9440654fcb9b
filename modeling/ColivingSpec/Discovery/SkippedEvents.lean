import ColivingSpec.Discovery.MissingOwners
import ColivingSpec.Discovery.TracelessEvents
import ColivingSpec.Discovery.UserIndexing
import ColivingSpec.Lib.Replay

/-!
# Events that are skipped

An event whose record lacks a required field is skipped. It is as if it was not in the block when it
changed nothing, which one of digital contents may fail to do; those of content lists work on a
record that is thrown away, and those of users are never skipped.
-/

namespace ColivingSpec.Discovery

open List

open Lib (Dict bind_eq_ok pure_eq_ok)

namespace DigitalContents

open ContentRoutes (TextFunctions)

/-! ### A block without an event -/

/-- What a block leaves in the tables, and the challenge events it dispatches. -/
def observed (functions : TextFunctions) (users : ℕ → Option (Option String)) (block : Block)
    (tables : Tables) : Except String (Tables × List (ℕ × ℕ)) :=
  (digital_content_state_update functions users block tables).map fun update ↦
    (update.tables, update.dispatched)

/-- A block has an event after certain ones, and the rest is the block without it. -/
def Without (header : Block) (before : List Entry) (entry : Entry) (whole rest : Block) : Prop :=
  ∃ txs txs' after, whole = { header with txs := txs } ∧ rest = { header with txs := txs' } ∧
    entriesOf whole = before ++ entry :: after ∧ entriesOf rest = before ++ after

/-- Whatever comes after it, the event might as well not be in the block. -/
def LeavesNoTrace (functions : TextFunctions) (users : ℕ → Option (Option String)) (tables : Tables)
    (header : Block) (before : List Entry) (entry : Entry) : Prop :=
  ∀ whole rest, Without header before entry whole rest →
    observed functions users whole tables = observed functions users rest tables

/-- An event is skipped after certain ones: they are handled, and its record, once it was looked up
and parsed, lacks a required field. -/
structure SkippedAfter (functions : TextFunctions) (users : ℕ → Option (Option String))
    (tables : Tables) (header : Block) (before : List Entry) (entry : Entry) (changes : Changes)
    (record : DigitalContent) : Prop where
  before : process_entries functions users header tables.contents before (startOf tables) =
    .ok changes
  existing : existing_digital_content_record header tables.contents
    (changes.digital_content_events.get? entry.digital_content_id) entry = .ok record
  skipped : ∃ parsed, parse_digital_content_event functions users header entry.event record
    changes.effects = .ok parsed ∧ parsed.complete = false

/-- What the loop keeps but for the transactions that were skipped. -/
def Changes.unskipped (changes : Changes) : Changes := { changes with skipped := [] }

/-- What is left to do after the loop. -/
def finish (contents : List Row) (changes : Changes) : Except String (Tables × List (ℕ × ℕ)) :=
  (addContents changes.digital_content_events.items contents).map fun contents ↦
    (⟨contents, changes.effects.routes.visible, changes.effects.stems, changes.effects.remixes⟩,
      changes.effects.dispatched)

section Block

variable {functions : TextFunctions} {users : ℕ → Option (Option String)} {header : Block}
variable {tables : Tables} {contents : List Row} {changes changes' : Changes}
variable {before : List Entry} {entry : Entry} {record : DigitalContent}

theorem observed_eq (functions : TextFunctions) (users : ℕ → Option (Option String))
    (block : Block) (tables : Tables) :
    observed functions users block tables =
      (process_entries functions users block tables.contents (entriesOf block)
        (startOf tables)).bind (finish tables.contents) := by
  unfold observed digital_content_state_update
  cases process_entries functions users block tables.contents (entriesOf block)
      (startOf tables) with
  | error message => rfl
  | ok changes =>
    dsimp only [Except.bind, finish]
    cases addContents changes.digital_content_events.items tables.contents with
    | error message => rfl
    | ok contents => rfl

/-- The loop reads nothing of the transactions but the events it is given. -/
theorem process_entries_header (txs : List Receipt) (entries : List Entry) :
    ∀ changes : Changes,
      process_entries functions users { header with txs := txs } contents entries changes =
        process_entries functions users header contents entries changes := by
  induction entries with
  | nil => exact fun changes ↦ rfl
  | cons entry entries ih =>
    intro changes
    have hstep : process_entry functions users { header with txs := txs } contents changes entry =
        process_entry functions users header contents changes entry := rfl
    unfold process_entries
    rw [hstep]
    cases process_entry functions users header contents changes entry with
    | error message => rfl
    | ok next => exact ih next

theorem process_entries_eq_foldlM (entries : List Entry) : ∀ changes : Changes,
    process_entries functions users header contents entries changes =
      entries.foldlM (process_entry functions users header contents) changes := by
  induction entries with
  | nil => exact fun changes ↦ rfl
  | cons entry entries ih =>
    intro changes
    rw [foldlM_cons]
    unfold process_entries
    cases process_entry functions users header contents changes entry with
    | error message => rfl
    | ok next => exact ih next

variable (functions users header contents) in
/-- The loop does not read what was skipped. -/
theorem readsView_process_entry :
    Lib.ReadsView Changes.unskipped (process_entry functions users header contents) := by
  intro changes changes' entry h
  obtain ⟨events, effects, ids, total, skipped⟩ := changes
  obtain ⟨events', effects', ids', total', skipped'⟩ := changes'
  obtain ⟨rfl, rfl, rfl, rfl, -⟩ := Changes.mk.inj h
  unfold process_entry
  dsimp only
  cases existing_digital_content_record header contents (events.get? entry.digital_content_id)
      entry with
  | error message => rfl
  | ok record =>
    dsimp only
    cases parse_digital_content_event functions users header entry.event record effects with
    | error message => rfl
    | ok parsed =>
      dsimp only
      split
      · rfl
      · rfl

/-- What is left to do after the loop does not read what was skipped either. -/
theorem finish_eq_of_unskipped (contents : List Row) (changes changes' : Changes)
    (h : changes.unskipped = changes'.unskipped) :
    finish contents changes = finish contents changes' := by
  change finish contents changes.unskipped = finish contents changes'.unskipped
  rw [h]

/-- What an event that is skipped leaves. -/
theorem process_entry_of_skipped {parsed : Parsed}
    (hexisting : existing_digital_content_record header contents
      (changes.digital_content_events.get? entry.digital_content_id) entry = .ok record)
    (hparse : parse_digital_content_event functions users header entry.event record
      changes.effects = .ok parsed) (hskip : parsed.complete = false) :
    process_entry functions users header contents changes entry = .ok { changes with
      digital_content_events :=
        match changes.digital_content_events.get? entry.digital_content_id with
        | some value => changes.digital_content_events.set entry.digital_content_id
            ⟨parsed.record, value.events⟩
        | none => changes.digital_content_events
      effects := parsed.effects
      skipped := changes.skipped ++ [entry.txhash] } := by
  unfold process_entry
  dsimp only
  rw [hexisting]
  dsimp only
  rw [hparse]
  dsimp only
  rw [hskip]
  rfl

/-- An event is skipped and traceless: only its transaction is noted. -/
theorem process_entry_of_traceless (hsound : ContentRoutes.Sound changes.effects.routes)
    (hskipped : SkippedAfter functions users tables header before entry changes record)
    (h : Traceless functions users header
      ((changes.digital_content_events.get? entry.digital_content_id).isSome = true) record
      changes.effects entry.event) :
    process_entry functions users header tables.contents changes entry =
      .ok { changes with skipped := changes.skipped ++ [entry.txhash] } := by
  obtain ⟨parsed, hparse, hskip⟩ := hskipped.skipped
  obtain ⟨heffects, hrecord⟩ := h.parse_eq hsound hparse
  rw [process_entry_of_skipped hskipped.existing hparse hskip, heffects]
  have hexisting := hskipped.existing
  cases hcached : changes.digital_content_events.get? entry.digital_content_id with
  | none => rfl
  | some value =>
    rw [hcached] at hexisting hrecord
    have hvalue : value.digital_content = record := Except.ok.inj hexisting
    dsimp only
    rw [hrecord rfl, ← hvalue, Dict.set_get? hcached]

theorem leavesNoTrace_of_traceless (hsound : ContentRoutes.Sound changes.effects.routes)
    (hskipped : SkippedAfter functions users tables header before entry changes record)
    (h : Traceless functions users header
      ((changes.digital_content_events.get? entry.digital_content_id).isSome = true) record
      changes.effects entry.event) :
    LeavesNoTrace functions users tables header before entry := by
  rintro whole rest ⟨txs, txs', after, rfl, rfl, hwhole, hrest⟩
  rw [observed_eq, observed_eq, hwhole, hrest, process_entries_header txs,
    process_entries_header txs', process_entries_eq_foldlM, process_entries_eq_foldlM]
  have hbefore := hskipped.before
  rw [process_entries_eq_foldlM] at hbefore
  have herase := (readsView_process_entry functions users header tables.contents).erase hbefore
    (process_entry_of_traceless hsound hskipped h) rfl after
  exact Lib.bind_eq_of_map_eq (finish_eq_of_unskipped tables.contents) herase

/-! ### A trace is seen -/

/-- Each value of the dictionary has an event. -/
def Eventful (changes : Changes) : Prop :=
  ∀ digital_content_id value,
    changes.digital_content_events.get? digital_content_id = some value → value.events ≠ []

theorem Eventful.process_entry (h : Eventful changes)
    (hstep : process_entry functions users header contents changes entry = .ok changes') :
    Eventful changes' := by
  obtain ⟨record, parsed, -, -, -, hsame | ⟨events, hevents, hset⟩⟩ := process_entry_eq_ok hstep
  · unfold Eventful
    rw [hsame]
    exact h
  · intro digital_content_id value hvalue
    rw [hset, Dict.get?_set] at hvalue
    split at hvalue
    · rw [← Option.some.inj hvalue]
      intro hnil
      obtain ⟨old, hold, hempty⟩ := hevents hnil
      exact h _ old hold hempty
    · exact h digital_content_id value hvalue

theorem eventful_of_process_entries (entries : List Entry) : ∀ {changes : Changes},
    Eventful changes → process_entries functions users header contents entries changes =
      .ok changes' → Eventful changes' := by
  induction entries with
  | nil =>
    intro changes h hrun
    cases hrun
    exact h
  | cons entry entries ih =>
    intro changes h hrun
    unfold process_entries at hrun
    split at hrun
    · cases hrun
    · next next hnext => exact ih (h.process_entry hnext) hrun

/-- The records of the dictionary are the last ones of the table. -/
theorem records_of_addContents (items : List (ℕ × Value)) : ∀ {contents contents' : List Row},
    addContents items contents = .ok contents' →
      contents'.map Row.record = contents.map Row.record ++
        (items.filter fun item ↦ !item.2.events.isEmpty).map fun item ↦ item.2.digital_content := by
  induction items with
  | nil =>
    intro contents contents' h
    cases h
    exact (append_nil _).symm
  | cons item items ih =>
    intro contents contents' h
    unfold addContents at h
    split at h
    · next hempty =>
      rw [ih h, filter_cons_of_neg]
      rw [hempty]
      exact Bool.false_ne_true
    · next hnonempty =>
      rw [filter_cons_of_pos (by simpa using hnonempty), map_cons]
      unfold invalidate_old_digital_content at h
      split at h
      · cases h
      · next old hold =>
        split at hold
        · cases hold
        · cases hold
          rw [ih h, map_append, append_assoc, map_map]
          congr 1
          apply map_congr_left
          intro row _
          rw [Function.comp_apply]
          split <;> rfl

/-- The transactions with one event each. -/
def oneEach (entries : List Entry) : List Receipt :=
  entries.map fun entry ↦ ⟨entry.txhash, [(entry.digital_content_id, entry.event)]⟩

theorem entriesOf_oneEach (header : Block) (entries : List Entry) :
    entriesOf { header with txs := oneEach entries } = entries := by
  induction entries with
  | nil => rfl
  | cons entry entries ih =>
    have hone : (digital_content_event_types_arr.flatMap fun event_type ↦
        (([(entry.digital_content_id, entry.event)] : List (ℕ × Event)).filter fun log ↦
          decide (log.2.type = event_type)).map fun log ↦
            (⟨entry.txhash, log.1, log.2⟩ : Entry)) = [entry] := by
      obtain ⟨txhash, digital_content_id, event⟩ := entry
      cases event <;> rfl
    unfold entriesOf oneEach at ih ⊢
    rw [map_cons, flatMap_cons]
    rw [hone, ih]
    rfl

/-- One event more. -/
theorem process_entries_concat (h : process_entries functions users header tables.contents before
    (startOf tables) = .ok changes) :
    process_entries functions users header tables.contents (before ++ [entry]) (startOf tables) =
      process_entry functions users header tables.contents changes entry := by
  rw [process_entries_eq_foldlM, foldlM_append, ← process_entries_eq_foldlM, h]
  change (process_entry functions users header tables.contents changes entry).bind pure = _
  cases process_entry functions users header tables.contents changes entry with
  | error message => rfl
  | ok next => rfl

/-- An event that leaves no trace in any block was traceless. -/
theorem traceless_of_leavesNoTrace (hkept : tables.Kept)
    (hskipped : SkippedAfter functions users tables header before entry changes record)
    (h : LeavesNoTrace functions users tables header before entry) :
    Traceless functions users header
      ((changes.digital_content_events.get? entry.digital_content_id).isSome = true) record
      changes.effects entry.event := by
  obtain ⟨hkeyed, hsound⟩ := kept_of_process_entries hkept.contents before (keyed_startOf tables)
    hkept.routes hskipped.before
  obtain ⟨parsed, hparse, hskip⟩ := hskipped.skipped
  have hstep := process_entry_of_skipped hskipped.existing hparse hskip
  -- the block that ends with the event, and the block without it
  have hsame := h { header with txs := oneEach (before ++ [entry]) }
    { header with txs := oneEach before }
    ⟨oneEach (before ++ [entry]), oneEach before, [], rfl, rfl,
      entriesOf_oneEach header (before ++ [entry]),
      (entriesOf_oneEach header before).trans (append_nil _).symm⟩
  rw [observed_eq, observed_eq, entriesOf_oneEach, entriesOf_oneEach] at hsame
  rw [process_entries_header (oneEach (before ++ [entry])), process_entries_header (oneEach before),
    process_entries_concat hskipped.before, hskipped.before, hstep] at hsame
  dsimp only [Except.bind] at hsame
  dsimp only [finish] at hsame
  obtain ⟨contents, hadd, -⟩ := exists_addContents changes.digital_content_events.items
    (fun item hitem ↦ hkeyed item.1 item.2
      ((changes.digital_content_events.mem_items item.1 item.2).mp hitem)) hkept.contents
  rw [hadd] at hsame
  cases hadd' : addContents (match
      changes.digital_content_events.get? entry.digital_content_id with
        | some value => changes.digital_content_events.set entry.digital_content_id
            ⟨parsed.record, value.events⟩
        | none => changes.digital_content_events).items tables.contents with
  | error message =>
    rw [hadd'] at hsame
    cases hsame
  | ok contents' =>
    rw [hadd'] at hsame
    obtain ⟨htables, hdispatched⟩ := Prod.mk.inj (Except.ok.inj hsame)
    obtain ⟨hcontents, hvisible, -, hremixes⟩ := Tables.mk.inj htables
    apply traceless_of_parse hsound hparse hvisible hremixes hdispatched
    intro hshared
    obtain ⟨value, hcached⟩ := Option.isSome_iff_exists.mp hshared
    have hexisting := hskipped.existing
    rw [hcached] at hexisting hadd'
    have hvalue : value.digital_content = record := Except.ok.inj hexisting
    have hshown : (!value.events.isEmpty) = true := by
      have hne := eventful_of_process_entries before (fun _ _ hstart ↦ by cases hstart)
        hskipped.before entry.digital_content_id value hcached
      rw [Bool.not_eq_true', isEmpty_eq_false_iff]
      exact hne
    have hrecords := records_of_addContents _ hadd
    rw [← hcontents, records_of_addContents _ hadd'] at hrecords
    rw [← hvalue]
    exact Lib.Entries.eq_of_map_filter_set (fun value ↦ !value.events.isEmpty)
      Value.digital_content ⟨parsed.record, value.events⟩ hcached hshown hshown
      (append_cancel_left hrecords)

end Block

end DigitalContents

/-! ### Content lists -/

section ContentLists

/-- What a block leaves in the table, and the challenge events it dispatches. -/
def observedLists (multihashDigestToCid : List UInt8 → String) (rows : List ContentListRow)
    (block : ContentListBlock) : Except String (List ContentListRow × List (Option ℕ × ℕ)) :=
  (contentListStateUpdate multihashDigestToCid rows block).map fun update ↦
    (update.rows, update.dispatches)

/-- A block has an event after certain ones, and the rest is the block without it. -/
def ContentListBlock.Without (header : ContentListBlock) (before : List (TxHash × ContentListLog))
    (entry : TxHash × ContentListLog) (whole rest : ContentListBlock) : Prop :=
  ∃ txs txs' after, whole = { header with txs := txs } ∧ rest = { header with txs := txs' } ∧
    contentListEntries whole = before ++ entry :: after ∧ contentListEntries rest = before ++ after

/-- An event is skipped after certain ones: they are handled, and its record, once it was looked up
and parsed, lacks a required field. -/
structure ListSkippedAfter (multihashDigestToCid : List UInt8 → String)
    (rows : List ContentListRow) (header : ContentListBlock)
    (before : List (TxHash × ContentListLog)) (entry : TxHash × ContentListLog)
    (s : ContentListChanges) : Prop where
  before : before.foldlM (processContentListEntry multihashDigestToCid rows header)
    ⟨Dict.empty, [], 0, []⟩ = .ok s
  skipped : ∃ existing record,
    existingContentListRecord rows header
        ((s.lookup.get? entry.2.contentListId).map ContentListValue.contentList) entry.1
        entry.2.contentListId = .ok existing ∧
      parseContentListEvent multihashDigestToCid header.timestamp existing entry.2.event =
        .ok record ∧ record.allRequiredFieldsPresent = false

/-- What the loop keeps but for the transactions that were skipped. -/
def ContentListChanges.unskipped (s : ContentListChanges) : ContentListChanges :=
  { s with skippedTxs := [] }

variable {multihashDigestToCid : List UInt8 → String} {rows : List ContentListRow}
variable {header : ContentListBlock} {s s' : ContentListChanges}
variable {before : List (TxHash × ContentListLog)} {entry : TxHash × ContentListLog}

variable (multihashDigestToCid rows header) in
/-- The loop does not read what was skipped. -/
theorem readsView_processContentListEntry :
    Lib.ReadsView ContentListChanges.unskipped
      (processContentListEntry multihashDigestToCid rows header) := by
  intro s s' entry h
  obtain ⟨lookup, ids, total, skipped⟩ := s
  obtain ⟨lookup', ids', total', skipped'⟩ := s'
  obtain ⟨rfl, rfl, rfl, -⟩ := ContentListChanges.mk.inj h
  unfold processContentListEntry
  dsimp only
  cases existingContentListRecord rows header
      ((lookup.get? entry.2.contentListId).map ContentListValue.contentList) entry.1
      entry.2.contentListId with
  | error message => rfl
  | ok existing =>
    rw [Lib.ok_bind, Lib.ok_bind]
    cases parseContentListEvent multihashDigestToCid header.timestamp existing entry.2.event with
    | error message => rfl
    | ok record =>
      rw [Lib.ok_bind, Lib.ok_bind]
      split
      · rfl
      · rfl

/-- An event that is skipped leaves its transaction noted, and nothing else. -/
theorem processContentListEntry_of_skipped
    (h : ListSkippedAfter multihashDigestToCid rows header before entry s) :
    processContentListEntry multihashDigestToCid rows header s entry =
      .ok { s with skippedTxs := s.skippedTxs ++ [entry.1] } := by
  obtain ⟨existing, record, hexisting, hrecord, hskip⟩ := h.skipped
  unfold processContentListEntry
  dsimp only
  rw [hexisting, Lib.ok_bind, hrecord, Lib.ok_bind, hskip]
  rfl

/-- A block is as if the skipped event was not in it. -/
theorem observedLists_eq_of_skipped
    (h : ListSkippedAfter multihashDigestToCid rows header before entry s)
    {whole rest : ContentListBlock} (hwithout : header.Without before entry whole rest) :
    (processContentListTxs multihashDigestToCid rows whole).map ContentListChanges.unskipped =
        (processContentListTxs multihashDigestToCid rows rest).map ContentListChanges.unskipped ∧
      observedLists multihashDigestToCid rows whole =
        observedLists multihashDigestToCid rows rest := by
  obtain ⟨txs, txs', after, rfl, rfl, hwhole, hrest⟩ := hwithout
  have hloop : (processContentListTxs multihashDigestToCid rows { header with txs := txs }).map
      ContentListChanges.unskipped = (processContentListTxs multihashDigestToCid rows
        { header with txs := txs' }).map ContentListChanges.unskipped := by
    unfold processContentListTxs
    rw [hwhole, hrest]
    exact (readsView_processContentListEntry multihashDigestToCid rows header).erase h.before
      (processContentListEntry_of_skipped h) rfl after
  refine ⟨hloop, ?_⟩
  have hobserved : ∀ block : ContentListBlock, observedLists multihashDigestToCid rows block =
      (processContentListTxs multihashDigestToCid rows block).bind fun s ↦
        s.lookup.items.foldlM addContentList (rows, []) := by
    intro block
    unfold observedLists contentListStateUpdate
    cases processContentListTxs multihashDigestToCid rows block with
    | error message => rfl
    | ok s =>
      rw [Lib.ok_bind]
      dsimp only [Except.bind]
      cases s.lookup.items.foldlM addContentList (rows, []) with
      | error message => rfl
      | ok added => rfl
  rw [hobserved, hobserved]
  refine Lib.bind_eq_of_map_eq (fun s s' hview ↦ ?_) hloop
  have hlookup := congrArg ContentListChanges.lookup hview
  change s.lookup = s'.lookup at hlookup
  rw [hlookup]

end ContentLists

/-! ### All events -/

open DigitalContents

/-- After any blocks an event of a digital content that is skipped leaves no trace, whatever comes
before and after it in its block, just when it is traceless at its place; one of a content list
leaves none, and one of a user is never skipped. -/
theorem leavesNoTrace_iff (functions : ContentRoutes.TextFunctions)
    (multihashDigestToCid : List UInt8 → String) (history : List Step) :
    (∀ users header before entry changes record,
      SkippedAfter functions users (reached functions multihashDigestToCid [] history).tables header
          before entry changes record →
        (LeavesNoTrace functions users (reached functions multihashDigestToCid [] history).tables
            header before entry ↔
          Traceless functions users header
            ((changes.digital_content_events.get? entry.digital_content_id).isSome = true) record
            changes.effects entry.event)) ∧
      (∀ rows header before entry s,
        ListSkippedAfter multihashDigestToCid rows header before entry s →
          ∀ whole rest, ContentListBlock.Without header before entry whole rest →
            (processContentListTxs multihashDigestToCid rows whole).map
                  ContentListChanges.unskipped =
                (processContentListTxs multihashDigestToCid rows rest).map
                  ContentListChanges.unskipped ∧
              observedLists multihashDigestToCid rows whole =
                observedLists multihashDigestToCid rows rest) ∧
      ∀ libraries block_number block_timestamp ipfs_metadata users user_id entries effects changes,
        Users.process_user_txs_serial libraries block_number block_timestamp users ipfs_metadata
            user_id entries ⟨none, effects, []⟩ = .ok changes → changes.skipped = [] := by
  have hkept := (kept_reached functions multihashDigestToCid hasCurrent_nil history).tables
  refine ⟨?_, ?_, ?_⟩
  · intro users header before entry changes record hskipped
    obtain ⟨-, hsound⟩ := kept_of_process_entries hkept.contents before (keyed_startOf _)
      hkept.routes hskipped.before
    exact ⟨traceless_of_leavesNoTrace hkept hskipped, leavesNoTrace_of_traceless hsound hskipped⟩
  · intro rows header before entry s hskipped whole rest hwithout
    exact observedLists_eq_of_skipped hskipped hwithout
  · intro libraries block_number block_timestamp ipfs_metadata users user_id entries effects changes
      hrun
    exact Users.not_skipped_of_process_user_txs_serial users user_id entries
      (fun user huser ↦ by cases huser) hrun

/-- The event of `songStep`; its song has no segments. -/
def songEntry : Entry := ⟨"0xb", 1, .new 7 "Qm"⟩

/-- The song of a user without a handle is skipped, and leaves no trace. -/
theorem leavesNoTrace_songEntry :
    LeavesNoTrace ContentRoutes.asciiFunctions (fun _ ↦ some none)
      (reached ContentRoutes.asciiFunctions (fun _ ↦ "") [] []).tables
      (songStep fun _ ↦ none).digitalContents [] songEntry := by
  refine ((leavesNoTrace_iff ContentRoutes.asciiFunctions (fun _ ↦ "") []).1 (fun _ ↦ some none)
    (songStep fun _ ↦ none).digitalContents [] songEntry _ _ ⟨rfl, rfl, _, rfl, rfl⟩).mpr ⟨?_, ?_⟩
  · intro handle hhandle
    cases hhandle
  · intro hshared
    cases hshared

/-- The song of a user with a handle is skipped as well; by then it has a route, and the challenge
event of an upload is dispatched. -/
theorem not_leavesNoTrace_songEntry :
    (∃ changes record, SkippedAfter ContentRoutes.asciiFunctions (fun _ ↦ some (some "a"))
        (reached ContentRoutes.asciiFunctions (fun _ ↦ "") [] []).tables
        (songStep fun _ ↦ none).digitalContents [] songEntry changes record) ∧
      ¬ LeavesNoTrace ContentRoutes.asciiFunctions (fun _ ↦ some (some "a"))
        (reached ContentRoutes.asciiFunctions (fun _ ↦ "") [] []).tables
        (songStep fun _ ↦ none).digitalContents [] songEntry := by
  refine ⟨⟨_, _, rfl, rfl, _, rfl, rfl⟩, fun h ↦ ?_⟩
  have hsame := h (songStep fun _ ↦ none).digitalContents
    { (songStep fun _ ↦ none).digitalContents with txs := [] }
    ⟨_, _, [], rfl, rfl, rfl, rfl⟩
  have hdispatched := congrArg (Except.map Prod.snd) hsame
  have hwhole : (observed ContentRoutes.asciiFunctions (fun _ ↦ some (some "a"))
      (songStep fun _ ↦ none).digitalContents
      (reached ContentRoutes.asciiFunctions (fun _ ↦ "") [] []).tables).map Prod.snd =
      .ok [(2, 7)] := by rfl
  cases hdispatched

end ColivingSpec.Discovery
