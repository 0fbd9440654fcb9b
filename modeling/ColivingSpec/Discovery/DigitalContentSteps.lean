import ColivingSpec.Discovery.DigitalContents
import ColivingSpec.Discovery.RouteUniqueness
import ColivingSpec.Lib.Checked

/-!
# Steps of digital contents

An event of well-formed metadata is handled just when the owner it names has a current row: what it
needs of the tables is there, since a content with rows has a current one and the routes are sound,
and events keep both.
-/

namespace ColivingSpec.Discovery

open List

open Lib (Dict Json Succeeds)

/-! ### Rows of which one is current -/

/-- An entity that has rows has a current one. -/
def HasCurrent {α κ : Type} (id : α → κ) (isCurrent : α → Bool) (rows : List α) : Prop :=
  ∀ row ∈ rows, ∃ current ∈ rows, id current = id row ∧ isCurrent current = true

section HasCurrent

variable {α κ : Type} {id : α → κ} {isCurrent : α → Bool} {rows : List α}

theorem hasCurrent_nil : HasCurrent id isCurrent [] := by
  intro row hrow
  cases hrow

/-- A new row may take the place of the rows of its entity. -/
theorem HasCurrent.replace (h : HasCurrent id isCurrent rows) {retire : α → α} {new : α}
    (hid : ∀ row, id (retire row) = id row) (hnew : isCurrent new = true)
    (hothers : ∀ row, id row ≠ id new → retire row = row) :
    HasCurrent id isCurrent (rows.map retire ++ [new]) := by
  intro row hrow
  have hself : new ∈ rows.map retire ++ [new] := mem_append_right _ mem_cons_self
  rcases mem_append.mp hrow with hold | hadded
  · obtain ⟨old, hmem, rfl⟩ := mem_map.mp hold
    rw [hid]
    by_cases heq : id old = id new
    · exact ⟨new, hself, heq.symm, hnew⟩
    · obtain ⟨current, hcurrent, hsame, htrue⟩ := h old hmem
      have hstays := hothers current (by rwa [hsame])
      refine ⟨current, mem_append_left _ ?_, hsame, htrue⟩
      exact mem_map.mpr ⟨current, hcurrent, hstays⟩
  · rw [mem_singleton.mp hadded]
    exact ⟨new, hself, rfl, hnew⟩

end HasCurrent

namespace DigitalContents

open ContentRoutes (Text TextFunctions update_digital_content_routes_table)

/-! ### Well-formed events -/

/-- The owner that an event names. -/
def Event.owner? : Event → Option ℕ
  | .new owner_id _ | .update owner_id _ => some owner_id
  | .delete => none

/-- The metadata that an event names. -/
def Event.cid? : Event → Option String
  | .new _ cid | .update _ cid => some cid
  | .delete => none

/-- The keys that the metadata of a content has besides its title. -/
def requiredKeys : List String :=
  ["length", "cover_art", "cover_art_sizes", "digital_content_segments"] ++
    Column.all.map Column.key

/-- The metadata of a content is as the client writes it: a title, all the keys, a dictionary as
`download` if there is one, and no parent twice. -/
structure WellFormedMetadata (metadata : Dict String Json) : Prop where
  title : ∃ title, metadata.get? "title" = some (.str title)
  keys : ∀ key ∈ requiredKeys, (metadata.get? key).isSome = true
  download : ∀ download, metadata.get? "download" = some download → download.dict?.isSome = true
  parents : (remixParents metadata).Nodup

/-- The metadata that the event names was fetched, and is well formed. -/
def WellFormedEvent (block : Block) (event : Event) : Prop :=
  ∀ cid, event.cid? = some cid →
    ∃ metadata, block.ipfs_metadata.get? cid = some metadata ∧ WellFormedMetadata metadata

/-- The owner that an event names has a current row. -/
def OwnerKnown (users : ℕ → Option (Option String)) (event : Event) : Prop :=
  ∀ owner_id, event.owner? = some owner_id → (users owner_id).isSome = true

/-! ### Metadata -/

section Metadata

variable {metadata : Dict String Json}

theorem WellFormedMetadata.exists_title (h : WellFormedMetadata metadata) :
    ∃ title, titleOf metadata = .ok title := by
  obtain ⟨title, htitle⟩ := h.title
  unfold titleOf item
  rw [htitle]
  exact ⟨_, rfl⟩

theorem WellFormedMetadata.exists_item (h : WellFormedMetadata metadata) {key : String}
    (hkey : key ∈ requiredKeys) : ∃ value, item metadata key = .ok value := by
  obtain ⟨value, hvalue⟩ := Option.isSome_iff_exists.mp (h.keys key hkey)
  unfold item
  rw [hvalue]
  exact ⟨value, rfl⟩

theorem WellFormedMetadata.exists_coverArt (h : WellFormedMetadata metadata) :
    ∃ cover_art, coverArtOf metadata = .ok cover_art := by
  obtain ⟨cover_art, hcover⟩ := h.exists_item (show "cover_art" ∈ requiredKeys by decide)
  obtain ⟨sizes, hsizes⟩ := h.exists_item (show "cover_art_sizes" ∈ requiredKeys by decide)
  unfold coverArtOf
  rw [hcover, hsizes]
  exact ⟨_, rfl⟩

theorem WellFormedMetadata.exists_columns (h : WellFormedMetadata metadata) :
    ∃ columns, columnsOf metadata = .ok columns := by
  unfold columnsOf
  rw [if_pos]
  · exact ⟨_, rfl⟩
  · apply all_eq_true.mpr
    intro column hcolumn
    exact h.keys column.key (mem_append_right _ (mem_map_of_mem hcolumn))

theorem WellFormedMetadata.exists_download (h : WellFormedMetadata metadata) :
    ∃ download, downloadOf metadata = .ok download := by
  unfold downloadOf
  cases hget : metadata.get? "download" with
  | none => exact ⟨_, rfl⟩
  | some download =>
    obtain ⟨entries, hentries⟩ := Option.isSome_iff_exists.mp (h.download download hget)
    dsimp only
    rw [hentries]
    exact ⟨_, rfl⟩

/-- Well-formed metadata is copied without an error. -/
theorem WellFormedMetadata.exists_populate (h : WellFormedMetadata metadata)
    (functions : TextFunctions) (record : DigitalContent) (handle : Text) :
    ∃ record', populate_digital_content_record_metadata functions record metadata handle =
      .ok record' := by
  obtain ⟨title, htitle⟩ := h.exists_title
  obtain ⟨length, hlength⟩ := h.exists_item (show "length" ∈ requiredKeys by decide)
  obtain ⟨cover_art, hcover⟩ := h.exists_coverArt
  obtain ⟨columns, hcolumns⟩ := h.exists_columns
  obtain ⟨segments, hsegments⟩ :=
    h.exists_item (show "digital_content_segments" ∈ requiredKeys by decide)
  obtain ⟨download, hdownload⟩ := h.exists_download
  unfold populate_digital_content_record_metadata
  rw [htitle, hlength, hcover, hcolumns, hsegments, hdownload]
  exact ⟨_, rfl⟩

end Metadata

/-! ### Parsing an event -/

section Parse

variable {functions : TextFunctions} {users : ℕ → Option (Option String)} {block : Block}
variable {event : EventType} {owner_id : ℕ} {cid : String} {metadata : Dict String Json}
variable {handle : Text} {record : DigitalContent} {effects : Effects} {parsed : Parsed}

/-- The steps of an event whose owner has a handle. -/
theorem parseNamed_eq_ok (h : parseNamed functions block event owner_id cid metadata handle record
    effects = .ok parsed) :
    ∃ title routes populated remixes named, titleOf metadata = .ok title ∧
      update_digital_content_routes_table functions (routeRecord owner_id record) title
        effects.routes = .ok routes ∧
      populate_digital_content_record_metadata functions record metadata handle = .ok populated ∧
      update_remixes_table populated.digital_content_id metadata effects.remixes = .ok remixes ∧
      named = finished block (moveCoverArt { populated with metadata_multihash := some cid }) ∧
      parsed = {
        effects := {
          routes
          stems :=
            if decide (event = .new_digital_content) then
              update_stems_table named.digital_content_id metadata effects.stems
            else effects.stems
          remixes
          dispatched :=
            if decide (event = .new_digital_content) then
              effects.dispatched ++ [(block.number, owner_id)]
            else effects.dispatched }
        record := named
        complete := all_required_fields_present named } := by
  unfold parseNamed at h
  split at h
  · cases h
  · next title htitle =>
    split at h
    · cases h
    · next routes hroutes =>
      split at h
      · cases h
      · next populated hpopulated =>
        split at h
        · cases h
        · next remixes hremixes =>
          exact ⟨title, routes, populated, remixes, _, htitle, hroutes, hpopulated, hremixes, rfl,
            (Except.ok.inj h).symm⟩

/-- An event whose owner has a handle is parsed if its metadata is well formed. -/
theorem exists_parseNamed (hwf : WellFormedMetadata metadata)
    (hsound : ContentRoutes.Sound effects.routes) :
    ∃ parsed, parseNamed functions block event owner_id cid metadata handle record effects =
      .ok parsed := by
  obtain ⟨title, htitle⟩ := hwf.exists_title
  obtain ⟨routes, hroutes, -⟩ :=
    hsound.update_routes functions (routeRecord owner_id record) title
  obtain ⟨populated, hpopulated⟩ := hwf.exists_populate functions record handle
  unfold parseNamed
  rw [htitle]
  dsimp only
  rw [hroutes]
  rw [hpopulated]
  unfold update_remixes_table
  dsimp only
  rw [if_pos hwf.parents]
  exact ⟨_, rfl⟩

/-- A new or update event is parsed just when its owner has a current row. -/
theorem parseClaim_succeeds_iff (hsound : ContentRoutes.Sound effects.routes)
    (hmetadata : block.ipfs_metadata.get? cid = some metadata)
    (hwf : WellFormedMetadata metadata) :
    Succeeds (parseClaim functions users block event owner_id cid record effects) ↔
      (users owner_id).isSome = true := by
  unfold parseClaim
  rw [hmetadata]
  cases howner : users owner_id with
  | none =>
    constructor
    · rintro ⟨parsed, h⟩
      cases h
    · intro h
      cases h
  | some found =>
    refine iff_of_true ?_ rfl
    cases found with
    | none => exact ⟨_, rfl⟩
    | some handle =>
      dsimp only
      split
      · exact ⟨_, rfl⟩
      · exact exists_parseNamed hwf hsound

/-- A new or update event that is parsed sets its claim only, for an owner without a handle, or all
that its metadata says. -/
theorem parseClaim_eq_ok
    (h : parseClaim functions users block event owner_id cid record effects = .ok parsed) :
    ∃ metadata handle?, block.ipfs_metadata.get? cid = some metadata ∧
      users owner_id = some handle? ∧
      (((∀ handle, handle? = some handle → handle = "") ∧
          parsed = ⟨effects, claimed block event owner_id record, false⟩) ∨
        ∃ handle, handle? = some handle ∧ handle ≠ "" ∧
          parseNamed functions block event owner_id cid metadata handle.toList
            (claimed block event owner_id record) effects = .ok parsed) := by
  unfold parseClaim at h
  split at h
  · cases h
  · next metadata hmetadata =>
    split at h
    · cases h
    · next howner =>
      cases h
      refine ⟨metadata, none, hmetadata, howner, .inl ⟨?_, rfl⟩⟩
      intro handle hhandle
      cases hhandle
    · next handle howner =>
      refine ⟨metadata, some handle, hmetadata, howner, ?_⟩
      split at h
      · next hempty =>
        cases h
        refine .inl ⟨?_, rfl⟩
        intro other hother
        rw [← Option.some.inj hother, hempty]
      · next hne => exact .inr ⟨handle, rfl, hne, h⟩

/-- An event that is parsed leaves the routes sound. -/
theorem sound_of_parseClaim (hsound : ContentRoutes.Sound effects.routes)
    (h : parseClaim functions users block event owner_id cid record effects = .ok parsed) :
    ContentRoutes.Sound parsed.effects.routes := by
  obtain ⟨metadata, handle?, -, -, ⟨-, rfl⟩ | ⟨handle, -, -, hnamed⟩⟩ := parseClaim_eq_ok h
  · exact hsound
  · obtain ⟨title, routes, populated, remixes, named, -, hroutes, -, -, -, rfl⟩ :=
      parseNamed_eq_ok hnamed
    obtain ⟨routes', hupdate, hnext⟩ := hsound.update_routes functions
      (routeRecord owner_id (claimed block event owner_id record)) title
    rw [hroutes] at hupdate
    cases hupdate
    exact hnext

theorem ownerKnown_iff_of_some (users : ℕ → Option (Option String)) {event : Event} {owner_id : ℕ}
    (h : event.owner? = some owner_id) :
    OwnerKnown users event ↔ (users owner_id).isSome = true := by
  constructor
  · intro hknown
    exact hknown owner_id h
  · intro hsome other hother
    rw [h] at hother
    rwa [← Option.some.inj hother]

variable (functions record) in
/-- A well-formed event is parsed just when the owner it names has a current row. -/
theorem parse_succeeds_iff {event : Event} (hsound : ContentRoutes.Sound effects.routes)
    (hwf : WellFormedEvent block event) :
    Succeeds (parse_digital_content_event functions users block event record effects) ↔
      OwnerKnown users event := by
  cases event with
  | new _ cid | update _ cid =>
    obtain ⟨metadata, hmetadata, hformed⟩ := hwf cid rfl
    rw [ownerKnown_iff_of_some users rfl]
    exact parseClaim_succeeds_iff hsound hmetadata hformed
  | delete =>
    refine iff_of_true ⟨_, rfl⟩ ?_
    intro owner_id howner
    cases howner

theorem sound_of_parse {event : Event} (hsound : ContentRoutes.Sound effects.routes)
    (h : parse_digital_content_event functions users block event record effects = .ok parsed) :
    ContentRoutes.Sound parsed.effects.routes := by
  cases event with
  | new | update => exact sound_of_parseClaim hsound h
  | delete =>
    cases h
    exact hsound

/-! ### The record stays one of its content -/

theorem digital_content_id_of_populate {populated : DigitalContent}
    (h : populate_digital_content_record_metadata functions record metadata handle =
      .ok populated) :
    populated.digital_content_id = record.digital_content_id := by
  unfold populate_digital_content_record_metadata at h
  split at h
  all_goals cases h
  rfl

theorem digital_content_id_moveCoverArt (record : DigitalContent) :
    (moveCoverArt record).digital_content_id = record.digital_content_id := by
  unfold moveCoverArt
  split <;> rfl

theorem digital_content_id_of_parseClaim
    (h : parseClaim functions users block event owner_id cid record effects = .ok parsed) :
    parsed.record.digital_content_id = record.digital_content_id := by
  obtain ⟨metadata, handle?, -, -, ⟨-, rfl⟩ | ⟨handle, -, -, hnamed⟩⟩ := parseClaim_eq_ok h
  · rfl
  · obtain ⟨title, routes, populated, remixes, named, -, -, hpopulated, -, rfl, rfl⟩ :=
      parseNamed_eq_ok hnamed
    have hid := digital_content_id_of_populate hpopulated
    exact (digital_content_id_moveCoverArt _).trans hid

theorem digital_content_id_of_parse {event : Event}
    (h : parse_digital_content_event functions users block event record effects = .ok parsed) :
    parsed.record.digital_content_id = record.digital_content_id := by
  cases event with
  | new | update => exact digital_content_id_of_parseClaim h
  | delete =>
    cases h
    rfl

end Parse

/-! ### The events of a block -/

/-- A content with rows has a current one. -/
def ContentsCurrent (contents : List Row) : Prop :=
  HasCurrent (fun row ↦ row.record.digital_content_id) Row.is_current contents

/-- Each record of the dictionary is one of its content. -/
def Keyed (changes : Changes) : Prop :=
  ∀ digital_content_id value,
    changes.digital_content_events.get? digital_content_id = some value →
      value.digital_content.digital_content_id = digital_content_id

section Entries

variable {functions : TextFunctions} {users : ℕ → Option (Option String)} {block : Block}
variable {contents : List Row} {changes changes' : Changes} {entry : Entry}

/-- The look-up of a content gives a record of it. -/
theorem exists_lookup (h : ContentsCurrent contents) (digital_content_id : ℕ) (txhash : String) :
    ∃ record, lookup_digital_content_record block contents digital_content_id txhash = .ok record ∧
      record.digital_content_id = digital_content_id := by
  unfold lookup_digital_content_record
  split
  · next hany =>
    obtain ⟨row, hrow, hid⟩ := any_eq_true.mp hany
    obtain ⟨current, hcurrent, hsame, htrue⟩ := h row hrow
    have hid' : current.record.digital_content_id = digital_content_id :=
      hsame.trans (of_decide_eq_true hid)
    have hsome : (contents.find? fun row ↦
        decide (row.record.digital_content_id = digital_content_id) && row.is_current).isSome =
          true := by
      apply find?_isSome.mpr
      refine ⟨current, hcurrent, ?_⟩
      rw [htrue, decide_eq_true hid']
      rfl
    obtain ⟨found, hfound⟩ := Option.isSome_iff_exists.mp hsome
    rw [hfound]
    have hmatch := find?_some hfound
    rw [Bool.and_eq_true] at hmatch
    exact ⟨_, rfl, of_decide_eq_true hmatch.1⟩
  · exact ⟨_, rfl, rfl⟩

variable (block) in
/-- An event is applied to a record of its content. -/
theorem exists_existing (h : ContentsCurrent contents) (hkeyed : Keyed changes) (entry : Entry) :
    ∃ record, existing_digital_content_record block contents
        (changes.digital_content_events.get? entry.digital_content_id) entry = .ok record ∧
      record.digital_content_id = entry.digital_content_id := by
  cases hcached : changes.digital_content_events.get? entry.digital_content_id with
  | some value => exact ⟨value.digital_content, rfl, hkeyed _ value hcached⟩
  | none => exact exists_lookup h entry.digital_content_id entry.txhash

/-- What an event that is handled leaves: the effects of its parse, and the dictionary as it was or
with the record that was parsed. -/
theorem process_entry_eq_ok
    (h : process_entry functions users block contents changes entry = .ok changes') :
    ∃ record parsed, existing_digital_content_record block contents
        (changes.digital_content_events.get? entry.digital_content_id) entry = .ok record ∧
      parse_digital_content_event functions users block entry.event record changes.effects =
        .ok parsed ∧
      changes'.effects = parsed.effects ∧
      (changes'.digital_content_events = changes.digital_content_events ∨
        ∃ events, (events = [] → ∃ value,
            changes.digital_content_events.get? entry.digital_content_id = some value ∧
              value.events = []) ∧
          changes'.digital_content_events =
            changes.digital_content_events.set entry.digital_content_id
              ⟨parsed.record, events⟩) := by
  unfold process_entry at h
  dsimp only at h
  split at h
  · cases h
  · next record hrecord =>
    split at h
    · cases h
    · next parsed hparsed =>
      refine ⟨record, parsed, hrecord, hparsed, ?_⟩
      split at h
      · cases h
        refine ⟨rfl, .inr ⟨_, fun hnil ↦ ?_, rfl⟩⟩
        exact absurd hnil (append_ne_nil_of_right_ne_nil _ (cons_ne_nil _ _))
      · cases h
        refine ⟨rfl, ?_⟩
        split
        · next value hvalue => exact .inr ⟨_, fun hnil ↦ ⟨value, hvalue, hnil⟩, rfl⟩
        · exact .inl rfl

variable (functions users) in
theorem process_entry_succeeds_iff (hcontents : ContentsCurrent contents) (hkeyed : Keyed changes)
    (hsound : ContentRoutes.Sound changes.effects.routes) (hwf : WellFormedEvent block entry.event) :
    Succeeds (process_entry functions users block contents changes entry) ↔
      OwnerKnown users entry.event := by
  obtain ⟨record, hrecord, -⟩ := exists_existing block hcontents hkeyed entry
  rw [← parse_succeeds_iff functions record hsound hwf]
  constructor
  · rintro ⟨changes', h⟩
    obtain ⟨record', parsed, hrecord', hparsed, -⟩ := process_entry_eq_ok h
    rw [hrecord] at hrecord'
    cases hrecord'
    exact ⟨parsed, hparsed⟩
  · rintro ⟨parsed, hparsed⟩
    unfold process_entry
    dsimp only
    rw [hrecord]
    dsimp only
    rw [hparsed]
    dsimp only
    split
    · exact ⟨_, rfl⟩
    · exact ⟨_, rfl⟩

/-- An event that is handled keeps the routes sound and the records with their contents. -/
theorem kept_of_process_entry (hcontents : ContentsCurrent contents) (hkeyed : Keyed changes)
    (hsound : ContentRoutes.Sound changes.effects.routes)
    (h : process_entry functions users block contents changes entry = .ok changes') :
    Keyed changes' ∧ ContentRoutes.Sound changes'.effects.routes := by
  obtain ⟨record, parsed, hrecord, hparsed, heffects, hevents⟩ := process_entry_eq_ok h
  obtain ⟨record', hrecord', hid⟩ := exists_existing block hcontents hkeyed entry
  rw [hrecord] at hrecord'
  cases hrecord'
  refine ⟨?_, by rw [heffects]; exact sound_of_parse hsound hparsed⟩
  rcases hevents with hsame | ⟨events, -, hset⟩
  · unfold Keyed
    rw [hsame]
    exact hkeyed
  · intro digital_content_id value hvalue
    rw [hset, Dict.get?_set] at hvalue
    split at hvalue
    · next heq =>
      rw [← Option.some.inj hvalue, ← heq]
      exact (digital_content_id_of_parse hparsed).trans hid
    · exact hkeyed digital_content_id value hvalue

theorem kept_of_process_entries (hcontents : ContentsCurrent contents) (entries : List Entry) :
    ∀ {changes : Changes}, Keyed changes → ContentRoutes.Sound changes.effects.routes →
      process_entries functions users block contents entries changes = .ok changes' →
        Keyed changes' ∧ ContentRoutes.Sound changes'.effects.routes := by
  induction entries with
  | nil =>
    intro changes hkeyed hsound h
    cases h
    exact ⟨hkeyed, hsound⟩
  | cons entry entries ih =>
    intro changes hkeyed hsound h
    unfold process_entries at h
    split at h
    · cases h
    · next next hnext =>
      obtain ⟨hkeyed', hsound'⟩ := kept_of_process_entry hcontents hkeyed hsound hnext
      exact ih hkeyed' hsound' h

variable (functions) in
/-- Well-formed events are handled to the end just when the owners they name have current rows. -/
theorem process_entries_succeeds_iff (hcontents : ContentsCurrent contents) (entries : List Entry)
    (hwf : ∀ entry ∈ entries, WellFormedEvent block entry.event) :
    ∀ {changes : Changes}, Keyed changes → ContentRoutes.Sound changes.effects.routes →
      (Succeeds (process_entries functions users block contents entries changes) ↔
        ∀ entry ∈ entries, OwnerKnown users entry.event) := by
  induction entries with
  | nil =>
    intro changes _ _
    exact iff_of_true ⟨changes, rfl⟩ (fun entry hentry ↦ by cases hentry)
  | cons entry entries ih =>
    intro changes hkeyed hsound
    have hfirst := process_entry_succeeds_iff functions users hcontents
      hkeyed hsound (hwf entry mem_cons_self)
    rw [forall_mem_cons, ← hfirst]
    have hothers := fun other hother ↦ hwf other (mem_cons_of_mem entry hother)
    constructor
    · rintro ⟨final, h⟩
      unfold process_entries at h
      split at h
      · cases h
      · next next hnext =>
        obtain ⟨hkeyed', hsound'⟩ := kept_of_process_entry hcontents hkeyed hsound hnext
        exact ⟨⟨next, hnext⟩, (ih hothers hkeyed' hsound').mp ⟨final, h⟩⟩
    · rintro ⟨⟨next, hnext⟩, hknown⟩
      obtain ⟨hkeyed', hsound'⟩ := kept_of_process_entry hcontents hkeyed hsound hnext
      obtain ⟨final, h⟩ := (ih hothers hkeyed' hsound').mpr hknown
      refine ⟨final, ?_⟩
      unfold process_entries
      rw [hnext]
      exact h

end Entries

end DigitalContents

end ColivingSpec.Discovery
