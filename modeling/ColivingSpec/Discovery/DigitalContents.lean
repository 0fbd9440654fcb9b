import ColivingSpec.Discovery.ContentRoutes
import ColivingSpec.Lib.Json
import Mathlib.Data.Finset.Union

/-!
# Digital contents

The handler of digital contents. The records of a block are kept in a dictionary by content; an event
is applied to the record that is there, or to the current row. A record without its required fields
is left out, and any other failure ends the block. At the end each record takes the place of the
current row. The module follows `digital_contents.py`; timestamps are in seconds.
-/

namespace ColivingSpec.Discovery

open Lib (Dict Json)

namespace DigitalContents

open ContentRoutes (Text PyString TextFunctions Routes ofText stored
  create_digital_content_route_id update_digital_content_routes_table)

/-! ### Events and records -/

/-- `digital_content_event_constants.py:1–11`. -/
inductive EventType where
  | new_digital_content
  | update_digital_content
  | delete_digital_content
  deriving DecidableEq, Repr

/-- The types in the order in which they are handled. -/
def digital_content_event_types_arr : List EventType :=
  [.new_digital_content, .update_digital_content, .delete_digital_content]

/-- An event in a receipt, with its content; the metadata is named by its CID. -/
inductive Event where
  | new (owner_id : ℕ) (cid : String)
  | update (owner_id : ℕ) (cid : String)
  | delete
  deriving DecidableEq, Repr

/-- The type of an event. -/
def Event.type : Event → EventType
  | .new .. => .new_digital_content
  | .update .. => .update_digital_content
  | .delete => .delete_digital_content

/-- An event of a transaction, with its content. -/
structure Entry where
  txhash : String
  digital_content_id : ℕ
  event : Event
  deriving DecidableEq, Repr

/-- The receipt of a transaction. -/
structure Receipt where
  transactionHash : String
  logs : List (ℕ × Event)
  deriving DecidableEq, Repr

/-- A block that is handled. -/
structure Block where
  number : ℕ
  hash : String
  timestamp : ℕ
  txs : List Receipt
  ipfs_metadata : Dict String (Dict String Json)

/-- The columns that are copied from the metadata as they are. -/
inductive Column where
  | tags
  | genre
  | mood
  | credits_splits
  | create_date
  | release_date
  | file_type
  | description
  | license
  | isrc
  | iswc
  | is_unlisted
  | field_visibility
  deriving DecidableEq, Repr

namespace Column

/-- The key of a column in the metadata. -/
def key : Column → String
  | tags => "tags"
  | genre => "genre"
  | mood => "mood"
  | credits_splits => "credits_splits"
  | create_date => "create_date"
  | release_date => "release_date"
  | file_type => "file_type"
  | description => "description"
  | license => "license"
  | isrc => "isrc"
  | iswc => "iswc"
  | is_unlisted => "is_unlisted"
  | field_visibility => "field_visibility"

/-- Whether a column has a text, which is stored without null characters. -/
def isText : Column → Bool
  | is_unlisted | field_visibility => false
  | _ => true

/-- All columns. -/
def all : List Column :=
  [tags, genre, mood, credits_splits, create_date, release_date, file_type, description, license,
    isrc, iswc, is_unlisted, field_visibility]

end Column

/-- `download`: `digital_contents.py:590–603`. -/
structure Download where
  is_downloadable : Bool
  requires_follow : Bool
  cid : Json

/-- The record of a digital content; what is not set is `None`: `digital_content.py:23–61`. -/
structure DigitalContent where
  digital_content_id : ℕ
  owner_id : Option ℕ
  is_delete : Bool
  title : Option Text
  length : Json
  cover_art : Json
  cover_art_sizes : Json
  columns : Column → Json
  metadata_multihash : Option String
  digital_content_segments : Json
  created_at : Option ℕ
  updated_at : Option ℕ
  download : Option Download
  route_id : Option Text
  stem_of : Json
  remix_of : Json
  blocknumber : ℕ
  blockhash : String
  txhash : String

/-- A row of the table. -/
structure Row where
  record : DigitalContent
  is_current : Bool

variable (digital_content_id : ℕ) (metadata : Dict String Json)

/-- A record of a content without rows: `digital_contents.py:182`. -/
def DigitalContent.fresh : DigitalContent where
  digital_content_id := digital_content_id
  owner_id := none
  is_delete := false
  title := none
  length := .null
  cover_art := .null
  cover_art_sizes := .null
  columns _ := .null
  metadata_multihash := none
  digital_content_segments := .null
  created_at := none
  updated_at := none
  download := none
  route_id := none
  stem_of := .null
  remix_of := .null
  blocknumber := 0
  blockhash := ""
  txhash := ""

variable (record : DigitalContent)

/-- The required columns that a record can be without: `model_nullable_validator.py:10–29`. -/
def all_required_fields_present : Bool :=
  record.owner_id.isSome && !record.digital_content_segments.isNull && record.created_at.isSome &&
    record.updated_at.isSome

/-- What is stored of a value in a text column: `model_utils.py:59–69`. -/
def storedJson : Json → Json
  | .str value => .str (String.ofList (stored (ofText value.toList)))
  | value => value

/-! ### Metadata -/

/-- `digital_content_metadata[key]`. -/
def item (key : String) : Except String Json :=
  match metadata.get? key with
  | some value => .ok value
  | none => .error "KeyError"

/-- The title, which must be a string for a slug or a route id to be made of it. -/
def titleOf : Except String PyString :=
  match item metadata "title" with
  | .error message => .error message
  | .ok (.str title) => .ok (ofText title.toList)
  | .ok _ => .error "AttributeError"

/-- `metadata[field]` if it is a dictionary with entries, else `null()`:
`digital_contents.py:553–556` and `581–588`. -/
def jsonField (field : String) : Json :=
  match metadata.get? field with
  | some (.object (member :: members)) => .object (member :: members)
  | _ => .null

/-- `metadata["download"]`: `digital_contents.py:590–603`. -/
def downloadOf : Except String Download :=
  match metadata.get? "download" with
  | none => .ok ⟨false, false, .null⟩
  | some download =>
    match download.dict? with
    | none => .error "AttributeError"
    | some entries =>
      .ok ⟨((entries.get? "is_downloadable").getD .null).eqTrue,
        ((entries.get? "requires_follow").getD .null).eqTrue, (entries.get? "cid").getD .null⟩

/-- The columns that are copied; the first key that is not there raises. -/
def columnsOf : Except String (Column → Json) :=
  if Column.all.all fun column ↦ (metadata.get? column.key).isSome then
    .ok fun column ↦
      let value := (metadata.get? column.key).getD .null
      if column.isText then storedJson value else value
  else .error "KeyError"

/-- What a cover is set to: `digital_contents.py:562–564`. -/
def coverArtOf : Except String Json :=
  match item metadata "cover_art", item metadata "cover_art_sizes" with
  | .ok cover_art, .ok cover_art_sizes =>
    .ok (storedJson (if cover_art_sizes.truthy then cover_art_sizes else cover_art))
  | .error message, _ => .error message
  | _, .error message => .error message

/-- `populate_digital_content_record_metadata`: `digital_contents.py:559–609`. -/
def populate_digital_content_record_metadata (functions : TextFunctions) (record : DigitalContent)
    (metadata : Dict String Json) (handle : Text) : Except String DigitalContent :=
  match titleOf metadata, item metadata "length", coverArtOf metadata, columnsOf metadata,
    item metadata "digital_content_segments", downloadOf metadata with
  | .ok title, .ok length, .ok cover_art, .ok columns, .ok digital_content_segments,
      .ok download =>
    .ok { record with
      title := some (stored title)
      length := if length.truthy then length else .int 0
      cover_art := cover_art
      columns := columns
      digital_content_segments := digital_content_segments
      stem_of := jsonField metadata "stem_of"
      remix_of := jsonField metadata "remix_of"
      download := some download
      route_id := some (create_digital_content_route_id functions title handle) }
  | .error message, _, _, _, _, _ => .error message
  | _, .error message, _, _, _, _ => .error message
  | _, _, .error message, _, _, _ => .error message
  | _, _, _, .error message, _, _ => .error message
  | _, _, _, _, .error message, _ => .error message
  | _, _, _, _, _, .error message => .error message

/-- A cover stands under its sizes: `digital_contents.py:486–493` and `531–538`. -/
def moveCoverArt : DigitalContent :=
  if record.cover_art.truthy then
    { record with cover_art_sizes := record.cover_art, cover_art := .null }
  else record

/-! ### Stems and remixes -/

/-- The parent a stem names: `digital_contents.py:212–218`. -/
def stemParent : Option ℤ :=
  (metadata.get? "stem_of").bind fun stem_of ↦ stem_of.dict?.bind fun entries ↦
    (entries.get? "parent_digital_content_id").bind Json.int?

/-- `update_stems_table`: `digital_contents.py:211–232`, over the pairs of a parent and a child. -/
def update_stems_table (stems : Finset (ℤ × ℕ)) : Finset (ℤ × ℕ) :=
  match stemParent metadata with
  | none => stems
  | some parent => insert (parent, digital_content_id) stems

/-- The parents a remix names: `digital_contents.py:241–252`. -/
def remixParents : List ℤ :=
  match (metadata.get? "remix_of").bind fun remix_of ↦ remix_of.dict?.bind fun entries ↦
    entries.get? "digitalContents" with
  | some (.list digitalContents) => digitalContents.filterMap fun digital_content ↦
      digital_content.dict?.bind fun entries ↦
        (entries.get? "parent_digital_content_id").bind Json.int?
  | _ => []

/-- The remixes of a content with certain parents. -/
def remixesOf (parents : List ℤ) : Finset (ℤ × ℕ) :=
  (parents.map fun parent ↦ (parent, digital_content_id)).toFinset

/-- `update_remixes_table`: `digital_contents.py:235–253`. A parent that is named twice breaks the
primary key. -/
def update_remixes_table (remixes : Finset (ℤ × ℕ)) : Except String (Finset (ℤ × ℕ)) :=
  if (remixParents metadata).Nodup then
    .ok (remixes.filter (fun remix ↦ remix.2 ≠ digital_content_id) ∪
      remixesOf digital_content_id (remixParents metadata))
  else .error "duplicate key value violates unique constraint"

/-! ### Parsing an event -/

/-- The side tables and what is dispatched, which an event changes as it goes. -/
structure Effects where
  routes : Routes
  stems : Finset (ℤ × ℕ)
  remixes : Finset (ℤ × ℕ)
  dispatched : List (ℕ × ℕ)

/-- What is left when an event was parsed: its effects, the record as it was set, and whether the
record has its required fields. -/
structure Parsed where
  effects : Effects
  record : DigitalContent
  complete : Bool

section Parse

variable (functions : TextFunctions) (users : ℕ → Option (Option String)) (block : Block)

variable (event : EventType) (owner_id : ℕ)

variable (record : DigitalContent)

/-- The fields that a new or update event sets first: `digital_contents.py:434`, `448–450` and
`502–504`. -/
def claimed : DigitalContent :=
  { record with
    created_at := if event = .new_digital_content then some block.timestamp else record.created_at
    owner_id := some owner_id
    is_delete := false }

/-- The record as far as its route needs it. -/
def routeRecord : ContentRoutes.Record :=
  ⟨record.digital_content_id, owner_id, record.title, record.blockhash, record.blocknumber,
    record.txhash⟩

/-- The last fields of a record: `digital_contents.py:535–544`. -/
def finished : DigitalContent :=
  { record with updated_at := some block.timestamp }

/-- A new or update event whose owner has a handle: `digital_contents.py:465–497` and
`519–538`. -/
def parseNamed (cid : String) (metadata : Dict String Json) (handle : Text)
    (record : DigitalContent) (effects : Effects) : Except String Parsed :=
  match titleOf metadata with
  | .error message => .error message
  | .ok title =>
    match update_digital_content_routes_table functions (routeRecord owner_id record) title
      effects.routes with
    | .error message => .error message
    | .ok routes =>
      match populate_digital_content_record_metadata functions record metadata handle with
      | .error message => .error message
      | .ok record =>
        match update_remixes_table record.digital_content_id metadata effects.remixes with
        | .error message => .error message
        | .ok remixes =>
          let record := finished block
            (moveCoverArt { record with metadata_multihash := some cid })
          let isNew := decide (event = .new_digital_content)
          .ok {
            effects := {
              routes
              stems :=
                if isNew then update_stems_table record.digital_content_id metadata effects.stems
                else effects.stems
              remixes
              dispatched :=
                if isNew then effects.dispatched ++ [(block.number, owner_id)]
                else effects.dispatched }
            record
            complete := all_required_fields_present record }

/-- A new or update event: `digital_contents.py:433–538`. An owner without a handle leaves the record
out; one without a current row raises. -/
def parseClaim (cid : String) (record : DigitalContent) (effects : Effects) :
    Except String Parsed :=
  match block.ipfs_metadata.get? cid with
  | none => .error "KeyError"
  | some metadata =>
    match users owner_id with
    | none => .error "'NoneType' object is not subscriptable"
    | some none => .ok ⟨effects, claimed block event owner_id record, false⟩
    | some (some handle) =>
      if handle = "" then .ok ⟨effects, claimed block event owner_id record, false⟩
      else
        parseNamed functions block event owner_id cid metadata handle.toList
          (claimed block event owner_id record) effects

/-- A delete event: `digital_contents.py:529–544`. -/
def parseDelete (effects : Effects) : Parsed :=
  let record := finished block { record with
    is_delete := true
    stem_of := .null
    remix_of := .null }
  ⟨effects, record, all_required_fields_present record⟩

/-- `parse_digital_content_event`: `digital_contents.py:418–544`, with the look-up of the metadata,
`102–112`. -/
def parse_digital_content_event (event : Event) (record : DigitalContent) (effects : Effects) :
    Except String Parsed :=
  match event with
  | .new owner_id cid =>
    parseClaim functions users block .new_digital_content owner_id cid record effects
  | .update owner_id cid =>
    parseClaim functions users block .update_digital_content owner_id cid record effects
  | .delete => .ok (parseDelete block record effects)

end Parse

/-! ### The handler -/

/-- The tables. -/
structure Tables where
  contents : List Row
  routes : List ContentRoutes.DigitalContentRoute
  stems : Finset (ℤ × ℕ)
  remixes : Finset (ℤ × ℕ)

/-- What is kept of a content of the block: its record, and the types of its events. -/
structure Value where
  digital_content : DigitalContent
  events : List EventType

/-- What the loop over the transactions keeps. -/
structure Changes where
  digital_content_events : Dict ℕ Value
  effects : Effects
  digital_content_ids : List ℕ
  num_total_changes : ℕ
  skipped : List String

section Handler

variable (functions : TextFunctions) (users : ℕ → Option (Option String)) (block : Block)

variable (contents : List Row)

/-- `lookup_digital_content_record`: `digital_contents.py:162–187`. -/
def lookup_digital_content_record (digital_content_id : ℕ) (txhash : String) :
    Except String DigitalContent :=
  let stamp (record : DigitalContent) : DigitalContent :=
    { record with blocknumber := block.number, blockhash := block.hash, txhash := txhash }
  if contents.any fun row ↦ decide (row.record.digital_content_id = digital_content_id) then
    match contents.find? fun row ↦
      decide (row.record.digital_content_id = digital_content_id) && row.is_current with
    | some row => .ok (stamp row.record)
    | none => .error "UnmappedInstanceError"
  else .ok (stamp (DigitalContent.fresh digital_content_id))

/-- The record that an event is applied to: `digital_contents.py:86–99`. -/
def existing_digital_content_record (cached : Option Value) (entry : Entry) :
    Except String DigitalContent :=
  match cached with
  | some value => .ok value.digital_content
  | none =>
    lookup_digital_content_record block contents entry.digital_content_id entry.txhash

/-- An event: `digital_contents.py:71–138`. The record of the dictionary is the one that is parsed,
so that it keeps what was set also when the event is skipped. -/
def process_entry (changes : Changes) (entry : Entry) : Except String Changes :=
  let cached := changes.digital_content_events.get? entry.digital_content_id
  match existing_digital_content_record block contents cached entry with
  | .error message => .error message
  | .ok record =>
    match parse_digital_content_event functions users block entry.event record changes.effects with
    | .error message => .error message
    | .ok parsed =>
      if parsed.complete then
        .ok {
          digital_content_events := changes.digital_content_events.set entry.digital_content_id
            ⟨parsed.record, (cached.map Value.events).getD [] ++ [entry.event.type]⟩
          effects := parsed.effects
          digital_content_ids :=
            if entry.digital_content_id ∈ changes.digital_content_ids then
              changes.digital_content_ids
            else changes.digital_content_ids ++ [entry.digital_content_id]
          num_total_changes := changes.num_total_changes + 1
          skipped := changes.skipped }
      else
        .ok { changes with
          digital_content_events :=
            match cached with
            | some value => changes.digital_content_events.set entry.digital_content_id
                ⟨parsed.record, value.events⟩
            | none => changes.digital_content_events
          effects := parsed.effects
          skipped := changes.skipped ++ [entry.txhash] }

/-- The events, in their order. -/
def process_entries (contents : List Row) : List Entry → Changes → Except String Changes
  | [], changes => .ok changes
  | entry :: rest, changes =>
    match process_entry functions users block contents changes entry with
    | .error message => .error message
    | .ok changes => process_entries contents rest changes

/-- The events of a block in the order in which they are handled, for each transaction type by
type: `digital_contents.py:61–71`. -/
def entriesOf : List Entry :=
  block.txs.flatMap fun tx ↦ digital_content_event_types_arr.flatMap fun event_type ↦
    (tx.logs.filter fun log ↦ decide (log.2.type = event_type)).map fun log ↦
      ⟨tx.transactionHash, log.1, log.2⟩

variable (tables : Tables)

/-- What the loop starts with. -/
def startOf : Changes where
  digital_content_events := Dict.empty
  effects := ⟨⟨tables.routes, []⟩, tables.stems, tables.remixes, []⟩
  digital_content_ids := []
  num_total_changes := 0
  skipped := []

/-- `invalidate_old_digital_content`: `digital_contents.py:190–203`. -/
def invalidate_old_digital_content (digital_content_id : ℕ) : Except String (List Row) :=
  if (contents.any fun row ↦ decide (row.record.digital_content_id = digital_content_id)) &&
      !contents.any fun row ↦
        decide (row.record.digital_content_id = digital_content_id) && row.is_current then
    .error "Update operation requires a current digital_content to be invalidated"
  else
    .ok (contents.map fun row ↦
      if decide (row.record.digital_content_id = digital_content_id) && row.is_current then
        { row with is_current := false }
      else row)

/-- The records of the block are added: `digital_contents.py:144–148`. -/
def addContents : List (ℕ × Value) → List Row → Except String (List Row)
  | [], contents => .ok contents
  | (digital_content_id, value) :: rest, contents =>
    if value.events.isEmpty then addContents rest contents
    else
      match invalidate_old_digital_content contents digital_content_id with
      | .error message => .error message
      | .ok contents => addContents rest (contents ++ [⟨value.digital_content, true⟩])

/-- What the handler leaves: the tables, what it dispatched, the transactions it skipped, and what it
returns. -/
structure Update where
  tables : Tables
  dispatched : List (ℕ × ℕ)
  skipped : List String
  num_total_changes : ℕ
  digital_content_ids : List ℕ

/-- `digital_content_state_update`: `digital_contents.py:29–153`. -/
def digital_content_state_update : Except String Update :=
  match process_entries functions users block tables.contents (entriesOf block)
    (startOf tables) with
  | .error message => .error message
  | .ok changes =>
    match addContents changes.digital_content_events.items tables.contents with
    | .error message => .error message
    | .ok contents =>
      .ok ⟨⟨contents, changes.effects.routes.visible, changes.effects.stems,
        changes.effects.remixes⟩, changes.effects.dispatched, changes.skipped,
        changes.num_total_changes, changes.digital_content_ids⟩

end Handler

end DigitalContents

end ColivingSpec.Discovery
