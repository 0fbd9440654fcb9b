import ColivingSpec.Discovery.DigitalContentSteps

/-!
# Events without a trace

When an event is skipped, the handler of digital contents has changed the record by then, which
earlier events of the block share, and may have added a route, remixes and a challenge event. Which
events change nothing can be told from the record and the tables before them.
-/

namespace ColivingSpec.Discovery

open Lib (Dict Json)

namespace DigitalContents

open ContentRoutes (Text PyString TextFunctions Routes ofText stored isCurrentOf
  create_digital_content_slug create_digital_content_route_id update_digital_content_routes_table)

/-! ### What an event leaves as it is -/

/-- The record has what a new or update event sets first. -/
structure HoldsClaim (block : Block) (event : EventType) (owner_id : ℕ) (record : DigitalContent) :
    Prop where
  created_at : event = .new_digital_content → record.created_at = some block.timestamp
  owner_id : record.owner_id = some owner_id
  is_delete : record.is_delete = false

/-- The record has what the metadata says. -/
structure HoldsMetadata (functions : TextFunctions) (block : Block) (cid : String)
    (metadata : Dict String Json) (handle : Text) (record : DigitalContent) : Prop where
  title : ∃ title, titleOf metadata = .ok title ∧ record.title = some (stored title) ∧
    record.route_id = some (create_digital_content_route_id functions title handle)
  length : ∃ length, item metadata "length" = .ok length ∧
    record.length = if length.truthy then length else .int 0
  cover : ∃ cover_art, coverArtOf metadata = .ok cover_art ∧
    if cover_art.truthy then record.cover_art = .null ∧ record.cover_art_sizes = cover_art
    else record.cover_art = cover_art
  columns : columnsOf metadata = .ok record.columns
  segments : item metadata "digital_content_segments" = .ok record.digital_content_segments
  stem_of : record.stem_of = jsonField metadata "stem_of"
  remix_of : record.remix_of = jsonField metadata "remix_of"
  download : ∃ download, downloadOf metadata = .ok download ∧ record.download = some download
  metadata_multihash : record.metadata_multihash = some cid
  updated_at : record.updated_at = some block.timestamp

variable (functions : TextFunctions) (digital_content_id : ℕ)

/-- A title needs no new route: the record has it, or a current route of the content has its slug. -/
def KeepsRoute (old : Option Text) (title : PyString) (routes : Routes) : Prop :=
  old.map ofText = some title ∨ ∃ route ∈ routes.currentOf digital_content_id,
    route.title_slug = create_digital_content_slug functions title digital_content_id 0

/-- The remixes of a content are those that the metadata names. -/
def KeepsRemixes (metadata : Dict String Json) (remixes : Finset (ℤ × ℕ)) : Prop :=
  ∀ parent, (parent, digital_content_id) ∈ remixes ↔ parent ∈ remixParents metadata

/-- An event leaves the tables as they are, and the record of the dictionary if that is the one it
is applied to. -/
def Traceless (users : ℕ → Option (Option String)) (block : Block) (shared : Prop)
    (record : DigitalContent) (effects : Effects) : Event → Prop
  | .new owner_id _ =>
    (∀ handle, users owner_id = some (some handle) → handle = "") ∧
      (shared → HoldsClaim block .new_digital_content owner_id record)
  | .update owner_id cid =>
    (shared → HoldsClaim block .update_digital_content owner_id record) ∧
      ∀ handle metadata, users owner_id = some (some handle) → handle ≠ "" →
        block.ipfs_metadata.get? cid = some metadata →
        (∀ title, titleOf metadata = .ok title →
            KeepsRoute functions record.digital_content_id record.title title effects.routes) ∧
          KeepsRemixes record.digital_content_id metadata effects.remixes ∧
          (shared → HoldsMetadata functions block cid metadata handle.toList record)
  | .delete =>
    shared → record.is_delete = true ∧ record.stem_of = .null ∧ record.remix_of = .null ∧
      record.updated_at = some block.timestamp

/-! ### Routes and remixes -/

section Sides

variable {functions : TextFunctions} {record : ContentRoutes.Record} {title : PyString}
variable {routes routes' : Routes} {digital_content_id : ℕ} {metadata : Dict String Json}
variable {remixes remixes' : Finset (ℤ × ℕ)}

/-- A title that needs no new route leaves the routes. -/
theorem KeepsRoute.update_eq (hsound : ContentRoutes.Sound routes)
    (h : KeepsRoute functions record.digital_content_id record.title title routes) :
    update_digital_content_routes_table functions record title routes = .ok routes := by
  obtain ⟨prev, hprev, hfind⟩ := hsound.exists_currentOf record.digital_content_id
  unfold update_digital_content_routes_table
  by_cases hsame : record.title.map ofText = some title
  · exact if_pos hsame
  · rw [if_neg hsame]
    rw [hfind]
    rcases h with htitle | ⟨route, hroute, hslug⟩
    · exact absurd htitle hsame
    · rw [hprev, Option.mem_toList] at hroute
      cases hroute
      exact if_pos (decide_eq_true hslug)

/-- Where the visible routes stay, the title needed no new route. -/
theorem keepsRoute_of_update_eq (hsound : ContentRoutes.Sound routes)
    (h : update_digital_content_routes_table functions record title routes = .ok routes')
    (hvisible : routes'.visible = routes.visible) :
    KeepsRoute functions record.digital_content_id record.title title routes := by
  obtain ⟨prev, hprev, hfind⟩ := hsound.exists_currentOf record.digital_content_id
  unfold update_digital_content_routes_table at h
  split at h
  · next hsame => exact .inl hsame
  · dsimp only at h
    rw [hfind] at h
    dsimp only at h
    split at h
    · next hkept =>
      obtain ⟨route, rfl, hslug⟩ := Option.any_eq_true _ _ |>.mp hkept
      refine .inr ⟨route, ?_, of_decide_eq_true hslug⟩
      rw [hprev]
      exact List.mem_singleton_self route
    · split at h
      · cases h
      · -- a new route makes the visible routes one more
        cases h
        have hlength := congrArg List.length hvisible
        rw [ContentRoutes.visible_add, ContentRoutes.visible_retire, List.length_append,
          List.length_map, List.length_singleton] at hlength
        omega

theorem mem_remixesOf {parents : List ℤ} {remix : ℤ × ℕ} :
    remix ∈ remixesOf digital_content_id parents ↔
      remix.2 = digital_content_id ∧ remix.1 ∈ parents := by
  unfold remixesOf
  rw [List.mem_toFinset, List.mem_map]
  constructor
  · rintro ⟨parent, hparent, rfl⟩
    exact ⟨rfl, hparent⟩
  · rintro ⟨rfl, hparent⟩
    exact ⟨remix.1, hparent, rfl⟩

/-- The remixes stay just when the content has those of the metadata already. -/
theorem update_remixes_eq_iff
    (h : update_remixes_table digital_content_id metadata remixes = .ok remixes') :
    remixes' = remixes ↔ KeepsRemixes digital_content_id metadata remixes := by
  unfold update_remixes_table at h
  split at h
  · cases h
    constructor
    · intro heq parent
      rw [← heq, Finset.mem_union, Finset.mem_filter, mem_remixesOf]
      simp
    · intro hkeeps
      ext ⟨parent, child⟩
      rw [Finset.mem_union, Finset.mem_filter, mem_remixesOf]
      by_cases hchild : child = digital_content_id
      · subst hchild
        simp [hkeeps parent]
      · simp [hchild]
  · cases h

end Sides

/-! ### The record -/

section Record

variable {functions : TextFunctions} {block : Block} {event : EventType} {owner_id : ℕ}
variable {cid : String} {metadata : Dict String Json} {handle : Text}
variable {record populated : DigitalContent}

theorem claimed_eq_iff :
    claimed block event owner_id record = record ↔ HoldsClaim block event owner_id record := by
  constructor
  · intro h
    refine ⟨fun hnew ↦ ?_, (congrArg DigitalContent.owner_id h).symm,
      (congrArg DigitalContent.is_delete h).symm⟩
    have hcreated := congrArg DigitalContent.created_at h
    unfold claimed at hcreated
    rw [if_pos hnew] at hcreated
    exact hcreated.symm
  · rintro ⟨hcreated, howner, hdelete⟩
    have hsame : (if event = .new_digital_content then some block.timestamp
        else record.created_at) = record.created_at := by
      split
      · next hnew => exact (hcreated hnew).symm
      · rfl
    unfold claimed
    rw [hsame, ← howner, ← hdelete]

/-- The fields that are copied from the metadata. -/
theorem populate_eq_ok
    (h : populate_digital_content_record_metadata functions record metadata handle =
      .ok populated) :
    ∃ title length cover_art columns digital_content_segments download,
      titleOf metadata = .ok title ∧ item metadata "length" = .ok length ∧
      coverArtOf metadata = .ok cover_art ∧ columnsOf metadata = .ok columns ∧
      item metadata "digital_content_segments" = .ok digital_content_segments ∧
      downloadOf metadata = .ok download ∧
      populated = { record with
        title := some (stored title)
        length := if length.truthy then length else .int 0
        cover_art := cover_art
        columns := columns
        digital_content_segments := digital_content_segments
        stem_of := jsonField metadata "stem_of"
        remix_of := jsonField metadata "remix_of"
        download := some download
        route_id := some (create_digital_content_route_id functions title handle) } := by
  unfold populate_digital_content_record_metadata at h
  split at h
  · next title length cover_art columns segments download htitle hlength hcover hcolumns hsegments
      hdownload =>
    exact ⟨title, length, cover_art, columns, segments, download, htitle, hlength, hcover, hcolumns,
      hsegments, hdownload, (Except.ok.inj h).symm⟩
  all_goals cases h

/-- Moving the cover changes no other field. -/
theorem moveCoverArt_eq (record : DigitalContent) :
    moveCoverArt record = { record with
      cover_art := if record.cover_art.truthy then .null else record.cover_art
      cover_art_sizes :=
        if record.cover_art.truthy then record.cover_art else record.cover_art_sizes } := by
  unfold moveCoverArt
  split <;> rfl

/-- The record that an update leaves. -/
def named (block : Block) (cid : String) (populated : DigitalContent) : DigitalContent :=
  finished block (moveCoverArt { populated with metadata_multihash := some cid })

variable (block cid) in
/-- What was claimed stays. -/
theorem named_claims
    (h : populate_digital_content_record_metadata functions record metadata handle =
      .ok populated) :
    (named block cid populated).owner_id = record.owner_id ∧
      (named block cid populated).is_delete = record.is_delete ∧
      (named block cid populated).created_at = record.created_at := by
  obtain ⟨_, _, _, _, _, _, -, -, -, -, -, -, rfl⟩ := populate_eq_ok h
  unfold named
  rw [moveCoverArt_eq]
  exact ⟨rfl, rfl, rfl⟩

/-- A record has what the metadata says once it is set. -/
theorem holdsMetadata_named
    (h : populate_digital_content_record_metadata functions record metadata handle =
      .ok populated) :
    HoldsMetadata functions block cid metadata handle (named block cid populated) := by
  obtain ⟨title, length, cover_art, columns, segments, download, htitle, hlength, hcover, hcolumns,
    hsegments, hdownload, rfl⟩ := populate_eq_ok h
  unfold named finished
  rw [moveCoverArt_eq]
  refine ⟨⟨title, htitle, rfl, rfl⟩, ⟨length, hlength, rfl⟩, ⟨cover_art, hcover, ?_⟩, hcolumns,
    hsegments, rfl, rfl, ⟨download, hdownload, rfl⟩, rfl, rfl⟩
  by_cases htruthy : cover_art.truthy = true
  · rw [if_pos htruthy, if_pos htruthy, if_pos htruthy]
    exact ⟨rfl, rfl⟩
  · rw [if_neg htruthy, if_neg htruthy]

/-- A record that has what the metadata says stays as it is. -/
theorem named_of_holdsMetadata
    (h : populate_digital_content_record_metadata functions record metadata handle =
      .ok populated) (hholds : HoldsMetadata functions block cid metadata handle record) :
    named block cid populated = record := by
  obtain ⟨title, length, cover_art, columns, segments, download, htitle, hlength, hcover, hcolumns,
    hsegments, hdownload, rfl⟩ := populate_eq_ok h
  obtain ⟨title', htitle', ht, hr⟩ := hholds.title
  obtain ⟨length', hlength', hl⟩ := hholds.length
  obtain ⟨cover_art', hcover', hcoverField⟩ := hholds.cover
  obtain ⟨download', hdownload', hd⟩ := hholds.download
  have hc := hholds.columns
  have hs := hholds.segments
  have hst := hholds.stem_of
  have hre := hholds.remix_of
  have hm := hholds.metadata_multihash
  have hu := hholds.updated_at
  rw [htitle] at htitle'
  rw [hlength] at hlength'
  rw [hcover] at hcover'
  rw [hdownload] at hdownload'
  rw [hcolumns] at hc
  rw [hsegments] at hs
  cases htitle'
  cases hlength'
  cases hcover'
  cases hdownload'
  cases hc
  cases hs
  cases record
  subst ht hr hl hd hst hre hm hu
  unfold named
  rw [moveCoverArt_eq]
  split at hcoverField
  · next htruthy =>
    obtain ⟨rfl, rfl⟩ := hcoverField
    rw [if_pos htruthy, if_pos htruthy]
    rfl
  · next htruthy =>
    subst hcoverField
    rw [if_neg htruthy, if_neg htruthy]
    rfl

/-- The record stays just when it has what the metadata says. -/
theorem named_eq_iff
    (h : populate_digital_content_record_metadata functions record metadata handle =
      .ok populated) :
    named block cid populated = record ↔
      HoldsMetadata functions block cid metadata handle record := by
  constructor
  · intro heq
    rw [← heq]
    exact holdsMetadata_named h
  · exact named_of_holdsMetadata h

end Record

/-! ### One event -/

section Parse

variable {functions : TextFunctions} {users : ℕ → Option (Option String)} {block : Block}
variable {record : DigitalContent} {effects : Effects} {parsed : Parsed} {shared : Prop}

/-- An event that is traceless before it changes nothing. -/
theorem Traceless.parse_eq {event : Event} (hsound : ContentRoutes.Sound effects.routes)
    (h : Traceless functions users block shared record effects event)
    (hparse : parse_digital_content_event functions users block event record effects =
      .ok parsed) :
    parsed.effects = effects ∧ (shared → parsed.record = record) := by
  cases event with
  | new owner_id cid =>
    obtain ⟨hhandle, hclaim⟩ := h
    obtain ⟨metadata, handle?, -, howner, ⟨-, rfl⟩ | ⟨handle, rfl, hne, -⟩⟩ :=
      parseClaim_eq_ok hparse
    · exact ⟨rfl, fun hshared ↦ claimed_eq_iff.mpr (hclaim hshared)⟩
    · exact absurd (hhandle handle howner) hne
  | update owner_id cid =>
    obtain ⟨hclaim, hupdate⟩ := h
    obtain ⟨metadata, handle?, hmetadata, howner, ⟨-, rfl⟩ | ⟨handle, rfl, hne, hnamed⟩⟩ :=
      parseClaim_eq_ok hparse
    · exact ⟨rfl, fun hshared ↦ claimed_eq_iff.mpr (hclaim hshared)⟩
    · obtain ⟨hroute, hremixes, hholds⟩ := hupdate handle metadata howner hne hmetadata
      obtain ⟨title, routes, populated, remixes, final, htitle, hroutes, hpopulated, hremix, rfl,
        rfl⟩ := parseNamed_eq_ok hnamed
      have hid := digital_content_id_of_populate hpopulated
      have hroutes' : routes = effects.routes := by
        have hkept : update_digital_content_routes_table functions
            (routeRecord owner_id (claimed block .update_digital_content owner_id record)) title
            effects.routes = .ok effects.routes := (hroute title htitle).update_eq hsound
        rw [hkept] at hroutes
        exact (Except.ok.inj hroutes).symm
      have hremixes' : remixes = effects.remixes := by
        rw [hid] at hremix
        exact (update_remixes_eq_iff hremix).mpr hremixes
      refine ⟨by rw [hroutes', hremixes']; rfl, fun hshared ↦ ?_⟩
      rw [claimed_eq_iff.mpr (hclaim hshared)] at hpopulated
      exact (named_eq_iff hpopulated).mpr (hholds hshared)
  | delete =>
    cases hparse
    refine ⟨rfl, fun hshared ↦ ?_⟩
    obtain ⟨hdelete, hstem, hremix, hupdated⟩ := h hshared
    unfold parseDelete finished
    rw [← hdelete, ← hupdated]
    cases record
    dsimp only at hstem hremix
    rw [hstem, hremix]

/-- An event that leaves the visible routes, the remixes, what is dispatched and the shared record
was traceless. -/
theorem traceless_of_parse {event : Event} (hsound : ContentRoutes.Sound effects.routes)
    (hparse : parse_digital_content_event functions users block event record effects =
      .ok parsed)
    (hvisible : parsed.effects.routes.visible = effects.routes.visible)
    (hremixes : parsed.effects.remixes = effects.remixes)
    (hdispatched : parsed.effects.dispatched = effects.dispatched)
    (hrecord : shared → parsed.record = record) :
    Traceless functions users block shared record effects event := by
  cases event with
  | new owner_id cid =>
    obtain ⟨metadata, handle?, -, howner, ⟨hempty, rfl⟩ | ⟨handle, rfl, hne, hnamed⟩⟩ :=
      parseClaim_eq_ok hparse
    · refine ⟨fun handle hhandle ↦ ?_, fun hshared ↦ claimed_eq_iff.mp (hrecord hshared)⟩
      rw [howner] at hhandle
      exact hempty handle (Option.some.inj hhandle)
    · -- a new content with a named owner is dispatched
      obtain ⟨title, routes, populated, remixes, final, -, -, -, -, -, rfl⟩ :=
        parseNamed_eq_ok hnamed
      have hlength : (effects.dispatched ++ [(block.number, owner_id)]).length =
          effects.dispatched.length := congrArg List.length hdispatched
      rw [List.length_append, List.length_singleton] at hlength
      omega
  | update owner_id cid =>
    obtain ⟨metadata, handle?, hmetadata, howner, ⟨hempty, rfl⟩ | ⟨handle, rfl, hne, hnamed⟩⟩ :=
      parseClaim_eq_ok hparse
    · refine ⟨fun hshared ↦ claimed_eq_iff.mp (hrecord hshared), ?_⟩
      intro handle metadata' hhandle hne
      rw [howner] at hhandle
      exact absurd (hempty handle (Option.some.inj hhandle)) hne
    · obtain ⟨title, routes, populated, remixes, final, htitle, hroutes, hpopulated, hremix, rfl,
        rfl⟩ := parseNamed_eq_ok hnamed
      have hid := digital_content_id_of_populate hpopulated
      have hclaim : shared → HoldsClaim block .update_digital_content owner_id record := by
        intro hshared
        obtain ⟨howner', hdelete, -⟩ := named_claims block cid hpopulated
        have heq : named block cid populated = record := hrecord hshared
        rw [heq] at howner' hdelete
        exact ⟨fun hnew ↦ (nomatch hnew), howner', hdelete⟩
      refine ⟨hclaim, ?_⟩
      intro handle' metadata' hhandle _ hmetadata'
      rw [howner] at hhandle
      rw [hmetadata] at hmetadata'
      cases hhandle
      cases hmetadata'
      refine ⟨fun title' htitle' ↦ ?_, ?_, fun hshared ↦ ?_⟩
      · rw [htitle] at htitle'
        cases htitle'
        exact keepsRoute_of_update_eq hsound hroutes hvisible
      · rw [hid] at hremix
        exact (update_remixes_eq_iff hremix).mp hremixes
      · rw [claimed_eq_iff.mpr (hclaim hshared)] at hpopulated
        exact (named_eq_iff hpopulated).mp (hrecord hshared)
  | delete =>
    cases hparse
    intro hshared
    have heq := hrecord hshared
    refine ⟨?_, ?_, ?_, ?_⟩
    · exact (congrArg DigitalContent.is_delete heq).symm
    · exact (congrArg DigitalContent.stem_of heq).symm
    · exact (congrArg DigitalContent.remix_of heq).symm
    · exact (congrArg DigitalContent.updated_at heq).symm

end Parse

end DigitalContents

end ColivingSpec.Discovery
