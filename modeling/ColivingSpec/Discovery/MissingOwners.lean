import ColivingSpec.Discovery.ContentListIndexing
import ColivingSpec.Discovery.DigitalContentSteps

/-!
# Entities that are missing

Creations that were skipped leave contents, content lists and users without rows. A later event of
such a content or list is applied to a new record, and skipped if that lacks a required field. The
owner of a content is looked up without regard to whether there is one, so that an event of an owner
without a current row stops the block.
-/

namespace ColivingSpec.Discovery

open List

open Lib (Dict Json Succeeds bind_eq_ok pure_eq_ok)

/-! ### Content lists -/

section ContentLists

/-- A content list with rows has a current one. -/
def ListsCurrent (rows : List ContentListRow) : Prop :=
  HasCurrent ContentListRow.contentListId ContentListRow.isCurrent rows

/-- The text that an event carries can be decoded. -/
def Decodable (event : ContentListEvent) : Prop :=
  ∀ contentListUpc, event = .upcUpdated contentListUpc → Succeeds (bytes32ToStr contentListUpc)

variable {multihashDigestToCid : List UInt8 → String} {rows : List ContentListRow}
variable {block : ContentListBlock}

variable (multihashDigestToCid) in
/-- An event is applied to any record, whether or not its fields are set. -/
theorem exists_parseContentListEvent {event : ContentListEvent} (h : Decodable event)
    (blockTime : ℕ) (record : ContentListRecord) :
    Succeeds (parseContentListEvent multihashDigestToCid blockTime record event) := by
  have happly : Succeeds (applyContentListEvent multihashDigestToCid blockTime record event) := by
    cases event with
    | upcUpdated upc =>
      obtain ⟨text, htext⟩ := h upc rfl
      refine ⟨_, bind_eq_ok.mpr ⟨text, htext, rfl⟩⟩
    | digitalContentAdded | coverPhotoUpdated =>
      unfold applyContentListEvent
      dsimp only
      split <;> exact ⟨_, rfl⟩
    | created | deleted | digitalContentDeleted | digitalContentsOrdered | nameUpdated
    | privacyUpdated | descriptionUpdated => exact ⟨_, rfl⟩
  obtain ⟨applied, happlied⟩ := happly
  exact ⟨_, bind_eq_ok.mpr ⟨applied, happlied, rfl⟩⟩

/-- The look-up of a content list gives a record. -/
theorem exists_lookupContentListRecord (h : ListsCurrent rows) (txhash : TxHash)
    (contentListId : ℕ) :
    Succeeds (lookupContentListRecord rows block txhash contentListId) := by
  unfold lookupContentListRecord
  split
  · next hany =>
    obtain ⟨row, hrow, hid⟩ := any_eq_true.mp hany
    obtain ⟨current, hcurrent, hsame, htrue⟩ := h row hrow
    have hsome : (rows.find? fun row ↦
        decide (row.contentListId = contentListId ∧ row.isCurrent)).isSome = true := by
      apply find?_isSome.mpr
      exact ⟨current, hcurrent, decide_eq_true ⟨hsame.trans (of_decide_eq_true hid), htrue⟩⟩
    obtain ⟨found, hfound⟩ := Option.isSome_iff_exists.mp hsome
    rw [hfound]
    exact ⟨_, rfl⟩
  · exact ⟨_, rfl⟩

variable (multihashDigestToCid block) in
/-- An event of a content list is handled, whatever rows there are. -/
theorem exists_processContentListEntry (h : ListsCurrent rows) (s : ContentListChanges)
    {entry : TxHash × ContentListLog} (hentry : Decodable entry.2.event) :
    Succeeds (processContentListEntry multihashDigestToCid rows block s entry) := by
  have hexisting : Succeeds (existingContentListRecord rows block
      ((s.lookup.get? entry.2.contentListId).map ContentListValue.contentList) entry.1
      entry.2.contentListId) := by
    cases s.lookup.get? entry.2.contentListId with
    | some value => exact ⟨value.contentList, rfl⟩
    | none => exact exists_lookupContentListRecord h entry.1 entry.2.contentListId
  obtain ⟨existing, hexisting⟩ := hexisting
  obtain ⟨record, hrecord⟩ := exists_parseContentListEvent multihashDigestToCid hentry
    block.timestamp existing
  unfold processContentListEntry
  dsimp only
  rw [hexisting, Lib.ok_bind, hrecord, Lib.ok_bind]
  split
  · exact ⟨_, rfl⟩
  · exact ⟨_, rfl⟩

/-- The loop over the transactions ends. -/
theorem exists_processContentListTxs (h : ListsCurrent rows)
    (hblock : ∀ entry ∈ contentListEntries block, Decodable entry.2.event) :
    Succeeds (processContentListTxs multihashDigestToCid rows block) := by
  have hfold : ∀ (entries : List (TxHash × ContentListLog)) (s : ContentListChanges),
      (∀ entry ∈ entries, Decodable entry.2.event) →
        Succeeds (entries.foldlM (processContentListEntry multihashDigestToCid rows block) s) := by
    intro entries
    induction entries with
    | nil => exact fun s _ ↦ ⟨s, rfl⟩
    | cons entry entries ih =>
      intro s hentries
      obtain ⟨next, hnext⟩ := exists_processContentListEntry multihashDigestToCid block h s
        (hentries entry mem_cons_self)
      rw [foldlM_cons, hnext, Lib.ok_bind]
      exact ih next fun other hother ↦ hentries other (mem_cons_of_mem entry hother)
  exact hfold _ _ hblock

end ContentLists

namespace DigitalContents

open ContentRoutes (TextFunctions Routes)

/-! ### A block -/

/-- What every block keeps of the tables: a content with rows has a current one, and the routes are
sound. -/
structure Tables.Kept (tables : Tables) : Prop where
  contents : ContentsCurrent tables.contents
  routes : ContentRoutes.Sound ⟨tables.routes, []⟩

/-- The end of a block changes no visible route. -/
theorem sound_visible {routes : Routes} (h : ContentRoutes.Sound routes) :
    ContentRoutes.Sound ⟨routes.visible, []⟩ := by
  have hvisible : Routes.visible ⟨routes.visible, []⟩ = routes.visible := append_nil _
  constructor
  · unfold Routes.keys
    rw [hvisible]
    exact h.unique
  · unfold ContentRoutes.Numbered
    rw [hvisible]
    exact h.numbered
  · intro digital_content_id
    unfold Routes.currentOf
    rw [hvisible]
    exact h.current digital_content_id

/-- The records of the dictionary are added, each in the place of the current row of its content. -/
theorem exists_addContents (items : List (ℕ × Value))
    (hkeyed : ∀ item ∈ items, item.2.digital_content.digital_content_id = item.1) :
    ∀ {contents : List Row}, ContentsCurrent contents →
      ∃ contents', addContents items contents = .ok contents' ∧ ContentsCurrent contents' := by
  induction items with
  | nil => exact fun h ↦ ⟨_, rfl, h⟩
  | cons item items ih =>
    intro contents h
    have hothers := fun other hother ↦ hkeyed other (mem_cons_of_mem item hother)
    obtain ⟨digital_content_id, value⟩ := item
    have hid : value.digital_content.digital_content_id = digital_content_id :=
      hkeyed _ mem_cons_self
    unfold addContents
    split
    · exact ih hothers h
    · unfold invalidate_old_digital_content
      rw [if_neg]
      · apply ih hothers
        apply h.replace _ rfl _
        · intro row
          split <;> rfl
        · intro row hne
          apply if_neg
          rw [Bool.and_eq_true, decide_eq_true_eq]
          rintro ⟨hsame, -⟩
          exact hne (hsame.trans hid.symm)
      · rw [Bool.and_eq_true, Bool.not_eq_true']
        rintro ⟨hany, hnone⟩
        obtain ⟨row, hrow, hsame⟩ := any_eq_true.mp hany
        obtain ⟨current, hcurrent, hcurrentId, htrue⟩ := h row hrow
        have hnot := any_eq_false.mp hnone current hcurrent
        rw [htrue, Bool.and_true, decide_eq_true_eq] at hnot
        exact hnot (hcurrentId.trans (of_decide_eq_true hsame))

section Block

variable {functions : TextFunctions} {users : ℕ → Option (Option String)} {block : Block}
variable {tables : Tables}

theorem keyed_startOf (tables : Tables) : Keyed (startOf tables) := by
  intro digital_content_id value hvalue
  cases hvalue

/-- What is left of the handler once its events were handled. -/
theorem exists_update_of_process_entries (h : tables.Kept) {changes : Changes}
    (hprocess : process_entries functions users block tables.contents (entriesOf block)
      (startOf tables) = .ok changes) :
    ∃ update, digital_content_state_update functions users block tables = .ok update ∧
      update.tables.Kept := by
  obtain ⟨hkeyed, hsound⟩ := kept_of_process_entries h.contents (entriesOf block)
    (keyed_startOf tables) h.routes hprocess
  obtain ⟨contents, hadd, hcurrent⟩ := exists_addContents changes.digital_content_events.items
    (fun item hitem ↦ hkeyed item.1 item.2
      ((changes.digital_content_events.mem_items item.1 item.2).mp hitem)) h.contents
  unfold digital_content_state_update
  rw [hprocess]
  dsimp only
  rw [hadd]
  exact ⟨_, rfl, hcurrent, sound_visible hsound⟩

/-- A block that is handled leaves the tables kept. -/
theorem Tables.Kept.update (h : tables.Kept) {update : Update}
    (hupdate : digital_content_state_update functions users block tables = .ok update) :
    update.tables.Kept := by
  have hprocess : Succeeds (process_entries functions users block tables.contents
      (entriesOf block) (startOf tables)) := by
    unfold digital_content_state_update at hupdate
    split at hupdate
    · cases hupdate
    · next changes hchanges => exact ⟨changes, hchanges⟩
  obtain ⟨changes, hchanges⟩ := hprocess
  obtain ⟨update', hupdate', hkept⟩ := exists_update_of_process_entries h hchanges
  rw [hupdate] at hupdate'
  cases hupdate'
  exact hkept

variable (functions) in
/-- A well-formed block is handled just when the owners it names have current rows. -/
theorem state_update_succeeds_iff (h : tables.Kept)
    (hwf : ∀ entry ∈ entriesOf block, WellFormedEvent block entry.event) :
    Succeeds (digital_content_state_update functions users block tables) ↔
      ∀ entry ∈ entriesOf block, OwnerKnown users entry.event := by
  rw [← process_entries_succeeds_iff functions h.contents (entriesOf block) hwf
    (keyed_startOf tables) h.routes]
  constructor
  · rintro ⟨update, hupdate⟩
    unfold digital_content_state_update at hupdate
    split at hupdate
    · cases hupdate
    · next changes hchanges => exact ⟨changes, hchanges⟩
  · rintro ⟨changes, hchanges⟩
    obtain ⟨update, hupdate, -⟩ := exists_update_of_process_entries h hchanges
    exact ⟨update, hupdate⟩

end Block

/-! ### Runs -/

/-- What is indexed of digital contents and content lists. -/
structure Indexed where
  tables : Tables
  contentLists : List ContentListRow

/-- A block as it is indexed: the handle of each user who has a current row, once the user events
were handled, and the events of digital contents and of content lists. -/
structure Step where
  users : ℕ → Option (Option String)
  digitalContents : Block
  contentLists : ContentListBlock

/-- The events of a block are well formed. -/
structure Step.WellFormed (step : Step) : Prop where
  digitalContents : ∀ entry ∈ entriesOf step.digitalContents,
    WellFormedEvent step.digitalContents entry.event
  contentLists : ∀ entry ∈ contentListEntries step.contentLists, Decodable entry.2.event

section Run

variable (functions : TextFunctions) (multihashDigestToCid : List UInt8 → String)

/-- A block is indexed as a whole, or not at all: `index.py:486–500`. -/
def index (state : Indexed) (step : Step) : Indexed :=
  match digital_content_state_update functions step.users step.digitalContents state.tables,
    contentListStateUpdate multihashDigestToCid state.contentLists step.contentLists with
  | .ok update, .ok lists => ⟨update.tables, lists.rows⟩
  | _, _ => state

/-- What is indexed after some blocks, from no digital contents and some content lists. -/
def reached (contentLists : List ContentListRow) (history : List Step) : Indexed :=
  history.foldl (index functions multihashDigestToCid) ⟨⟨[], [], ∅, ∅⟩, contentLists⟩

/-- The handler of digital contents and the loop over the events of content lists end, each event
being processed or skipped. -/
def EndsNormally (state : Indexed) (step : Step) : Prop :=
  Succeeds (digital_content_state_update functions step.users step.digitalContents state.tables) ∧
    Succeeds (processContentListTxs multihashDigestToCid state.contentLists step.contentLists)

/-- What every block keeps. -/
structure Indexed.Kept (state : Indexed) : Prop where
  tables : state.tables.Kept
  contentLists : ListsCurrent state.contentLists

variable {functions multihashDigestToCid}

theorem Indexed.Kept.index {state : Indexed} (h : state.Kept) (step : Step) :
    (index functions multihashDigestToCid state step).Kept := by
  unfold DigitalContents.index
  split
  · next update lists hupdate hlists =>
    obtain ⟨-, -, -, hrows⟩ := contentListStateUpdate_eq_ok hlists
    refine ⟨h.tables.update hupdate, ?_⟩
    rw [hrows]
    exact h.contentLists
  · exact h

variable (functions multihashDigestToCid) in
theorem kept_reached {contentLists : List ContentListRow} (h : ListsCurrent contentLists)
    (history : List Step) : (reached functions multihashDigestToCid contentLists history).Kept := by
  have hrun : ∀ (history : List Step) (state : Indexed), state.Kept →
      (history.foldl (index functions multihashDigestToCid) state).Kept := by
    intro history
    induction history with
    | nil => exact fun state hkept ↦ hkept
    | cons step history ih => exact fun state hkept ↦ ih _ (hkept.index step)
  apply hrun history
  refine ⟨⟨hasCurrent_nil, ⟨nodup_nil, ?_, fun _ ↦ Nat.zero_le 1⟩⟩, h⟩
  intro route hroute
  cases hroute

variable (functions multihashDigestToCid) in
/-- After any blocks, whatever was skipped or failed in them, a well-formed block is handled to its
end just when the owners that its events of digital contents name have current rows. -/
theorem endsNormally_iff (contentLists : List ContentListRow) (hlists : ListsCurrent contentLists)
    (history : List Step) (step : Step) (hwf : step.WellFormed) :
    EndsNormally functions multihashDigestToCid
        (reached functions multihashDigestToCid contentLists history) step ↔
      ∀ entry ∈ entriesOf step.digitalContents, OwnerKnown step.users entry.event := by
  have hkept := kept_reached functions multihashDigestToCid hlists history
  rw [← state_update_succeeds_iff functions hkept.tables hwf.digitalContents]
  exact and_iff_left (exists_processContentListTxs hkept.contentLists hwf.contentLists)

end Run

/-! ### An owner without a row -/

/-- The metadata of a song with a title and its other keys empty. -/
def songMetadata : Dict String Json :=
  requiredKeys.foldl (fun metadata key ↦ metadata.set key .null)
    (Dict.empty.set "title" (.str "A song"))

theorem wellFormedMetadata_song : WellFormedMetadata songMetadata where
  title := ⟨"A song", rfl⟩
  keys := by decide +kernel
  download := by
    intro download hdownload
    have hnone : songMetadata.get? "download" = none := by rfl
    cases hdownload
  parents := nodup_nil

/-- A block in which user 7 makes a song, and no one a content list; the users are given. -/
def songStep (users : ℕ → Option (Option String)) : Step where
  users := users
  digitalContents := {
    number := 2
    hash := "0x02"
    timestamp := 1600000000
    txs := [⟨"0xb", [(1, .new 7 "Qm")]⟩]
    ipfs_metadata := Dict.empty.set "Qm" songMetadata }
  contentLists := ⟨2, "0x02", 1600000000, []⟩

theorem wellFormed_songStep (users : ℕ → Option (Option String)) :
    (songStep users).WellFormed where
  digitalContents := by
    intro entry hentry cid hcid
    rw [mem_singleton.mp (show entry ∈ [⟨"0xb", 1, .new 7 "Qm"⟩] from hentry)] at hcid
    cases hcid
    exact ⟨songMetadata, rfl, wellFormedMetadata_song⟩
  contentLists := by
    intro entry hentry
    cases hentry

/-- The song of a user who has a current row is indexed. -/
theorem endsNormally_songStep :
    EndsNormally ContentRoutes.asciiFunctions (fun _ ↦ "")
      (reached ContentRoutes.asciiFunctions (fun _ ↦ "") [] []) (songStep fun _ ↦ some (some "a")) :=
  (endsNormally_iff ContentRoutes.asciiFunctions (fun _ ↦ "") [] hasCurrent_nil []
    (songStep fun _ ↦ some (some "a")) (wellFormed_songStep _)).mpr fun _ _ _ _ ↦ rfl

/-- The song of a user without a current row stops the block. -/
theorem not_endsNormally_songStep :
    (songStep fun _ ↦ none).WellFormed ∧
      digital_content_state_update ContentRoutes.asciiFunctions (fun _ ↦ none)
          (songStep fun _ ↦ none).digitalContents
          (reached ContentRoutes.asciiFunctions (fun _ ↦ "") [] []).tables =
        .error "'NoneType' object is not subscriptable" ∧
      ¬ EndsNormally ContentRoutes.asciiFunctions (fun _ ↦ "")
        (reached ContentRoutes.asciiFunctions (fun _ ↦ "") [] []) (songStep fun _ ↦ none) := by
  refine ⟨wellFormed_songStep _, by rfl, ?_⟩
  rintro ⟨⟨update, hupdate⟩, -⟩
  cases hupdate

end DigitalContents

end ColivingSpec.Discovery
