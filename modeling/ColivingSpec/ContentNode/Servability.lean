import ColivingSpec.ContentNode.BlacklistManager

/-!
# Servability

A node serves a content identifier unless it is blacklisted, and a blacklisted one for a digital
content that has it as a segment and is not blacklisted itself. The segments of a digital content
are looked up in the database once and kept in Redis for a time, and so is a digital content the
database does not have. The module follows `isServable` of `blacklistManager.js` with the helper
that fills both caches, between requests to the blacklist and publications of digital contents.
-/

namespace ColivingSpec

open Option

namespace BlacklistManager

/-- `SEGMENTCID_TO_DIGITAL_CONTENT_ID_EXPIRATION_SECONDS`: `blacklistManager.js:14–15`. -/
def SEGMENTCID_TO_DIGITAL_CONTENT_ID_EXPIRATION_SECONDS : ℕ := 14 * 24 * 60 * 60

/-- `INVALID_DIGITAL_CONTENT_ID_EXPIRATION_SECONDS`: `blacklistManager.js:16–17`. -/
def INVALID_DIGITAL_CONTENT_ID_EXPIRATION_SECONDS : ℕ := 1 * 60 * 60

/-- The set under the key of one digital content: its members, when it was filled, and when it
expires. -/
structure CachedCIDs where
  cids : Finset CID
  filledAt : ℕ
  expiresAt : ℕ

/-- A node that serves: the time in milliseconds, the tables, the rows of `DigitalContents` with the
times they were created at, the blacklist, and the two caches in Redis. For a member of the set of
invalid ids the time it was added at is kept, which no code reads. -/
structure ServingState where
  now : ℕ
  colivingUsers : List ColivingUser
  files : List File
  CID_WHITELIST : Finset CID
  published : List (ℕ × DigitalContent)
  blacklist : State
  segmentCIDs : ℕ → Option CachedCIDs
  invalidDigitalContentIds : ℕ → Option ℕ

namespace ServingState

variable (s : ServingState) (cid : CID) (digitalContentId : Option ℤ)

/-- The tables as the blacklist reads them. -/
def database : Database :=
  ⟨s.colivingUsers, s.published.map Prod.snd, s.files, s.CID_WHITELIST⟩

/-- `getAllCIDsFromDigitalContentIdInRedis`: `blacklistManager.js:654–657`. An expired
key is gone. -/
def getAllCIDsFromDigitalContentIdInRedis (digitalContentId : ℕ) : Finset CID :=
  match s.segmentCIDs digitalContentId with
  | some cached => if s.now < cached.expiresAt then cached.cids else ∅
  | none => ∅

/-- `addToRedis` for the segments of a digital content: the key is set to expire. A segment without
a multihash is written as the empty text; without segments there is no key. -/
def addSegmentCIDsToRedis (digitalContentId : ℕ) (cids : List (Option CID)) (expirationSec : ℕ) :
    ServingState :=
  let members := addToRedis (s.getAllCIDsFromDigitalContentIdInRedis digitalContentId)
    (cids.map (·.getD ""))
  if members = ∅ then s
  else
    { s with
      segmentCIDs := Function.update s.segmentCIDs digitalContentId
        (some ⟨members, s.now, s.now + 1000 * expirationSec⟩) }

/-- `addToRedis` for the invalid digital contents: the branch of the sets does not read the
expiration, `blacklistManager.js:452–466`. -/
def addInvalidIdToRedis (digitalContentId : ℕ) (_expirationSec : ℕ) : ServingState :=
  { s with
    invalidDigitalContentIds := Function.update s.invalidDigitalContentIds digitalContentId
      (some ((s.invalidDigitalContentIds digitalContentId).getD s.now)) }

/-- The part of `isServable` for a blacklisted identifier and a digital content that is not:
`blacklistManager.js:518–568`. -/
def belongsToDigitalContent (digitalContentId : ℕ) : Bool × ServingState :=
  let cidsOfInputDigitalContentId := s.getAllCIDsFromDigitalContentIdInRedis digitalContentId
  if cidsOfInputDigitalContentId ≠ ∅ then (decide (cid ∈ cidsOfInputDigitalContentId), s)
  else if (s.invalidDigitalContentIds digitalContentId).isSome then (false, s)
  else
    match (s.database.getAllCIDsFromDigitalContentIdsInDb [digitalContentId]).head? with
    | none =>
      (false, s.addInvalidIdToRedis digitalContentId INVALID_DIGITAL_CONTENT_ID_EXPIRATION_SECONDS)
    | some digital_content =>
      match digital_content.metadataJSON.digital_content_segments with
      | none => (false, s)
      | some segments =>
        (decide (some cid ∈ segments), s.addSegmentCIDsToRedis digitalContentId segments
          SEGMENTCID_TO_DIGITAL_CONTENT_ID_EXPIRATION_SECONDS)

/-- `isServable`: `blacklistManager.js:495–576`. The digital content is an integer, or none of the
numbers that are one. -/
def isServable : Bool × ServingState :=
  match digitalContentId with
  | none => (decide (cid ∉ s.blacklist.redis.segmentCIDs), s)
  | some id =>
    if id ≠ 0 ∧ 0 ≤ id ∧ id.toNat ∈ s.blacklist.redis.digitalContentIds then (false, s)
    else if cid ∉ s.blacklist.redis.segmentCIDs then (true, s)
    else if id = 0 ∨ id < 0 then (false, s)
    else s.belongsToDigitalContent cid id.toNat

/-- What happens on a node. A publication adds a row to `DigitalContents` and leaves the files as
the route or a sync leaves them. -/
inductive Event where
  | request (operation : Operation)
  | publish (digital_content : DigitalContent) (files : List File)
  | isServable (cid : CID) (digitalContentId : Option ℤ)

/-- One event. -/
def apply : Event → ServingState
  | .request operation => { s with blacklist := step s.database s.blacklist operation }
  | .publish digital_content files =>
    { s with published := s.published ++ [(s.now, digital_content)], files := files }
  | .isServable cid digitalContentId => (s.isServable cid digitalContentId).2

/-- Time passes. -/
def later (milliseconds : ℕ) : ServingState :=
  { s with now := s.now + milliseconds }

/-- An event some time after the last; the clock is fine enough to tell the two apart. -/
def next (timed : ℕ × Event) : ServingState :=
  apply (s.later (timed.1 + 1)) timed.2

/-- The events in their order. -/
def serve (events : List (ℕ × Event)) : ServingState := events.foldl next s

/-- A node whose caches are empty, with rows that are there already. -/
def start (now : ℕ) (database : Database) (blacklist : State) : ServingState where
  now := now
  colivingUsers := database.colivingUsers
  files := database.files
  CID_WHITELIST := database.CID_WHITELIST
  published := database.digitalContents.map fun row ↦ (now, row)
  blacklist := blacklist
  segmentCIDs := fun _ ↦ none
  invalidDigitalContentIds := fun _ ↦ none

/-! ### The right answer -/

/-- A row's segments; a row that lists none has none. -/
def segmentsOfRow (row : ℕ × DigitalContent) : List (Option CID) :=
  row.2.metadataJSON.digital_content_segments.getD []

/-- A row of the digital content that was there at the time lists the identifier as a segment. -/
def heldAt (time digitalContentId : ℕ) (cid : CID) : Prop :=
  ∃ row ∈ s.published, row.1 ≤ time ∧ row.2.blockchainId = digitalContentId ∧
    some cid ∈ segmentsOfRow row

/-- A cache was filled for the digital content at the time, and the stated expiration is not
over. -/
def CachedSince (digitalContentId time : ℕ) : Prop :=
  (∃ cached, s.segmentCIDs digitalContentId = some cached ∧ cached.filledAt = time ∧
    s.now < time + 1000 * SEGMENTCID_TO_DIGITAL_CONTENT_ID_EXPIRATION_SECONDS) ∨
  (s.invalidDigitalContentIds digitalContentId = some time ∧
    s.now < time + 1000 * INVALID_DIGITAL_CONTENT_ID_EXPIRATION_SECONDS)

/-- The digital content is not blacklisted, and the identifier is not or is one of its segments. -/
def ServableBy (time : ℕ) (cid : CID) (digitalContentId : Option ℤ) : Prop :=
  (∀ id : ℕ, digitalContentId = some (id : ℤ) → id ∉ s.blacklist.redis.digitalContentIds) ∧
    (cid ∉ s.blacklist.redis.segmentCIDs ∨
      ∃ id : ℕ, digitalContentId = some (id : ℤ) ∧ s.heldAt time id cid)

/-- The answer is right by the segments at the time of the call, or at a time since which a cache
holds them. -/
def AnswersRightly : Prop :=
  ∃ time, (time = s.now ∨ ∃ id : ℕ, digitalContentId = some (id : ℤ) ∧ s.CachedSince id time) ∧
    ((s.isServable cid digitalContentId).1 = true ↔ s.ServableBy time cid digitalContentId)

/-- The row that a lookup takes of several of one digital content. -/
def firstRow (digitalContentId : ℕ) : Option (ℕ × DigitalContent) :=
  s.published.find? fun row ↦ decide (row.2.blockchainId = digitalContentId)

/-- When the segments that answer a call were looked up: now, or when the live cache was filled. -/
def lookedUpAt (digitalContentId : ℕ) : ℕ :=
  match s.segmentCIDs digitalContentId with
  | some cached => if s.now < cached.expiresAt then cached.filledAt else s.now
  | none => s.now

/-- The digital content was found invalid longer ago than the stated expiration, and has the
segment now. -/
def StaleInvalid (digitalContentId : ℕ) (cid : CID) : Prop :=
  (∃ time, s.invalidDigitalContentIds digitalContentId = some time ∧
    time + 1000 * INVALID_DIGITAL_CONTENT_ID_EXPIRATION_SECONDS ≤ s.now) ∧
  s.heldAt s.now digitalContentId cid

/-- A later row of the digital content lists the segment, and the first does not. -/
def LaterRowOnly (digitalContentId : ℕ) (cid : CID) : Prop :=
  s.invalidDigitalContentIds digitalContentId = none ∧
  (∀ row ∈ s.firstRow digitalContentId, some cid ∉ segmentsOfRow row) ∧
  s.heldAt (s.lookedUpAt digitalContentId) digitalContentId cid

/-- The calls that are answered wrongly. The id 0 is taken for no id: it is served though it is
blacklisted, and has no segments. -/
def Misjudges : Prop :=
  ∃ id : ℕ, digitalContentId = some (id : ℤ) ∧
    ((id = 0 ∧ id ∈ s.blacklist.redis.digitalContentIds ∧
        cid ∉ s.blacklist.redis.segmentCIDs) ∨
      (id ∉ s.blacklist.redis.digitalContentIds ∧ cid ∈ s.blacklist.redis.segmentCIDs ∧
        ((id = 0 ∧ s.heldAt s.now id cid) ∨
          (id ≠ 0 ∧ (s.StaleInvalid id cid ∨ s.LaterRowOnly id cid)))))

/-! ### What holds of the caches -/

/-- The caches hold what a lookup found, for digital contents that are not 0. -/
structure Consistent (s : ServingState) : Prop where
  created : ∀ row ∈ s.published, row.1 ≤ s.now
  cached : ∀ id cached, s.segmentCIDs id = some cached →
    id ≠ 0 ∧ cached.filledAt ≤ s.now ∧ cached.cids ≠ ∅ ∧
      cached.expiresAt =
        cached.filledAt + 1000 * SEGMENTCID_TO_DIGITAL_CONTENT_ID_EXPIRATION_SECONDS ∧
      ∃ row ∈ s.firstRow id, row.1 ≤ cached.filledAt ∧
        cached.cids = ((segmentsOfRow row).map (·.getD "")).toFinset
  invalid : ∀ id time, s.invalidDigitalContentIds id = some time →
    id ≠ 0 ∧ time ≤ s.now ∧ s.segmentCIDs id = none ∧
      ∀ row ∈ s.published, row.2.blockchainId = id → time < row.1

variable {s : ServingState} {id : ℕ} {cid : CID}

theorem heldAt_mono {time time' : ℕ} (hle : time ≤ time') (h : s.heldAt time id cid) :
    s.heldAt time' id cid := by
  obtain ⟨row, hrow, hcreated, hid, hcid⟩ := h
  exact ⟨row, hrow, hcreated.trans hle, hid, hcid⟩

theorem firstRow_spec {row : ℕ × DigitalContent} (h : s.firstRow id = some row) :
    row ∈ s.published ∧ row.2.blockchainId = id :=
  by
  have hid := List.find?_some h
  exact ⟨List.mem_of_find?_eq_some h, of_decide_eq_true hid⟩

/-- A lookup in the tables takes the first row. -/
theorem head?_getAllCIDs (s : ServingState) (id : ℕ) :
    (s.database.getAllCIDsFromDigitalContentIdsInDb [id]).head? = (s.firstRow id).map Prod.snd := by
  unfold database Database.getAllCIDsFromDigitalContentIdsInDb firstRow
  rw [List.head?_filter, List.find?_map]
  congr 2
  funext row
  simp

/-- The lookup by the first row of the digital content. -/
theorem belongsToDigitalContent_eq (s : ServingState) (cid : CID) (id : ℕ) :
    s.belongsToDigitalContent cid id =
      if s.getAllCIDsFromDigitalContentIdInRedis id ≠ ∅ then
        (decide (cid ∈ s.getAllCIDsFromDigitalContentIdInRedis id), s)
      else if (s.invalidDigitalContentIds id).isSome then (false, s)
      else
        match s.firstRow id with
        | none => (false, s.addInvalidIdToRedis id INVALID_DIGITAL_CONTENT_ID_EXPIRATION_SECONDS)
        | some row =>
          (decide (some cid ∈ segmentsOfRow row), s.addSegmentCIDsToRedis id (segmentsOfRow row)
            SEGMENTCID_TO_DIGITAL_CONTENT_ID_EXPIRATION_SECONDS) := by
  unfold belongsToDigitalContent
  dsimp only
  split
  · rfl
  · next hempty =>
    rw [not_not] at hempty
    split
    · rfl
    · rw [head?_getAllCIDs]
      cases s.firstRow id with
      | none => rfl
      | some row =>
        unfold segmentsOfRow
        dsimp only [map_some]
        cases hsegments : row.2.metadataJSON.digital_content_segments with
        | none =>
          have hnothing : s.addSegmentCIDsToRedis id []
              SEGMENTCID_TO_DIGITAL_CONTENT_ID_EXPIRATION_SECONDS = s := by
            unfold addSegmentCIDsToRedis
            rw [hempty, addToRedis_eq]
            exact if_pos rfl
          rw [getD_none, hnothing]
          rfl
        | some segments => rfl

/-- What a fill of an empty or expired key leaves under it. -/
theorem addSegmentCIDsToRedis_eq (hempty : s.getAllCIDsFromDigitalContentIdInRedis id = ∅)
    (segments : List (Option CID)) (expirationSec : ℕ) :
    s.addSegmentCIDsToRedis id segments expirationSec =
      if (segments.map (·.getD "")).toFinset = ∅ then s
      else
        { s with
          segmentCIDs := Function.update s.segmentCIDs id (some
            ⟨(segments.map (·.getD "")).toFinset, s.now, s.now + 1000 * expirationSec⟩) } := by
  unfold addSegmentCIDsToRedis
  rw [hempty, addToRedis_eq, Finset.empty_union]

/-! ### What events leave -/

theorem Consistent.later (h : s.Consistent) (milliseconds : ℕ) :
    (s.later milliseconds).Consistent where
  created row hrow := (h.created row hrow).trans (Nat.le_add_right _ _)
  cached id cached hcached := by
    obtain ⟨hne, hfilled, hrest⟩ := h.cached id cached hcached
    exact ⟨hne, hfilled.trans (Nat.le_add_right _ _), hrest⟩
  invalid id time hinvalid := by
    obtain ⟨hne, hmarked, hrest⟩ := h.invalid id time hinvalid
    exact ⟨hne, hmarked.trans (Nat.le_add_right _ _), hrest⟩

/-- A digital content that is found invalid has no row, and its segments were never cached. -/
theorem Consistent.addInvalidIdToRedis (h : s.Consistent) (hne : id ≠ 0)
    (hunmarked : s.invalidDigitalContentIds id = none) (hnone : s.firstRow id = none)
    (expirationSec : ℕ) :
    (s.addInvalidIdToRedis id expirationSec).Consistent where
  created := h.created
  cached := h.cached
  invalid id' time hinvalid := by
    unfold ServingState.addInvalidIdToRedis at hinvalid
    dsimp only at hinvalid
    by_cases heq : id' = id
    · subst heq
      rw [Function.update_self, hunmarked, getD_none, some.injEq] at hinvalid
      refine ⟨hne, hinvalid.ge, ?_, ?_⟩
      · show s.segmentCIDs id' = none
        cases hcached : s.segmentCIDs id' with
        | none => rfl
        | some cached =>
          obtain ⟨-, -, -, -, row, hrow, -⟩ := h.cached id' cached hcached
          rw [hnone] at hrow
          cases hrow
      · intro row hrow hid
        unfold firstRow at hnone
        rw [List.find?_eq_none] at hnone
        exact absurd (decide_eq_true hid) (hnone row hrow)
    · rw [Function.update_of_ne heq] at hinvalid
      exact h.invalid id' time hinvalid

/-- The segments that are cached are those of the first row. -/
theorem Consistent.addSegmentCIDsToRedis (h : s.Consistent) (hne : id ≠ 0)
    (hunmarked : s.invalidDigitalContentIds id = none)
    (hempty : s.getAllCIDsFromDigitalContentIdInRedis id = ∅) {row : ℕ × DigitalContent}
    (hrow : s.firstRow id = some row) :
    (s.addSegmentCIDsToRedis id (segmentsOfRow row)
      SEGMENTCID_TO_DIGITAL_CONTENT_ID_EXPIRATION_SECONDS).Consistent := by
  rw [addSegmentCIDsToRedis_eq hempty]
  split
  · exact h
  · next hmembers =>
    refine ⟨h.created, ?_, ?_⟩
    · intro id' cached hcached
      dsimp only at hcached
      by_cases heq : id' = id
      · subst heq
        rw [Function.update_self, some.injEq] at hcached
        subst hcached
        exact ⟨hne, Nat.le_refl _, hmembers, rfl, row, hrow,
          h.created row (firstRow_spec hrow).1, rfl⟩
      · rw [Function.update_of_ne heq] at hcached
        exact h.cached id' cached hcached
    · intro id' time hinvalid
      obtain ⟨hne', hmarked, hcached, hrows⟩ := h.invalid id' time hinvalid
      refine ⟨hne', hmarked, ?_, hrows⟩
      have hother : id' ≠ id := by
        rintro rfl
        rw [hunmarked] at hinvalid
        cases hinvalid
      dsimp only
      rw [Function.update_of_ne hother]
      exact hcached

/-- A call keeps the caches as they should be. -/
theorem Consistent.isServable (h : s.Consistent) (cid : CID) (digitalContentId : Option ℤ) :
    (s.isServable cid digitalContentId).2.Consistent := by
  unfold ServingState.isServable
  cases digitalContentId with
  | none => exact h
  | some id =>
    dsimp only
    split
    · exact h
    · split
      · exact h
      · split
        · exact h
        · next hpositive =>
          have hne : id.toNat ≠ 0 := by omega
          rw [belongsToDigitalContent_eq]
          split
          · exact h
          · next hempty =>
            rw [not_not] at hempty
            split
            · exact h
            · next hunmarked =>
              rw [not_isSome_iff_eq_none] at hunmarked
              cases hrow : s.firstRow id.toNat with
              | none =>
                exact h.addInvalidIdToRedis hne hunmarked hrow
                  INVALID_DIGITAL_CONTENT_ID_EXPIRATION_SECONDS
              | some row => exact h.addSegmentCIDsToRedis hne hunmarked hempty hrow

/-- A publication comes after every lookup. -/
theorem Consistent.publish (h : s.Consistent) (digital_content : DigitalContent) (files : List File)
    (hbefore : ∀ id time, s.invalidDigitalContentIds id = some time → time < s.now) :
    (s.apply (.publish digital_content files)).Consistent where
  created row hrow := by
    rcases List.mem_append.mp hrow with hold | hnew
    · exact h.created row hold
    · rw [List.mem_singleton.mp hnew]
      exact Nat.le_refl _
  cached id cached hcached := by
    obtain ⟨hne, hfilled, hmembers, hexpires, row, hrow, hrest⟩ := h.cached id cached hcached
    refine ⟨hne, hfilled, hmembers, hexpires, row, ?_, hrest⟩
    have hfirst : s.firstRow id = some row := hrow
    unfold firstRow at hfirst
    show (s.published ++ [(s.now, digital_content)]).find? _ = some row
    rw [List.find?_append, hfirst]
    rfl
  invalid id time hinvalid := by
    obtain ⟨hne, hmarked, hcached, hrows⟩ := h.invalid id time hinvalid
    refine ⟨hne, hmarked, hcached, ?_⟩
    intro row hrow hid
    rcases List.mem_append.mp hrow with hold | hnew
    · exact hrows row hold hid
    · rw [List.mem_singleton.mp hnew]
      exact hbefore id time hinvalid

theorem Consistent.next (h : s.Consistent) (timed : ℕ × Event) :
    (s.next timed).Consistent := by
  obtain ⟨milliseconds, event⟩ := timed
  have hlater := h.later (milliseconds + 1)
  cases event with
  | request operation => exact ⟨hlater.created, hlater.cached, hlater.invalid⟩
  | publish digital_content files =>
    apply hlater.publish
    intro id time hinvalid
    obtain ⟨-, hmarked, -⟩ := h.invalid id time hinvalid
    show time < s.now + (milliseconds + 1)
    omega
  | isServable cid digitalContentId => exact hlater.isServable cid digitalContentId

theorem Consistent.serve (h : s.Consistent) (events : List (ℕ × Event)) :
    (s.serve events).Consistent := by
  induction events generalizing s with
  | nil => exact h
  | cons timed events ih => exact ih (h.next timed)

theorem consistent_start (now : ℕ) (database : Database) (blacklist : State) :
    (start now database blacklist).Consistent where
  created row hrow := by
    obtain ⟨digital_content, -, rfl⟩ := List.mem_map.mp hrow
    exact Nat.le_refl _
  cached _ _ hcached := by cases hcached
  invalid _ _ hinvalid := by cases hinvalid

/-! ### When the answer is right -/

theorem mem_written_iff {segments : List (Option CID)} (hcid : cid ≠ "") :
    cid ∈ (segments.map (·.getD "")).toFinset ↔ some cid ∈ segments := by
  rw [List.mem_toFinset, List.mem_map]
  constructor
  · rintro ⟨segment, hsegment, rfl⟩
    cases segment with
    | none => exact absurd rfl hcid
    | some multihash => exact hsegment
  · exact fun h ↦ ⟨some cid, h, rfl⟩

/-- The live cache of a digital content, or nothing. -/
theorem Consistent.getAllCIDs_cases (h : s.Consistent) (id : ℕ) :
    (∃ cached, s.segmentCIDs id = some cached ∧ s.now < cached.expiresAt ∧
        s.getAllCIDsFromDigitalContentIdInRedis id = cached.cids ∧
        s.lookedUpAt id = cached.filledAt) ∨
      ((∀ time, s.CachedSince id time → s.invalidDigitalContentIds id = some time) ∧
        s.getAllCIDsFromDigitalContentIdInRedis id = ∅ ∧ s.lookedUpAt id = s.now) := by
  unfold getAllCIDsFromDigitalContentIdInRedis lookedUpAt
  cases hcached : s.segmentCIDs id with
  | none =>
    refine .inr ⟨?_, rfl, rfl⟩
    rintro time (⟨cached, hsome, -⟩ | ⟨hmark, -⟩)
    · rw [hcached] at hsome
      cases hsome
    · exact hmark
  | some cached =>
    obtain ⟨-, -, -, hexpires, -⟩ := h.cached id cached hcached
    by_cases hlive : s.now < cached.expiresAt
    · refine .inl ⟨cached, rfl, hlive, ?_, ?_⟩
      · exact if_pos hlive
      · exact if_pos hlive
    · refine .inr ⟨?_, if_neg hlive, if_neg hlive⟩
      rintro time (⟨other, hsome, rfl, hlive'⟩ | ⟨hmark, -⟩)
      · rw [hcached, some.injEq] at hsome
        subst hsome
        omega
      · exact hmark

/-- Where the digital content was not found invalid, the answer is that of its first row. -/
theorem Consistent.belongs_iff (h : s.Consistent) (hcid : cid ≠ "")
    (hunmarked : s.invalidDigitalContentIds id = none) :
    (s.belongsToDigitalContent cid id).1 = true ↔
      ∃ row ∈ s.firstRow id, some cid ∈ segmentsOfRow row := by
  rw [belongsToDigitalContent_eq]
  rcases h.getAllCIDs_cases id with ⟨cached, hcached, -, hmembers, -⟩ | ⟨-, hmembers, -⟩
  · obtain ⟨-, -, hne, -, row, hrow, -, hcids⟩ := h.cached id cached hcached
    rw [hmembers, if_pos hne, hcids, decide_eq_true_iff, mem_written_iff hcid]
    constructor
    · exact fun hmem ↦ ⟨row, hrow, hmem⟩
    · rintro ⟨other, hother, hmem⟩
      rw [mem_def] at hrow hother
      rw [hrow, some.injEq] at hother
      exact hother ▸ hmem
  · rw [hmembers, if_neg (fun hne ↦ hne rfl), hunmarked]
    cases hrow : s.firstRow id with
    | none => simp
    | some row => simp

/-- The lookup behind the answer came after the first row, and no allowed time is before it. -/
theorem Consistent.lookedUpAt_spec (h : s.Consistent)
    (hunmarked : s.invalidDigitalContentIds id = none) :
    (s.lookedUpAt id = s.now ∨ s.CachedSince id (s.lookedUpAt id)) ∧
      (∀ row ∈ s.firstRow id, row.1 ≤ s.lookedUpAt id) ∧
      ∀ time, time = s.now ∨ s.CachedSince id time → s.lookedUpAt id ≤ time := by
  rcases h.getAllCIDs_cases id with ⟨cached, hcached, hlive, -, hlooked⟩ | ⟨hsince, -, hlooked⟩
  · obtain ⟨-, hfilled, -, hexpires, row, hrow, hcreated, -⟩ := h.cached id cached hcached
    rw [hlooked]
    refine ⟨.inr (.inl ⟨cached, hcached, rfl, by omega⟩), ?_, ?_⟩
    · intro other hother
      rw [mem_def] at hrow hother
      rw [hrow, some.injEq] at hother
      exact hother ▸ hcreated
    · rintro time (rfl | ⟨other, hother, rfl, -⟩ | ⟨hmark, -⟩)
      · exact hfilled
      · rw [hcached, some.injEq] at hother
        exact hother ▸ Nat.le_refl _
      · rw [hunmarked] at hmark
        cases hmark
  · rw [hlooked]
    refine ⟨.inl rfl, fun row hrow ↦ h.created row (firstRow_spec hrow).1, ?_⟩
    rintro time (rfl | hcached)
    · exact Nat.le_refl _
    · have hmark := hsince time hcached
      rw [hunmarked] at hmark
      cases hmark

/-- Where the digital content was not found invalid, the answer is right unless only a later row
has the segment. -/
theorem Consistent.unmarked_right_iff (h : s.Consistent) (hcid : cid ≠ "")
    (hunmarked : s.invalidDigitalContentIds id = none) :
    (∃ time, (time = s.now ∨ s.CachedSince id time) ∧
        ((s.belongsToDigitalContent cid id).1 = true ↔ s.heldAt time id cid)) ↔
      ¬ s.LaterRowOnly id cid := by
  obtain ⟨hallowed, hcreated, hearliest⟩ := h.lookedUpAt_spec hunmarked
  rw [h.belongs_iff hcid hunmarked]
  by_cases hfirst : ∃ row ∈ s.firstRow id, some cid ∈ segmentsOfRow row
  · obtain ⟨row, hrow, hmem⟩ := hfirst
    have hheld : s.heldAt (s.lookedUpAt id) id cid :=
      ⟨row, (firstRow_spec hrow).1, hcreated row hrow, (firstRow_spec hrow).2, hmem⟩
    refine iff_of_true ⟨s.lookedUpAt id, hallowed, iff_of_true ⟨row, hrow, hmem⟩ hheld⟩ ?_
    exact fun hlater ↦ hlater.2.1 row hrow hmem
  · have hnone : ∀ row ∈ s.firstRow id, some cid ∉ segmentsOfRow row :=
      fun row hrow hmem ↦ hfirst ⟨row, hrow, hmem⟩
    constructor
    · rintro ⟨time, htime, hanswer⟩ ⟨-, -, hheld⟩
      exact hfirst (hanswer.mpr (heldAt_mono (hearliest time htime) hheld))
    · intro hlater
      refine ⟨s.lookedUpAt id, hallowed, iff_of_false hfirst ?_⟩
      exact fun hheld ↦ hlater ⟨hunmarked, hnone, hheld⟩

/-- Where the digital content was found invalid, the answer is no, and right unless that is past its
time. -/
theorem Consistent.marked_right_iff (h : s.Consistent) {time : ℕ}
    (hmarked : s.invalidDigitalContentIds id = some time) :
    (∃ time, (time = s.now ∨ s.CachedSince id time) ∧
        ((s.belongsToDigitalContent cid id).1 = true ↔ s.heldAt time id cid)) ↔
      ¬ s.StaleInvalid id cid := by
  obtain ⟨-, -, hcached, hrows⟩ := h.invalid id time hmarked
  have hanswer : (s.belongsToDigitalContent cid id).1 ≠ true := by
    have hmembers : s.getAllCIDsFromDigitalContentIdInRedis id = ∅ := by
      unfold getAllCIDsFromDigitalContentIdInRedis
      rw [hcached]
    rw [belongsToDigitalContent_eq, if_neg (fun hne ↦ hne hmembers), hmarked]
    exact Bool.false_ne_true
  have hbefore : ¬ s.heldAt time id cid := by
    rintro ⟨row, hrow, hcreated, hid, -⟩
    have hlater := hrows row hrow hid
    omega
  constructor
  · rintro ⟨time', htime, hright⟩ ⟨⟨marked, hmark, hstale⟩, hheld⟩
    rw [hmarked, some.injEq] at hmark
    rcases htime with rfl | ⟨cached, hsome, -⟩ | ⟨hmark, hfresh⟩
    · exact hanswer (hright.mpr hheld)
    · rw [hcached] at hsome
      cases hsome
    · rw [hmarked, some.injEq] at hmark
      omega
  · intro hstale
    by_cases hfresh : s.now < time + 1000 * INVALID_DIGITAL_CONTENT_ID_EXPIRATION_SECONDS
    · exact ⟨time, .inr (.inr ⟨hmarked, hfresh⟩), iff_of_false hanswer hbefore⟩
    · refine ⟨s.now, .inl rfl, iff_of_false hanswer ?_⟩
      exact fun hheld ↦ hstale ⟨⟨time, hmarked, Nat.le_of_not_lt hfresh⟩, hheld⟩

/-- No cache is kept for the id 0. -/
theorem Consistent.not_cachedSince_zero (h : s.Consistent) (time : ℕ) :
    ¬ s.CachedSince 0 time := by
  rintro (⟨cached, hcached, -⟩ | ⟨hmarked, -⟩)
  · exact (h.cached 0 cached hcached).1 rfl
  · exact (h.invalid 0 time hmarked).1 rfl

/-- The lookup is right unless the digital content is past its time as invalid, or only a later row
of it has the segment. -/
theorem Consistent.belongs_right_iff (h : s.Consistent) (hcid : cid ≠ "") (id : ℕ) :
    (∃ time, (time = s.now ∨ s.CachedSince id time) ∧
        ((s.belongsToDigitalContent cid id).1 = true ↔ s.heldAt time id cid)) ↔
      ¬ (s.StaleInvalid id cid ∨ s.LaterRowOnly id cid) := by
  cases hmark : s.invalidDigitalContentIds id with
  | none =>
    have hstale : ¬ s.StaleInvalid id cid := by
      rintro ⟨⟨time, hmarked, -⟩, -⟩
      rw [hmark] at hmarked
      cases hmarked
    rw [h.unmarked_right_iff hcid hmark, or_iff_right hstale]
  | some time =>
    have hlater : ¬ s.LaterRowOnly id cid := by
      rintro ⟨hunmarked, -⟩
      rw [hmark] at hunmarked
      cases hunmarked
    rw [h.marked_right_iff hmark, or_iff_left hlater]

/-- The answers that no lookup is behind: neither is a digital content of the tables. -/
theorem answersRightly_of_no_id (s : ServingState) (cid : CID) {digitalContentId : Option ℤ}
    (hno : ∀ id : ℕ, digitalContentId ≠ some (id : ℤ)) :
    AnswersRightly s cid digitalContentId ∧ ¬ Misjudges s cid digitalContentId := by
  have hanswer : (s.isServable cid digitalContentId).1 =
      decide (cid ∉ s.blacklist.redis.segmentCIDs) := by
    unfold isServable
    cases digitalContentId with
    | none => rfl
    | some id =>
      have hnegative : id < 0 := by
        by_contra hle
        exact hno id.toNat (by rw [Int.toNat_of_nonneg (by omega)])
      dsimp only
      rw [if_neg (by omega)]
      split
      · next hcid => rw [decide_eq_true hcid]
      · next hcid => rw [if_pos (.inr hnegative), decide_eq_false hcid]
  refine ⟨⟨s.now, .inl rfl, ?_⟩, fun ⟨id, hid, _⟩ ↦ hno id hid⟩
  rw [hanswer, decide_eq_true_iff]
  refine ⟨fun hcid ↦ ⟨fun id hid ↦ absurd hid (hno id), .inl hcid⟩, ?_⟩
  rintro ⟨-, hcid | ⟨id, hid, -⟩⟩
  · exact hcid
  · exact absurd hid (hno id)

/-- What a call for a digital content answers. -/
theorem isServable_natCast (s : ServingState) (cid : CID) (id : ℕ) :
    (s.isServable cid (some (id : ℤ))).1 =
      if id ≠ 0 ∧ id ∈ s.blacklist.redis.digitalContentIds then false
      else if cid ∉ s.blacklist.redis.segmentCIDs then true
      else if id = 0 then false
      else (s.belongsToDigitalContent cid id).1 := by
  have hlisted : ((id : ℤ) ≠ 0 ∧ 0 ≤ (id : ℤ) ∧
      (id : ℤ).toNat ∈ s.blacklist.redis.digitalContentIds) =
        (id ≠ 0 ∧ id ∈ s.blacklist.redis.digitalContentIds) := by
    simp
  have hnone : ((id : ℤ) = 0 ∨ (id : ℤ) < 0) = (id = 0) := propext (by omega)
  unfold isServable
  simp only [apply_ite Prod.fst, hlisted, hnone]
  rw [Int.toNat_natCast]

theorem servableBy_natCast (s : ServingState) (time : ℕ) (cid : CID) (id : ℕ) :
    s.ServableBy time cid (some (id : ℤ)) ↔
      id ∉ s.blacklist.redis.digitalContentIds ∧
        (cid ∉ s.blacklist.redis.segmentCIDs ∨ s.heldAt time id cid) := by
  have hid : ∀ id' : ℕ, some (id : ℤ) = some (id' : ℤ) → id = id' :=
    fun id' heq ↦ Int.ofNat_inj.mp (some.inj heq)
  constructor
  · rintro ⟨hlisted, hcid | ⟨id', heq, hheld⟩⟩
    · exact ⟨hlisted id rfl, .inl hcid⟩
    · exact ⟨hlisted id rfl, .inr (hid id' heq ▸ hheld)⟩
  · rintro ⟨hlisted, hcid⟩
    exact ⟨fun id' heq ↦ hid id' heq ▸ hlisted, hcid.imp_right fun hheld ↦ ⟨id, rfl, hheld⟩⟩

/-- The node answers rightly in a consistent state unless the call is one it misjudges. -/
theorem Consistent.answersRightly_iff (h : s.Consistent) (hcid : cid ≠ "")
    (digitalContentId : Option ℤ) :
    s.AnswersRightly cid digitalContentId ↔ ¬ s.Misjudges cid digitalContentId := by
  by_cases hno : ∀ id : ℕ, digitalContentId ≠ some (id : ℤ)
  · obtain ⟨hright, hmisjudges⟩ := answersRightly_of_no_id s cid hno
    exact iff_of_true hright hmisjudges
  · simp only [not_forall, not_not] at hno
    obtain ⟨id, rfl⟩ := hno
    unfold AnswersRightly Misjudges
    simp only [isServable_natCast, servableBy_natCast, some.injEq, Int.natCast_inj, exists_eq_left']
    by_cases hlisted : id ∈ s.blacklist.redis.digitalContentIds
    · simp only [hlisted, not_true_eq_false, false_and, and_true, true_and, or_false, iff_false]
      by_cases hzero : id = 0
      · by_cases hplain : cid ∈ s.blacklist.redis.segmentCIDs
        · exact iff_of_true ⟨s.now, .inl rfl, by simp [hzero, hplain]⟩ (by simp [hplain])
        · refine iff_of_false ?_ (by simp [hzero, hplain])
          rintro ⟨time, -, hanswer⟩
          simp [hzero, hplain] at hanswer
      · exact iff_of_true ⟨s.now, .inl rfl, by simp [hzero]⟩ (fun hmis ↦ hzero hmis.1)
    · simp only [hlisted, and_false, false_and, if_false, not_false_eq_true, true_and, false_or]
      by_cases hplain : cid ∈ s.blacklist.redis.segmentCIDs
      · simp only [hplain, not_true_eq_false, if_false, false_or, true_and]
        by_cases hzero : id = 0
        · subst hzero
          simp only [if_true, Bool.false_eq_true, false_iff, true_and, ne_eq, not_true_eq_false,
            false_and, or_false]
          constructor
          · rintro ⟨time, rfl | hcached, hheld⟩
            · exact hheld
            · exact absurd hcached (h.not_cachedSince_zero time)
          · exact fun hheld ↦ ⟨s.now, .inl rfl, hheld⟩
        · simp only [hzero, if_false, false_and, ne_eq, not_false_eq_true, true_and, false_or]
          exact h.belongs_right_iff hcid id
      · exact iff_of_true ⟨s.now, .inl rfl, by simp [hplain]⟩ (fun hmis ↦ hplain hmis.1)

/-- **Servability** is decided rightly in every state that is reached, except for a digital content
that was found invalid longer ago than the expiration, a segment that only a later row of its
digital content has, and the id 0. -/
theorem isServable_right_iff (now : ℕ) (database : Database) (blacklist : State)
    (events : List (ℕ × Event)) (milliseconds : ℕ) {cid : CID} (hcid : cid ≠ "")
    (digitalContentId : Option ℤ) :
    (((start now database blacklist).serve events).later milliseconds).AnswersRightly cid
        digitalContentId ↔
      ¬ (((start now database blacklist).serve events).later milliseconds).Misjudges cid
        digitalContentId := by
  have hconsistent := ((consistent_start now database blacklist).serve events).later milliseconds
  exact hconsistent.answersRightly_iff hcid digitalContentId

/-! ### A digital content that was asked for before it was published -/

/-- Empty tables. -/
def nothing : Database := ⟨[], [], [], ∅⟩

/-- The row of the digital content 7 with one segment. -/
def seventh : DigitalContent := ⟨"user", 4, 7, "metadata", ⟨some [some "QmSegment"], ""⟩, none⟩

/-- The segment is blacklisted by itself and asked for before its digital content is published. -/
def askedTooEarly : ServingState :=
  (start 0 nothing ⟨[], .empty⟩).serve
    [(0, .request (.add (.CID ["QmSegment"]))), (0, .isServable "QmSegment" (some 7)),
      (0, .publish seventh [])]

/-- Two hours after the publication the digital content is still taken for invalid. -/
theorem isServable_not_right :
    ¬ (askedTooEarly.later (2 * 60 * 60 * 1000)).AnswersRightly "QmSegment" (some 7) := by
  have hmarked : askedTooEarly.invalidDigitalContentIds 7 = some 2 := by decide +kernel
  have hunlisted : 7 ∉ askedTooEarly.blacklist.redis.digitalContentIds := by decide +kernel
  have hlisted : "QmSegment" ∈ askedTooEarly.blacklist.redis.segmentCIDs := by decide +kernel
  have hpublished : askedTooEarly.published = [(3, seventh)] := by decide +kernel
  have hconsistent : (askedTooEarly.later (2 * 60 * 60 * 1000)).Consistent :=
    ((consistent_start 0 nothing ⟨[], .empty⟩).serve _).later _
  rw [hconsistent.answersRightly_iff (by decide), not_not]
  have hstale : 2 + 1000 * INVALID_DIGITAL_CONTENT_ID_EXPIRATION_SECONDS ≤
      (askedTooEarly.later (2 * 60 * 60 * 1000)).now := by
    show 2 + 1000 * (1 * 60 * 60) ≤ askedTooEarly.now + 2 * 60 * 60 * 1000
    omega
  have hheld : (askedTooEarly.later (2 * 60 * 60 * 1000)).heldAt
      (askedTooEarly.later (2 * 60 * 60 * 1000)).now 7 "QmSegment" := by
    refine ⟨(3, seventh), ?_, ?_, rfl, List.mem_singleton_self _⟩
    · show (3, seventh) ∈ askedTooEarly.published
      rw [hpublished]
      exact List.mem_singleton_self _
    · show 3 ≤ askedTooEarly.now + 2 * 60 * 60 * 1000
      omega
  exact ⟨7, rfl, .inr ⟨hunlisted, hlisted, .inr ⟨by decide, .inl ⟨⟨2, hmarked, hstale⟩, hheld⟩⟩⟩⟩

/-- Asked for after the publication, the digital content is served. -/
theorem isServable_right_published :
    (((start 0 nothing ⟨[], .empty⟩).serve [(0, .request (.add (.CID ["QmSegment"]))),
      (0, .publish seventh [])]).later 5).AnswersRightly "QmSegment" (some 7) := by
  rw [isServable_right_iff 0 nothing ⟨[], .empty⟩ _ 5 (by decide) (some 7)]
  rintro ⟨id, hid, ⟨rfl, -⟩ | ⟨-, -, ⟨rfl, -⟩ | ⟨-, ⟨⟨time, hmarked, -⟩, -⟩ | ⟨-, hfirst, -⟩⟩⟩⟩
  · cases hid
  · cases hid
  · cases hmarked
  · have hseven : id = 7 := (Int.ofNat_inj.mp (Option.some.inj hid)).symm
    subst hseven
    exact hfirst (2, seventh) rfl (List.mem_singleton_self _)

end ServingState

end BlacklistManager

end ColivingSpec
