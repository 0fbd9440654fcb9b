import ColivingSpec.ContentNode.Models
import ColivingSpec.Lib.Chunks
import ColivingSpec.Lib.Indexes

/-!
# The blacklist

The `ContentBlacklist` table lists users, digital contents and content identifiers, and three
sets in Redis list what the table implies: a listed user implies its digital contents, and a
digital content its segments and files. The module follows `blacklistManager.js`.
-/

namespace ColivingSpec

open Lib

namespace BlacklistManager

/-- A row of the `ContentBlacklist` table, by its type: `contentBlacklist.js:4–8`. -/
inductive ContentBlacklist where
  | user (id : ℕ)
  | digital_content (id : ℕ)
  | cid (value : CID)
  deriving DecidableEq, Repr

/-- The tables the manager reads, and the configured whitelist. -/
structure Database where
  colivingUsers : List ColivingUser
  digitalContents : List DigitalContent
  files : List File
  CID_WHITELIST : Finset CID

/-- The sets under the three blacklist keys. -/
structure Redis where
  digitalContentIds : Finset ℕ
  userIds : Finset ℕ
  segmentCIDs : Finset CID
  deriving DecidableEq

/-- The keys are absent. -/
def Redis.empty : Redis := ⟨∅, ∅, ∅⟩

/-- `redisAddMaxItemsSize`: `blacklistManager.js:407`. -/
def redisAddMaxItemsSize : ℕ := 100000

/-- `PROCESS_DIGITAL_CONTENTS_BATCH_SIZE`: `blacklistManager.js:19`. -/
def PROCESS_DIGITAL_CONTENTS_BATCH_SIZE : ℕ := 200

/-- `addToRedis` for a set: `sadd` in slices, `blacklistManager.js:406–467`. -/
def addToRedis {α : Type} [DecidableEq α] (set : Finset α) (data : List α) : Finset α :=
  overSlices redisAddMaxItemsSize (fun set slice ↦ set ∪ slice.toFinset) set data

/-- `removeFromRedis`: `srem`, `blacklistManager.js:475–493`. -/
def removeFromRedis {α : Type} [DecidableEq α] (set : Finset α) (data : List α) : Finset α :=
  set \ data.toFinset

namespace Database

variable (db : Database)

/-- `getDigitalContentsFromUsers`: `blacklistManager.js:220–234`. -/
def getDigitalContentsFromUsers (userIdsBlacklist : List ℕ) : List ℕ :=
  let cnodeUserUUIDs := (db.colivingUsers.filter fun row ↦
    userIdsBlacklist.contains row.blockchainId).map (·.cnodeUserUUID)
  (db.digitalContents.filter fun row ↦ cnodeUserUUIDs.contains row.cnodeUserUUID).map
    (·.blockchainId)

/-- `getAllCIDsFromDigitalContentIdsInDb`: `blacklistManager.js:242–249`. -/
def getAllCIDsFromDigitalContentIdsInDb (digitalContentIds : List ℕ) : List DigitalContent :=
  db.digitalContents.filter fun row ↦ digitalContentIds.contains row.blockchainId

/-- The segments of a digital content that are not whitelisted: `blacklistManager.js:266–273`. -/
def segmentsOf (row : DigitalContent) : List CID :=
  ((row.metadataJSON.digital_content_segments.getD []).filterMap id).filter
    (· ∉ db.CID_WHITELIST)

/-- Whether a file of a blacklisted digital content is listed: `blacklistManager.js:288–297`. -/
def listsFile (file : File) : Bool :=
  file.type == some .digital_content || file.type == some .copy320 ||
    decide (file.multihash ∉ db.CID_WHITELIST)

/-- `getCIDsToBlacklist`: `blacklistManager.js:257–301`. -/
def getCIDsToBlacklist (inputDigitalContentIds : List ℕ) : List CID :=
  let segmentCIDs :=
    (db.getAllCIDsFromDigitalContentIdsInDb inputDigitalContentIds).flatMap db.segmentsOf
  let files := db.files.filter fun file ↦
    file.digitalContentBlockchainId.any fun id ↦ inputDigitalContentIds.contains id
  (segmentCIDs ++ (files.filter db.listsFile).map (·.multihash)).dedup

/-- `addAggregateCIDsToRedis`: `blacklistManager.js:128–169`. -/
def addAggregateCIDsToRedis (segmentCIDs : Finset CID)
    (allDigitalContentIdsToBlacklist : List ℕ) : Finset CID :=
  overSlices PROCESS_DIGITAL_CONTENTS_BATCH_SIZE
    (fun set slice ↦ addToRedis set (db.getCIDsToBlacklist slice)) segmentCIDs
    allDigitalContentIdsToBlacklist

/-- `fetchCIDsAndAddToRedis`: `blacklistManager.js:89–122`. -/
def fetchCIDsAndAddToRedis (redis : Redis)
    (digitalContentIdsToBlacklist userIdsToBlacklist : List ℕ)
    (segmentsToBlacklist : List CID) : Redis :=
  let allDigitalContentIdsToBlacklist :=
    digitalContentIdsToBlacklist ++ db.getDigitalContentsFromUsers userIdsToBlacklist
  { digitalContentIds := addToRedis redis.digitalContentIds allDigitalContentIdsToBlacklist
    userIds := addToRedis redis.userIds userIdsToBlacklist
    segmentCIDs := db.addAggregateCIDsToRedis (addToRedis redis.segmentCIDs segmentsToBlacklist)
      allDigitalContentIdsToBlacklist.dedup }

/-- `fetchCIDsAndRemoveFromRedis`: `blacklistManager.js:175–214`. -/
def fetchCIDsAndRemoveFromRedis (redis : Redis) (digitalContentIdsToRemove userIdsToRemove : List ℕ)
    (segmentsToRemove : List CID) : Redis :=
  let allDigitalContentIdsToBlacklist :=
    digitalContentIdsToRemove ++ db.getDigitalContentsFromUsers userIdsToRemove
  let segmentCIDsToRemove :=
    (db.getCIDsToBlacklist allDigitalContentIdsToBlacklist.dedup ++ segmentsToRemove).dedup
  { digitalContentIds := removeFromRedis redis.digitalContentIds allDigitalContentIdsToBlacklist
    userIds := removeFromRedis redis.userIds userIdsToRemove
    segmentCIDs := removeFromRedis redis.segmentCIDs segmentCIDsToRemove }

end Database

/-- The values of one request, by its type. -/
inductive Values where
  | USER (ids : List ℕ)
  | DIGITAL_CONTENT (ids : List ℕ)
  | CID (values : List CID)
  deriving DecidableEq, Repr

/-- The rows a request names. -/
def Values.rows : Values → List ContentBlacklist
  | .USER ids => ids.map .user
  | .DIGITAL_CONTENT ids => ids.map .digital_content
  | .CID values => values.map .cid

/-- The values of a request that name digital contents. -/
def Values.digitalContentIds : Values → List ℕ
  | .DIGITAL_CONTENT ids => ids
  | _ => []

/-- The values of a request that name users. -/
def Values.userIds : Values → List ℕ
  | .USER ids => ids
  | _ => []

/-- The values of a request that name segments. -/
def Values.segments : Values → List ColivingSpec.CID
  | .CID values => values
  | _ => []

/-- The `ContentBlacklist` table, unique in type and value, and Redis. -/
structure State where
  table : List ContentBlacklist
  redis : Redis
  deriving DecidableEq

variable (table : List ContentBlacklist) (db : Database) (s : State)

variable (values : Values)

/-- `addToDb`: `bulkCreate` that ignores duplicates, `blacklistManager.js:347–364`. -/
def addToDb : List ContentBlacklist :=
  values.rows.foldl (fun table row ↦ if row ∈ table then table else table ++ [row]) table

/-- `removeFromDb`: `blacklistManager.js:371–398`. -/
def removeFromDb : List ContentBlacklist :=
  table.filter (· ∉ values.rows)

/-- `add`: `blacklistManager.js:303–321`. -/
def add : State where
  table := addToDb s.table values
  redis := db.fetchCIDsAndAddToRedis s.redis values.digitalContentIds values.userIds values.segments

/-- `remove`: `blacklistManager.js:323–340`. -/
def remove : State where
  table := removeFromDb s.table values
  redis :=
    db.fetchCIDsAndRemoveFromRedis s.redis values.digitalContentIds values.userIds values.segments

/-- The users of the table: `getDataToBlacklist`, `blacklistManager.js:49–82`. -/
def usersFromCBL : List ℕ :=
  table.filterMap fun
    | .user id => some id
    | _ => none

/-- The digital contents of the table. -/
def digitalContentsFromCBL : List ℕ :=
  table.filterMap fun
    | .digital_content id => some id
    | _ => none

/-- The segments of the table. -/
def segmentsFromCBL : List CID :=
  table.filterMap fun
    | .cid value => some value
    | _ => none

/-- `init`, on a Redis without the keys: `blacklistManager.js:28–46`. -/
def init (table : List ContentBlacklist) : Redis :=
  db.fetchCIDsAndAddToRedis .empty (digitalContentsFromCBL table) (usersFromCBL table)
    (segmentsFromCBL table)

/-- A request to the manager. -/
inductive Operation where
  | add (values : Values)
  | remove (values : Values)
  deriving DecidableEq, Repr

/-- One request. -/
def step : Operation → State
  | .add values => add db s values
  | .remove values => remove db s values

/-- The requests in their order, on an empty table and an empty Redis. -/
def run (operations : List Operation) : State :=
  operations.foldl (step db) ⟨[], .empty⟩

end BlacklistManager

end ColivingSpec

/-!
## The blacklist sets and the table

What `init` computes is the index of the table: every set holds what the rows imply together.
`add` keeps the sets exact. `remove` deletes what the removed rows imply, also where a row that
stays implies it too, so it keeps them exact just when no such row stays.
-/

namespace ColivingSpec

open Lib ColivingSpec.Lib.DerivedIndex

namespace BlacklistManager

variable (db : Database)

/-! ### What a row implies -/

/-- The digital contents a row implies. -/
def impliedDigitalContentIds : ContentBlacklist → Finset ℕ
  | .user id => (db.getDigitalContentsFromUsers [id]).toFinset
  | .digital_content id => {id}
  | .cid _ => ∅

/-- The users a row implies. -/
def impliedUserIds : ContentBlacklist → Finset ℕ
  | .user id => {id}
  | .digital_content _ => ∅
  | .cid _ => ∅

/-- The segments and files a row implies. -/
def impliedCIDs : ContentBlacklist → Finset CID
  | .user id => (db.getCIDsToBlacklist (db.getDigitalContentsFromUsers [id])).toFinset
  | .digital_content id => (db.getCIDsToBlacklist [id]).toFinset
  | .cid value => {value}

/-- The sets that rows imply together. -/
def implies (rows : Finset ContentBlacklist) : Redis where
  digitalContentIds := index (impliedDigitalContentIds db) rows
  userIds := index impliedUserIds rows
  segmentCIDs := index (impliedCIDs db) rows

/-- The rows that name the given values. -/
def rowsNaming (digitalContentIds userIds : List ℕ) (segments : List CID) :
    Finset ContentBlacklist :=
  (digitalContentIds.map ContentBlacklist.digital_content ++ userIds.map ContentBlacklist.user
    ++ segments.map ContentBlacklist.cid).toFinset

theorem mem_getDigitalContentsFromUsers {userIds : List ℕ} {id : ℕ} :
    id ∈ db.getDigitalContentsFromUsers userIds ↔
      ∃ userId ∈ userIds, id ∈ db.getDigitalContentsFromUsers [userId] := by
  simp only [Database.getDigitalContentsFromUsers, List.mem_map, List.mem_filter,
    List.contains_iff_mem, List.mem_singleton]
  constructor
  · rintro ⟨row, ⟨hrow, user, ⟨huser, hid⟩, heq⟩, rfl⟩
    exact ⟨_, hid, row, ⟨hrow, user, ⟨huser, rfl⟩, heq⟩, rfl⟩
  · rintro ⟨userId, hid, row, ⟨hrow, user, ⟨huser, rfl⟩, heq⟩, rfl⟩
    exact ⟨row, ⟨hrow, user, ⟨huser, hid⟩, heq⟩, rfl⟩

theorem mem_getCIDsToBlacklist {ids : List ℕ} {cid : CID} :
    cid ∈ db.getCIDsToBlacklist ids ↔
      (∃ row ∈ db.digitalContents, row.blockchainId ∈ ids ∧ cid ∈ db.segmentsOf row) ∨
        ∃ file ∈ db.files, (∃ id ∈ ids, file.digitalContentBlockchainId = some id) ∧
          db.listsFile file = true ∧ file.multihash = cid := by
  have hfile : ∀ file : File,
      (file.digitalContentBlockchainId.any fun id ↦ ids.contains id) = true ↔
        ∃ id ∈ ids, file.digitalContentBlockchainId = some id := by
    intro file
    cases file.digitalContentBlockchainId <;> simp
  simp only [Database.getCIDsToBlacklist, Database.getAllCIDsFromDigitalContentIdsInDb,
    List.mem_dedup, List.mem_append, List.mem_flatMap, List.mem_map, List.mem_filter,
    hfile, List.contains_iff_mem, and_assoc]

variable (ids userIds : List ℕ) (segments : List CID) (table : List ContentBlacklist)
  (values : Values) {s : State}

theorem mem_getCIDsToBlacklist_iff_exists {cid : CID} :
    cid ∈ db.getCIDsToBlacklist ids ↔ ∃ id ∈ ids, cid ∈ db.getCIDsToBlacklist [id] := by
  simp only [mem_getCIDsToBlacklist, List.mem_singleton, exists_eq_left]
  constructor
  · rintro (⟨row, hrow, hid, hcid⟩ | ⟨file, hfile, ⟨id, hid, heq⟩, hlists, rfl⟩)
    · exact ⟨_, hid, .inl ⟨row, hrow, rfl, hcid⟩⟩
    · exact ⟨id, hid, .inr ⟨file, hfile, heq, hlists, rfl⟩⟩
  · rintro ⟨id, hid, ⟨row, hrow, rfl, hcid⟩ | ⟨file, hfile, heq, hlists, rfl⟩⟩
    · exact .inl ⟨row, hrow, hid, hcid⟩
    · exact .inr ⟨file, hfile, ⟨id, hid, heq⟩, hlists, rfl⟩

/-! ### What the values of a request imply -/

theorem index_digitalContentIds :
    index (impliedDigitalContentIds db) (rowsNaming ids userIds segments)
      = (ids ++ db.getDigitalContentsFromUsers userIds).toFinset := by
  ext id
  simp only [mem_index, rowsNaming, List.mem_toFinset, List.mem_append, List.mem_map]
  rw [mem_getDigitalContentsFromUsers]
  constructor
  · rintro ⟨row, (⟨i, hi, rfl⟩ | ⟨u, hu, rfl⟩) | ⟨c, -, rfl⟩, hid⟩
    · exact .inl (Finset.mem_singleton.mp hid ▸ hi)
    · exact .inr ⟨u, hu, List.mem_toFinset.mp hid⟩
    · exact absurd hid (Finset.notMem_empty id)
  · rintro (hid | ⟨u, hu, hid⟩)
    · exact ⟨.digital_content id, .inl (.inl ⟨id, hid, rfl⟩), Finset.mem_singleton_self id⟩
    · exact ⟨.user u, .inl (.inr ⟨u, hu, rfl⟩), List.mem_toFinset.mpr hid⟩

theorem index_userIds :
    index impliedUserIds (rowsNaming ids userIds segments) = userIds.toFinset := by
  ext id
  simp only [mem_index, rowsNaming, List.mem_toFinset, List.mem_append, List.mem_map]
  constructor
  · rintro ⟨row, (⟨i, -, rfl⟩ | ⟨u, hu, rfl⟩) | ⟨c, -, rfl⟩, hid⟩
    · exact absurd hid (Finset.notMem_empty id)
    · exact Finset.mem_singleton.mp hid ▸ hu
    · exact absurd hid (Finset.notMem_empty id)
  · intro hid
    exact ⟨.user id, .inl (.inr ⟨id, hid, rfl⟩), Finset.mem_singleton_self id⟩

theorem index_segmentCIDs :
    index (impliedCIDs db) (rowsNaming ids userIds segments)
      = (db.getCIDsToBlacklist (ids ++ db.getDigitalContentsFromUsers userIds)).toFinset
        ∪ segments.toFinset := by
  ext cid
  simp only [mem_index, rowsNaming, List.mem_toFinset, List.mem_append, List.mem_map,
    Finset.mem_union]
  rw [mem_getCIDsToBlacklist_iff_exists]
  constructor
  · rintro ⟨row, (⟨i, hi, rfl⟩ | ⟨u, hu, rfl⟩) | ⟨c, hc, rfl⟩, hcid⟩
    · exact .inl ⟨i, List.mem_append_left _ hi, List.mem_toFinset.mp hcid⟩
    · obtain ⟨id, hid, hcid⟩ :=
        (mem_getCIDsToBlacklist_iff_exists db _).mp (List.mem_toFinset.mp hcid)
      have hmem := (mem_getDigitalContentsFromUsers db).mpr ⟨u, hu, hid⟩
      exact .inl ⟨id, List.mem_append_right _ hmem, hcid⟩
    · exact .inr (Finset.mem_singleton.mp hcid ▸ hc)
  · rintro (⟨id, hid, hcid⟩ | hc)
    · rcases List.mem_append.mp hid with hid | hid
      · exact ⟨.digital_content id, .inl (.inl ⟨id, hid, rfl⟩), List.mem_toFinset.mpr hcid⟩
      · obtain ⟨u, hu, hid⟩ := (mem_getDigitalContentsFromUsers db).mp hid
        have hmem := (mem_getCIDsToBlacklist_iff_exists db _).mpr ⟨id, hid, hcid⟩
        exact ⟨.user u, .inl (.inr ⟨u, hu, rfl⟩), List.mem_toFinset.mpr hmem⟩
    · exact ⟨.cid cid, .inr ⟨cid, hc, rfl⟩, Finset.mem_singleton_self cid⟩

/-! ### What the manager writes -/

theorem addToRedis_eq {α : Type} [DecidableEq α] (set : Finset α) (data : List α) :
    addToRedis set data = set ∪ data.toFinset := by
  apply overSlices_eq
  · intro s
    simp
  · intro s l l'
    rw [Finset.union_assoc, List.toFinset_append]

theorem addAggregateCIDsToRedis_eq (set : Finset CID) (ids : List ℕ) :
    db.addAggregateCIDsToRedis set ids = set ∪ (db.getCIDsToBlacklist ids).toFinset := by
  have happend : ∀ l l', (db.getCIDsToBlacklist (l ++ l')).toFinset
      = (db.getCIDsToBlacklist l).toFinset ∪ (db.getCIDsToBlacklist l').toFinset := by
    intro l l'
    ext cid
    simp only [List.mem_toFinset, Finset.mem_union]
    rw [mem_getCIDsToBlacklist_iff_exists db (l ++ l'), mem_getCIDsToBlacklist_iff_exists db l,
      mem_getCIDsToBlacklist_iff_exists db l']
    simp only [List.mem_append, or_and_right, exists_or]
  have hnil : db.getCIDsToBlacklist [] = [] := by
    apply List.eq_nil_iff_forall_not_mem.mpr
    intro cid hcid
    obtain ⟨id, hid, -⟩ := (mem_getCIDsToBlacklist_iff_exists db _).mp hcid
    exact absurd hid List.not_mem_nil
  calc db.addAggregateCIDsToRedis set ids
      = addToRedis set (db.getCIDsToBlacklist ids) := by
        apply overSlices_eq
        · intro s
          rw [addToRedis_eq, hnil]
          simp
        · intro s l l'
          rw [addToRedis_eq, addToRedis_eq, addToRedis_eq, happend, Finset.union_assoc]
    _ = set ∪ (db.getCIDsToBlacklist ids).toFinset := addToRedis_eq set _

theorem getCIDsToBlacklist_dedup :
    (db.getCIDsToBlacklist ids.dedup).toFinset = (db.getCIDsToBlacklist ids).toFinset := by
  ext cid
  rw [List.mem_toFinset, List.mem_toFinset, mem_getCIDsToBlacklist_iff_exists db ids.dedup,
    mem_getCIDsToBlacklist_iff_exists db ids]
  simp only [List.mem_dedup]

/-- Adding puts what the named rows imply on top of what is there. -/
theorem fetchCIDsAndAddToRedis_eq (redis : Redis) (ids userIds : List ℕ) (segments : List CID) :
    db.fetchCIDsAndAddToRedis redis ids userIds segments =
      { digitalContentIds := redis.digitalContentIds
          ∪ (implies db (rowsNaming ids userIds segments)).digitalContentIds
        userIds := redis.userIds ∪ (implies db (rowsNaming ids userIds segments)).userIds
        segmentCIDs :=
          redis.segmentCIDs ∪ (implies db (rowsNaming ids userIds segments)).segmentCIDs } := by
  simp only [Database.fetchCIDsAndAddToRedis, implies, addToRedis_eq, addAggregateCIDsToRedis_eq,
    index_digitalContentIds, index_userIds, index_segmentCIDs, getCIDsToBlacklist_dedup,
    Redis.mk.injEq, true_and]
  rw [Finset.union_assoc, Finset.union_comm segments.toFinset]

/-- Removing deletes what the named rows imply. -/
theorem fetchCIDsAndRemoveFromRedis_eq (redis : Redis) (ids userIds : List ℕ)
    (segments : List CID) :
    db.fetchCIDsAndRemoveFromRedis redis ids userIds segments =
      { digitalContentIds := redis.digitalContentIds
          \ (implies db (rowsNaming ids userIds segments)).digitalContentIds
        userIds := redis.userIds \ (implies db (rowsNaming ids userIds segments)).userIds
        segmentCIDs :=
          redis.segmentCIDs \ (implies db (rowsNaming ids userIds segments)).segmentCIDs } := by
  have hdedup : ∀ l : List CID, l.dedup.toFinset = l.toFinset := by
    intro l
    ext cid
    simp
  simp only [Database.fetchCIDsAndRemoveFromRedis, implies, removeFromRedis,
    index_digitalContentIds, index_userIds, index_segmentCIDs, hdedup, List.toFinset_append,
    getCIDsToBlacklist_dedup]

/-! ### The table -/

theorem rowsNaming_table :
    rowsNaming (digitalContentsFromCBL table) (usersFromCBL table) (segmentsFromCBL table)
      = table.toFinset := by
  ext row
  simp only [rowsNaming, digitalContentsFromCBL, usersFromCBL, segmentsFromCBL, List.mem_toFinset,
    List.mem_append, List.mem_map, List.mem_filterMap]
  constructor
  · rintro ((⟨id, ⟨r, hr, heq⟩, rfl⟩ | ⟨id, ⟨r, hr, heq⟩, rfl⟩) | ⟨c, ⟨r, hr, heq⟩, rfl⟩)
    · cases r <;> cases heq
      exact hr
    · cases r <;> cases heq
      exact hr
    · cases r <;> cases heq
      exact hr
  · intro hrow
    cases row with
    | user id => exact .inl (.inr ⟨id, ⟨_, hrow, rfl⟩, rfl⟩)
    | digital_content id => exact .inl (.inl ⟨id, ⟨_, hrow, rfl⟩, rfl⟩)
    | cid value => exact .inr ⟨value, ⟨_, hrow, rfl⟩, rfl⟩

theorem rowsNaming_values :
    rowsNaming values.digitalContentIds values.userIds values.segments
      = values.rows.toFinset := by
  cases values <;> simp [rowsNaming, Values.digitalContentIds, Values.userIds, Values.segments,
    Values.rows]

/-- `init` computes what the table implies. -/
theorem init_eq : init db table = implies db table.toFinset := by
  simp only [init, fetchCIDsAndAddToRedis_eq, rowsNaming_table, Redis.empty, Finset.empty_union]

theorem toFinset_addToDb :
    (addToDb table values).toFinset = table.toFinset ∪ values.rows.toFinset := by
  unfold addToDb
  generalize values.rows = rows
  induction rows generalizing table with
  | nil => simp
  | cons row rows ih =>
    rw [List.foldl_cons, ih]
    split
    · next hmem =>
      rw [List.toFinset_cons, Finset.union_insert, Finset.insert_eq_of_mem]
      exact Finset.mem_union_left _ (List.mem_toFinset.mpr hmem)
    · ext r
      simp

theorem toFinset_removeFromDb :
    (removeFromDb table values).toFinset = table.toFinset \ values.rows.toFinset := by
  ext row
  simp [removeFromDb]

/-! ### One request -/

/-- Redis holds what `init` would compute from the table. -/
def Exact (s : State) : Prop := s.redis = init db s.table

instance (s : State) : Decidable (Exact db s) := inferInstanceAs (Decidable (_ = _))

/-- A removal names no row that shares a digital content, a segment or a file with a row that
stays. -/
def Undisputed (s : State) : Operation → Prop
  | .add _ => True
  | .remove values => ∀ row ∈ s.table, row ∉ values.rows → ∀ removed ∈ values.rows,
    Disjoint (impliedDigitalContentIds db row) (impliedDigitalContentIds db removed) ∧
      Disjoint (impliedCIDs db row) (impliedCIDs db removed)

theorem add_exact (hs : Exact db s) (values : Values) : Exact db (add db s values) := by
  have hredis : s.redis = implies db s.table.toFinset := hs.trans (init_eq db s.table)
  show db.fetchCIDsAndAddToRedis s.redis values.digitalContentIds values.userIds values.segments
    = init db (addToDb s.table values)
  rw [fetchCIDsAndAddToRedis_eq, rowsNaming_values, init_eq, toFinset_addToDb, hredis]
  simp only [implies, index_union]

theorem unshared_iff {α : Type} [DecidableEq α] (implied : ContentBlacklist → Finset α)
    (table : List ContentBlacklist) (values : Values) :
    Unshared implied table.toFinset values.rows.toFinset ↔
      ∀ row ∈ table, row ∉ values.rows → ∀ removed ∈ values.rows,
        Disjoint (implied row) (implied removed) := by
  simp only [Unshared, index, Finset.disjoint_biUnion_left, Finset.disjoint_biUnion_right,
    Finset.mem_sdiff, List.mem_toFinset]
  constructor
  · intro h row hrow hnot removed hremoved
    exact h removed hremoved row ⟨hrow, hnot⟩
  · intro h removed hremoved row hrow
    exact h row hrow.1 hrow.2 removed hremoved

/-- Different rows imply different users. -/
theorem unshared_userIds :
    Unshared impliedUserIds table.toFinset values.rows.toFinset := by
  rw [unshared_iff]
  intro row _ hnot removed hremoved
  apply Finset.disjoint_left.mpr
  intro id hrow hid
  cases row with
  | user userId =>
    cases removed with
    | user removedId =>
      have huser : id = userId := Finset.mem_singleton.mp hrow
      have hremovedId : id = removedId := Finset.mem_singleton.mp hid
      exact hnot (huser ▸ hremovedId ▸ hremoved)
    | digital_content | cid => exact Finset.notMem_empty id hid
  | digital_content | cid => exact Finset.notMem_empty id hrow

theorem remove_exact_iff (hs : Exact db s) (values : Values) :
    Exact db (remove db s values) ↔ Undisputed db s (.remove values) := by
  have hredis : s.redis = implies db s.table.toFinset := hs.trans (init_eq db s.table)
  have hredis' : (remove db s values).redis =
      { digitalContentIds := index (impliedDigitalContentIds db) s.table.toFinset
          \ index (impliedDigitalContentIds db) values.rows.toFinset
        userIds := index impliedUserIds s.table.toFinset
          \ index impliedUserIds values.rows.toFinset
        segmentCIDs := index (impliedCIDs db) s.table.toFinset
          \ index (impliedCIDs db) values.rows.toFinset } := by
    simp only [remove, fetchCIDsAndRemoveFromRedis_eq, rowsNaming_values, hredis]
    rfl
  have htable : init db (remove db s values).table
      = implies db (s.table.toFinset \ values.rows.toFinset) := by
    rw [init_eq]
    exact congrArg (implies db) (toFinset_removeFromDb s.table values)
  unfold Exact
  rw [hredis', htable, implies, Redis.mk.injEq, index_sdiff_eq_iff, index_sdiff_eq_iff,
    index_sdiff_eq_iff, unshared_iff, unshared_iff (impliedCIDs db)]
  constructor
  · rintro ⟨hcontents, -, hcids⟩ row hrow hnot removed hremoved
    exact ⟨hcontents row hrow hnot removed hremoved, hcids row hrow hnot removed hremoved⟩
  · intro h
    exact ⟨fun row hrow hnot removed hremoved ↦ (h row hrow hnot removed hremoved).1,
      unshared_userIds s.table values,
      fun row hrow hnot removed hremoved ↦ (h row hrow hnot removed hremoved).2⟩

/-- A request keeps the sets exact just when it removes nothing that a remaining row implies. -/
theorem step_exact_iff (hs : Exact db s) (operation : Operation) :
    Exact db (step db s operation) ↔ Undisputed db s operation := by
  cases operation with
  | add values => exact iff_of_true (add_exact db hs values) trivial
  | remove values => exact remove_exact_iff db hs values

/-! ### Sequences of requests -/

theorem run_concat (before : List Operation) (operation : Operation) :
    run db (before ++ [operation]) = step db (run db before) operation := by
  simp only [run, List.foldl_append, List.foldl_cons, List.foldl_nil]

theorem exact_nil : Exact db (run db []) := by
  show Redis.empty = init db []
  rw [init_eq]
  rfl

/-- Along a sequence of requests Redis holds what `init` would compute from the table just when
no removal of the sequence names a row that shares something with a row that stays. -/
theorem blacklist_exact_iff (operations : List Operation) :
    (∀ before, before <+: operations → Exact db (run db before)) ↔
      ∀ before operation, before ++ [operation] <+: operations →
        Undisputed db (run db before) operation := by
  constructor
  · intro hexact before operation hprefix
    have hbefore : Exact db (run db before) :=
      hexact before ((List.prefix_append before [operation]).trans hprefix)
    rw [← step_exact_iff db hbefore, ← run_concat]
    exact hexact _ hprefix
  · intro hundisputed before
    induction before using List.reverseRecOn with
    | nil => exact fun _ ↦ exact_nil db
    | append_singleton before operation ih =>
      intro hprefix
      have hbefore : Exact db (run db before) :=
        ih ((List.prefix_append before [operation]).trans hprefix)
      rw [run_concat, step_exact_iff db hbefore]
      exact hundisputed before operation hprefix

/-- One user with one digital content of one segment. -/
def oneUser : Database where
  colivingUsers := [⟨"user", 2, 1, "userMetadata", ⟨none, ""⟩, none, none⟩]
  digitalContents := [⟨"user", 4, 10, "metadata", ⟨some [some "QmSegment"], ""⟩, none⟩]
  files := []
  CID_WHITELIST := ∅

/-- The user and its digital content are listed; removing the user takes the digital content,
which stays in the table, out of Redis. -/
theorem blacklist_not_exact :
    ¬ Exact oneUser (run oneUser
      [.add (.USER [1]), .add (.DIGITAL_CONTENT [10]), .remove (.USER [1])]) := by
  decide +kernel

end BlacklistManager

end ColivingSpec
