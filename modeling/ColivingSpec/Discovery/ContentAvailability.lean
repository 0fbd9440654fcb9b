import ColivingSpec.Lib.ByKey
import ColivingSpec.Lib.Checked
import ColivingSpec.Lib.Chunks

/-!
# The availability of digital contents

The contents that some node lists as unavailable are taken in batches. For each content of a batch
whose owner has a full replica set, all nodes of that set are asked; contents that all of them list
are marked. A batch in which one content has no owner row, or an owner with a part of a replica set,
is left out as a whole.
-/

namespace ColivingSpec.Discovery

open Lib List

namespace ContentAvailability

/-- A row of the table of contents, as far as the task reads and writes it. -/
structure DigitalContent where
  digitalContentId : ℕ
  ownerId : ℕ
  isCurrent : Bool
  isAvailable : Bool
  isDelete : Bool
  deriving DecidableEq, Repr

/-- A row of `users`, as far as the task reads it. -/
structure User where
  userId : ℕ
  isCurrent : Bool
  primaryId : Option ℤ
  secondaryIds : Option (List (Option ℤ))
  deriving DecidableEq, Repr

/-- The rows of contents: at most one current row each. -/
structure Contents where
  rows : List DigitalContent
  current : ((rows.filter DigitalContent.isCurrent).map DigitalContent.digitalContentId).Nodup

/-- The rows of users: at most one current row each. -/
structure Users where
  rows : List User
  current : ((rows.filter User.isCurrent).map User.userId).Nodup

/-- The sets of redis: the contents that each node lists, and those that some node lists. -/
structure Redis where
  unavailable : Option ℤ → List ℕ
  allUnavailable : List ℕ
  nodup : allUnavailable.Nodup

/-- The exceptions that end a batch. -/
inductive Raised where
  | notSubscriptable
  | listIndexOutOfRange
  | keyError (digitalContentId : ℕ)
  deriving DecidableEq, Repr

def batchSize : ℕ := 1000

/-- What is read of a content and its owner: the id, `primary_id` and `secondary_ids`. -/
abbrev Entry := ℕ × Option ℤ × Option (List (Option ℤ))

/-- `entry[2][i]`. -/
def subscript (secondaryIds : Option (List (Option ℤ))) (i : ℕ) : Except Raised (Option ℤ) :=
  match secondaryIds with
  | none => .error .notSubscriptable
  | some ids =>
    match ids[i]? with
    | none => .error .listIndexOutOfRange
    | some id => .ok id

/-- `update_digital_content_is_available.py:180–207`. -/
def checkDigitalContentIsAvailable (redis : Redis) (digitalContentId : ℕ) :
    List (Option ℤ) → Bool
  | [] => false
  | spID :: rest =>
    if digitalContentId ∉ redis.unavailable spID then true
    else checkDigitalContentIsAvailable redis digitalContentId rest

/-- Whether the content of an entry is available: `update_digital_content_is_available.py:80–99`. -/
def isAvailable (redis : Redis) (entry : Entry) : Except Raised Bool :=
  match entry.2.1 with
  | none => .ok true
  | some primaryId => do
    let secondary1 ← subscript entry.2.2 0
    if secondary1 = none then return true
    let secondary2 ← subscript entry.2.2 1
    if secondary2 = none then return true
    return checkDigitalContentIsAvailable redis entry.1 (some primaryId :: entry.2.2.getD [])

/-- The current contents of a batch. -/
def DigitalContent.InBatch (batch : List ℕ) (c : DigitalContent) : Prop :=
  c.isCurrent = true ∧ c.digitalContentId ∈ batch

instance (batch : List ℕ) (c : DigitalContent) : Decidable (c.InBatch batch) := by
  unfold DigitalContent.InBatch
  infer_instance

variable (contents : Contents) (users : Users)

variable (batch : List ℕ) (c : DigitalContent) (u : User) (redis : Redis)

/-- `update_digital_content_is_available.py:160–174`. -/
def queryDigitalContents : List DigitalContent :=
  contents.rows.filter fun c ↦ decide (c.InBatch batch)

/-- The current row of the owner. -/
def OwnedBy : Prop := u.isCurrent = true ∧ u.userId = c.ownerId

instance (c : DigitalContent) (u : User) : Decidable (OwnedBy c u) := by
  unfold OwnedBy
  infer_instance

/-- `update_digital_content_is_available.py:136–157`: contents without a current owner drop out of
the left join, as the row of the owner has to be current. -/
def queryReplicaSet : List Entry :=
  (queryDigitalContents contents batch).flatMap fun c ↦
    (users.rows.filter fun u ↦ decide (OwnedBy c u)).map fun u ↦
      (c.digitalContentId, u.primaryId, u.secondaryIds)

/-- The content is marked. -/
def DigitalContent.mark : DigitalContent :=
  { c with isAvailable := false, isDelete := true }

/-- Some rows are marked. -/
def Contents.mark (contents : Contents) (p : DigitalContent → Prop) [DecidablePred p] :
    Contents where
  rows := contents.rows.map fun c ↦ if p c then c.mark else c
  current := by
    have hsame : ∀ c : DigitalContent, (if p c then c.mark else c).isCurrent = c.isCurrent ∧
        (if p c then c.mark else c).digitalContentId = c.digitalContentId := by
      intro c
      split
      · exact ⟨rfl, rfl⟩
      · exact ⟨rfl, rfl⟩
    rw [List.filter_map, List.map_map]
    have hfilter : contents.rows.filter
        (DigitalContent.isCurrent ∘ fun c ↦ if p c then c.mark else c) =
        contents.rows.filter DigitalContent.isCurrent :=
      List.filter_congr fun c _ ↦ (hsame c).1
    have hids : DigitalContent.digitalContentId ∘ (fun c ↦ if p c then c.mark else c) =
        DigitalContent.digitalContentId :=
      funext fun c ↦ (hsame c).2
    rw [hfilter, hids]
    exact contents.current

@[simp] theorem Contents.rows_mark (p : DigitalContent → Prop) [DecidablePred p] :
    (contents.mark p).rows = contents.rows.map fun c ↦ if p c then c.mark else c := rfl

/-- A batch that ends without an exception: `update_digital_content_is_available.py:70–110`. -/
def updateBatch (contents : Contents) (batch : List ℕ) :
    Except Raised Contents := do
  let statuses ← (queryReplicaSet contents users batch).mapM fun entry ↦ do
    let available ← isAvailable redis entry
    return (entry.1, available)
  let status := statuses.foldl (fun d s ↦ d.set s.1 s.2) (Dict.empty : Dict ℕ Bool)
  let _ ← (queryDigitalContents contents batch).mapM fun c ↦
    match status.get? c.digitalContentId with
    | none => Except.error (Raised.keyError c.digitalContentId)
    | some available => Except.ok available
  return contents.mark fun c ↦
    c.InBatch batch ∧ status.get? c.digitalContentId = some false

/-- A batch: an exception rolls it back and is logged. -/
def attemptBatch (contents : Contents) (batch : List ℕ) : Contents :=
  match updateBatch users redis contents batch with
  | .ok contents => contents
  | .error _ => contents

/-- `update_digital_content_is_available.py:62–116`, with the members of the set in some order. -/
def updateIsAvailableStatus (contents : Contents) : Contents :=
  overSlices batchSize (attemptBatch users redis) contents redis.allUnavailable

/-! ### What the task is for -/

/-- A full replica set: a primary, two secondaries, and what else is listed. -/
def User.replicaSet? : Option (List (Option ℤ)) :=
  match u.primaryId, u.secondaryIds with
  | some primaryId, some (some secondary1 :: some secondary2 :: rest) =>
    some (some primaryId :: some secondary1 :: some secondary2 :: rest)
  | _, _ => none

/-- The owner has a full replica set, and all its nodes list the content. -/
def Unavailable (c : DigitalContent) : Prop :=
  ∃ u ∈ users.rows, OwnedBy c u ∧ ∃ nodes ∈ u.replicaSet?,
    ∀ spID ∈ nodes, c.digitalContentId ∈ redis.unavailable spID

instance (users : Users) (redis : Redis) (c : DigitalContent) :
    Decidable (Unavailable users redis c) := by
  unfold Unavailable
  infer_instance

/-- The parts of a replica set are read without an exception: there is no primary, or the first
secondary is null, or there are two. -/
def User.Readable : Prop :=
  u.primaryId = none ∨
    ∃ secondaryIds ∈ u.secondaryIds, secondaryIds.head? = some none ∨ 2 ≤ secondaryIds.length

instance (u : User) : Decidable u.Readable := by
  unfold User.Readable
  infer_instance

/-- Each current content of the batch has an owner with a current row that can be read. -/
def Answerable (contents : Contents) (batch : List ℕ) : Prop :=
  ∀ c ∈ contents.rows, c.InBatch batch → ∃ u ∈ users.rows, OwnedBy c u ∧ u.Readable

instance (users : Users) (contents : Contents) (batch : List ℕ) :
    Decidable (Answerable users contents batch) := by
  unfold Answerable
  infer_instance

/-- What is to be marked in the batch has been marked. -/
def Settled (contents : Contents) (batch : List ℕ) : Prop :=
  ∀ c ∈ contents.rows, c.InBatch batch → Unavailable users redis c → c.mark = c

/-- The contents of the batch are marked exactly if they are unavailable; what is marked depends on
no other content. -/
def FollowsReplicaSets (contents : Contents) (batch : List ℕ) (result : Contents) :
    Prop :=
  result.rows = (contents.mark fun c ↦ c.InBatch batch ∧ Unavailable users redis c).rows

variable {users : Users} {redis : Redis} {contents : Contents} {batch : List ℕ}

/-! ### One content -/

variable {digitalContentId : ℕ} {u : User} {c : DigitalContent}

theorem checkDigitalContentIsAvailable_eq_false_iff {nodes : List (Option ℤ)} :
    checkDigitalContentIsAvailable redis digitalContentId nodes = false ↔
      ∀ spID ∈ nodes, digitalContentId ∈ redis.unavailable spID := by
  induction nodes with
  | nil => exact iff_of_true rfl fun spID hspID ↦ by cases hspID
  | cons spID rest ih =>
    unfold checkDigitalContentIsAvailable
    rw [forall_mem_cons, ← ih]
    by_cases hmem : digitalContentId ∈ redis.unavailable spID
    · rw [if_neg (not_not_intro hmem)]
      exact (and_iff_right hmem).symm
    · rw [if_pos hmem]
      exact iff_of_false Bool.true_eq_false.mp fun h ↦ hmem h.1

/-- What a user has in an entry. -/
theorem isAvailable_of_readable (h : u.Readable) (digitalContentId : ℕ) :
    ∃ available, isAvailable redis (digitalContentId, u.primaryId, u.secondaryIds) = .ok available ∧
      (available = false ↔ ∃ nodes ∈ u.replicaSet?, ∀ spID ∈ nodes,
        digitalContentId ∈ redis.unavailable spID) := by
  obtain ⟨userId, isCurrent, primaryId, secondaryIds⟩ := u
  cases primaryId with
  | none =>
    refine ⟨true, rfl, iff_of_false Bool.true_eq_false.mp ?_⟩
    rintro ⟨nodes, ⟨⟩, -⟩
  | some primaryId =>
    obtain ⟨⟨⟩⟩ | ⟨ids, ⟨⟩, hids⟩ := h
    match ids with
    | [] => simp at hids
    | none :: rest =>
      refine ⟨true, rfl, iff_of_false Bool.true_eq_false.mp ?_⟩
      rintro ⟨nodes, ⟨⟩, -⟩
    | [some secondary1] => simp at hids
    | some secondary1 :: none :: rest =>
      refine ⟨true, rfl, iff_of_false Bool.true_eq_false.mp ?_⟩
      rintro ⟨nodes, ⟨⟩, -⟩
    | some secondary1 :: some secondary2 :: rest =>
      refine ⟨_, rfl, checkDigitalContentIsAvailable_eq_false_iff.trans ?_⟩
      constructor
      · exact fun hall ↦ ⟨_, rfl, hall⟩
      · rintro ⟨nodes, ⟨⟩, hall⟩
        exact hall

/-- A part of a replica set raises. -/
theorem readable_of_isAvailable
    (h : Succeeds (isAvailable redis (digitalContentId, u.primaryId, u.secondaryIds))) :
    u.Readable := by
  obtain ⟨userId, isCurrent, primaryId, secondaryIds⟩ := u
  obtain ⟨available, hok⟩ := h
  cases primaryId with
  | none => exact .inl rfl
  | some primaryId =>
    match secondaryIds with
    | none => cases hok
    | some [] => cases hok
    | some (none :: rest) => exact .inr ⟨none :: rest, rfl, .inl rfl⟩
    | some [some _] => cases hok
    | some (some secondary1 :: secondary2 :: rest) =>
      exact .inr ⟨_, rfl, .inr (Nat.le_add_left 2 rest.length)⟩

/-! ### A batch -/

/-- Two current rows of one owner are one row. -/
theorem OwnedBy.unique {u' : User} (h : OwnedBy c u) (h' : OwnedBy c u') (hu : u ∈ users.rows)
    (hu' : u' ∈ users.rows) : u = u' :=
  inj_on_of_nodup_map users.current (mem_filter.mpr ⟨hu, h.1⟩)
    (mem_filter.mpr ⟨hu', h'.1⟩) (h.2.trans h'.2.symm)

/-- Two rows in a batch of one content are one row. -/
theorem DigitalContent.InBatch.unique {c' : DigitalContent} (h : c.InBatch batch)
    (h' : c'.InBatch batch) (hc : c ∈ contents.rows) (hc' : c' ∈ contents.rows)
    (hid : c.digitalContentId = c'.digitalContentId) : c = c' :=
  inj_on_of_nodup_map contents.current (mem_filter.mpr ⟨hc, h.1⟩)
    (mem_filter.mpr ⟨hc', h'.1⟩) hid

theorem mem_queryDigitalContents :
    c ∈ queryDigitalContents contents batch ↔ c ∈ contents.rows ∧ c.InBatch batch := by
  rw [queryDigitalContents, mem_filter, decide_eq_true_iff]

theorem mem_queryReplicaSet {entry : Entry} :
    entry ∈ queryReplicaSet contents users batch ↔
      ∃ c ∈ contents.rows, c.InBatch batch ∧ ∃ u ∈ users.rows, OwnedBy c u ∧
        (c.digitalContentId, u.primaryId, u.secondaryIds) = entry := by
  unfold queryReplicaSet
  rw [mem_flatMap]
  constructor
  · rintro ⟨c, hc, hentry⟩
    obtain ⟨u, hu, heq⟩ := mem_map.mp hentry
    obtain ⟨hmem, howned⟩ := mem_filter.mp hu
    obtain ⟨hrow, hbatch⟩ := mem_queryDigitalContents.mp hc
    exact ⟨c, hrow, hbatch, u, hmem, of_decide_eq_true howned, heq⟩
  · rintro ⟨c, hrow, hbatch, u, hmem, howned, heq⟩
    exact ⟨c, mem_queryDigitalContents.mpr ⟨hrow, hbatch⟩,
      mem_map.mpr ⟨u, mem_filter.mpr ⟨hmem, decide_eq_true howned⟩, heq⟩⟩

/-- The status of an entry that can be read. -/
def statusOf (redis : Redis) (entry : Entry) : ℕ × Bool :=
  (entry.1, match isAvailable redis entry with
    | .ok available => available
    | .error _ => true)

/-- The statuses of a batch by content. -/
def statuses (users : Users) (redis : Redis) (contents : Contents) (batch : List ℕ) :
    Dict ℕ Bool :=
  (queryReplicaSet contents users batch).foldl
    (fun d entry ↦ d.set entry.1 (statusOf redis entry).2) Dict.empty

/-- The statuses are found exactly if all entries can be read. -/
theorem mapM_isAvailable_eq_ok_iff {entries : List Entry} {list : List (ℕ × Bool)} :
    (entries.mapM fun entry ↦ do
      let available ← isAvailable redis entry
      return (entry.1, available)) = Except.ok list ↔
    (∀ entry ∈ entries, Succeeds (isAvailable redis entry)) ∧
      list = entries.map (statusOf redis) := by
  have hentry : ∀ entry, Succeeds (do
      let available ← isAvailable redis entry
      return (entry.1, available) : Except Raised (ℕ × Bool)) ↔
        Succeeds (isAvailable redis entry) := by
    intro entry
    cases isAvailable redis entry with
    | ok available => exact iff_of_true ⟨_, rfl⟩ ⟨_, rfl⟩
    | error raised => exact iff_of_false (not_succeeds rfl) (not_succeeds rfl)
  have hlist : ∀ found, (entries.mapM fun entry ↦ do
      let available ← isAvailable redis entry
      return (entry.1, available)) = Except.ok found →
        found = entries.map (statusOf redis) := by
    intro found hfound
    rw [← map_id found]
    refine map_of_mapM_eq_ok (fun entry status hok ↦ ?_) hfound
    obtain ⟨available, havailable, hpair⟩ := bind_eq_ok.mp hok
    cases hpair
    unfold statusOf
    rw [havailable]
    rfl
  constructor
  · intro h
    refine ⟨fun entry hmem ↦ ?_, hlist list h⟩
    exact (hentry entry).mp ((succeeds_mapM_iff _).mp ⟨list, h⟩ entry hmem)
  · rintro ⟨hentries, rfl⟩
    obtain ⟨found, hfound⟩ := (succeeds_mapM_iff _).mpr fun entry hmem ↦
      (hentry entry).mpr (hentries entry hmem)
    rw [← hlist found hfound]
    exact hfound

/-- A status is read exactly if the dictionary has one. -/
theorem succeeds_status_iff {status : Dict ℕ Bool} :
    Succeeds (match status.get? digitalContentId with
      | none => Except.error (Raised.keyError digitalContentId)
      | some available => Except.ok available) ↔ status.get? digitalContentId ≠ none := by
  cases status.get? digitalContentId with
  | none => exact iff_of_false (not_succeeds rfl) fun h ↦ h rfl
  | some available => exact iff_of_true ⟨available, rfl⟩ (Option.some_ne_none available)

/-- A batch ends exactly if its entries can be read and its contents have entries. -/
theorem updateBatch_eq_ok_iff {result : Contents} :
    updateBatch users redis contents batch = .ok result ↔
      (∀ entry ∈ queryReplicaSet contents users batch, Succeeds (isAvailable redis entry)) ∧
      (∀ c ∈ queryDigitalContents contents batch,
        (statuses users redis contents batch).get? c.digitalContentId ≠ none) ∧
      result = contents.mark fun c ↦ c.InBatch batch ∧
        (statuses users redis contents batch).get? c.digitalContentId = some false := by
  have hdict : ((queryReplicaSet contents users batch).map (statusOf redis)).foldl
      (fun d s ↦ d.set s.1 s.2) Dict.empty = statuses users redis contents batch := by
    rw [foldl_map]
    rfl
  constructor
  · intro h
    obtain ⟨list, hlist, hrest⟩ := bind_eq_ok.mp h
    obtain ⟨hentries, rfl⟩ := mapM_isAvailable_eq_ok_iff.mp hlist
    obtain ⟨found, hfound, hresult⟩ := bind_eq_ok.mp hrest
    rw [hdict] at hfound hresult
    cases hresult
    refine ⟨hentries, fun c hmem ↦ ?_, rfl⟩
    exact succeeds_status_iff.mp ((succeeds_mapM_iff _).mp ⟨_, hfound⟩ c hmem)
  · rintro ⟨hentries, hcontents, rfl⟩
    obtain ⟨found, hfound⟩ := (succeeds_mapM_iff _).mpr fun c hmem ↦
      succeeds_status_iff.mpr (hcontents c hmem)
    refine bind_eq_ok.mpr ⟨_, mapM_isAvailable_eq_ok_iff.mpr ⟨hentries, rfl⟩, ?_⟩
    rw [hdict]
    exact bind_eq_ok.mpr ⟨found, hfound, rfl⟩

/-- The status of a content with a current owner. -/
theorem get?_statuses (hc : c ∈ contents.rows) (hbatch : c.InBatch batch) (hu : u ∈ users.rows)
    (howned : OwnedBy c u) :
    (statuses users redis contents batch).get? c.digitalContentId =
      some (statusOf redis (c.digitalContentId, u.primaryId, u.secondaryIds)).2 := by
  have hmem : (c.digitalContentId, u.primaryId, u.secondaryIds) ∈
      queryReplicaSet contents users batch :=
    mem_queryReplicaSet.mpr ⟨c, hc, hbatch, u, hu, howned, rfl⟩
  refine @get?_foldl_set_of_mem ℕ Entry Bool _ Prod.fst (fun entry ↦ (statusOf redis entry).2) _ _
    hmem ?_ Dict.empty
  intro entry hentry hkey
  obtain ⟨c', hc', hbatch', u', hu', howned', rfl⟩ := mem_queryReplicaSet.mp hentry
  obtain rfl := hbatch'.unique hbatch hc' hc hkey
  rw [howned'.unique howned hu' hu]

/-- A batch all of whose contents are answered for ends, and marks what is unavailable. -/
theorem updateBatch_of_answerable (h : Answerable users contents batch) :
    ∃ result, updateBatch users redis contents batch = .ok result ∧
      FollowsReplicaSets users redis contents batch result := by
  refine ⟨_, updateBatch_eq_ok_iff.mpr ⟨?_, ?_, rfl⟩, ?_⟩
  · intro entry hentry
    obtain ⟨c, hc, hbatch, u, hu, howned, rfl⟩ := mem_queryReplicaSet.mp hentry
    obtain ⟨u', hu', howned', hreadable⟩ := h c hc hbatch
    obtain rfl := howned'.unique howned hu' hu
    obtain ⟨available, hok, -⟩ := @isAvailable_of_readable redis u' hreadable
      c.digitalContentId
    exact ⟨available, hok⟩
  · intro c hmem
    obtain ⟨hc, hbatch⟩ := mem_queryDigitalContents.mp hmem
    obtain ⟨u, hu, howned, -⟩ := h c hc hbatch
    rw [get?_statuses hc hbatch hu howned]
    exact Option.some_ne_none _
  · apply map_congr_left
    intro c hc
    have hiff : (c.InBatch batch ∧
        (statuses users redis contents batch).get? c.digitalContentId = some false) ↔
        c.InBatch batch ∧ Unavailable users redis c := by
      apply and_congr_right
      intro hbatch
      obtain ⟨u, hu, howned, hreadable⟩ := h c hc hbatch
      obtain ⟨available, hok, havailable⟩ := @isAvailable_of_readable redis u hreadable
        c.digitalContentId
      rw [get?_statuses hc hbatch hu howned]
      unfold statusOf
      simp only [hok]
      rw [Option.some_inj, havailable]
      constructor
      · exact fun hnodes ↦ ⟨u, hu, howned, hnodes⟩
      · rintro ⟨u', hu', howned', hnodes⟩
        rwa [howned'.unique howned hu' hu] at hnodes
    simp only [hiff]

/-- A batch that ends has an owner for each of its contents. -/
theorem answerable_of_updateBatch {result : Contents}
    (h : updateBatch users redis contents batch = .ok result) :
    Answerable users contents batch := by
  obtain ⟨hentries, hcontents, -⟩ := updateBatch_eq_ok_iff.mp h
  intro c hc hbatch
  have hfound := hcontents c (mem_queryDigitalContents.mpr ⟨hc, hbatch⟩)
  have hexists : ∃ entry ∈ queryReplicaSet contents users batch,
      entry.1 = c.digitalContentId := by
    by_contra hnone
    apply hfound
    exact @get?_foldl_set_of_not_mem ℕ Entry Bool _ Prod.fst
      (fun entry ↦ (statusOf redis entry).2) _ _
      (fun entry hmem heq ↦ hnone ⟨entry, hmem, heq⟩) Dict.empty
  obtain ⟨entry, hmem, hkey⟩ := hexists
  have hread := hentries entry hmem
  obtain ⟨c', hc', hbatch', u, hu, howned, rfl⟩ := mem_queryReplicaSet.mp hmem
  obtain rfl := hbatch'.unique hbatch hc' hc hkey
  exact ⟨u, hu, howned, readable_of_isAvailable hread⟩

/-- The rows after a batch. -/
theorem rows_attemptBatch : (attemptBatch users redis contents batch).rows =
    (contents.mark fun c ↦
      Answerable users contents batch ∧ c.InBatch batch ∧ Unavailable users redis c).rows := by
  unfold attemptBatch
  cases hbatch : updateBatch users redis contents batch with
  | ok result =>
    have hanswerable := answerable_of_updateBatch hbatch
    obtain ⟨result', hok, hfollows⟩ := @updateBatch_of_answerable users redis _ _ hanswerable
    rw [hbatch] at hok
    cases hok
    simp only [hanswerable, true_and]
    exact hfollows
  | error raised =>
    have hnot : ¬ Answerable users contents batch := by
      intro hanswerable
      obtain ⟨result, hok, -⟩ := @updateBatch_of_answerable users redis _ _ hanswerable
      rw [hbatch] at hok
      cases hok
    simp only [hnot, false_and]
    exact (map_id _).symm

/-! ### The batches -/

@[simp] theorem DigitalContent.mark_mark (c : DigitalContent) : c.mark.mark = c.mark := rfl

/-- Marks change neither what is in a batch nor who owns it. -/
theorem answerable_of_rows {contents' : Contents} {p : DigitalContent → Prop} [DecidablePred p]
    (h : contents'.rows = (contents.mark p).rows) :
    Answerable users contents' batch ↔ Answerable users contents batch := by
  unfold Answerable
  rw [h, Contents.rows_mark, forall_mem_map]
  apply forall₂_congr
  intro c hc
  split
  · exact Iff.rfl
  · exact Iff.rfl

/-- The rows after some batches. -/
theorem rows_foldl_attemptBatch (batches : List (List ℕ)) (contents : Contents) :
    (batches.foldl (attemptBatch users redis) contents).rows =
      (contents.mark fun c ↦ ∃ batch ∈ batches,
        Answerable users contents batch ∧ c.InBatch batch ∧ Unavailable users redis c).rows := by
  induction batches generalizing contents with
  | nil => simp
  | cons batch batches ih =>
    rw [foldl_cons, ih]
    have hanswerable : ∀ batch', Answerable users (attemptBatch users redis contents batch) batch' ↔
        Answerable users contents batch' :=
      fun batch' ↦ answerable_of_rows rows_attemptBatch
    simp only [hanswerable]
    rw [Contents.rows_mark, Contents.rows_mark, rows_attemptBatch, Contents.rows_mark, map_map]
    apply map_congr_left
    intro c hc
    dsimp only [Function.comp]
    by_cases hfirst : Answerable users contents batch ∧ c.InBatch batch ∧ Unavailable users redis c
    · simp only [hfirst, and_self, if_true, c.mark_mark, ite_self, exists_mem_cons_iff, true_or]
    · simp only [hfirst, if_false, exists_mem_cons_iff, false_or]

/-- A row is listed exactly if it is in one of the batches. -/
theorem DigitalContent.inBatch_iff_exists_slice {size : ℕ} {ids : List ℕ} (c : DigitalContent) :
    c.InBatch ids ↔ ∃ batch ∈ slices size ids, c.InBatch batch := by
  unfold DigitalContent.InBatch
  conv_lhs => rw [← flatten_slices size ids, mem_flatten]
  constructor
  · rintro ⟨hcurrent, batch, hbatch, hid⟩
    exact ⟨batch, hbatch, hcurrent, hid⟩
  · rintro ⟨batch, hbatch, hcurrent, hid⟩
    exact ⟨hcurrent, batch, hbatch, hid⟩

end ContentAvailability

open ContentAvailability in
/-- The contents that some node lists are marked exactly if they are unavailable, whatever other
contents are listed, if and only if in each batch each current content has an owner with a current
row whose replica set can be read, or nothing is left to mark. -/
theorem updateIsAvailableStatus_follows_iff (users : Users) (redis : Redis) (contents : Contents) :
    FollowsReplicaSets users redis contents redis.allUnavailable
        (updateIsAvailableStatus users redis contents) ↔
      ∀ batch ∈ slices batchSize redis.allUnavailable,
        Answerable users contents batch ∨ Settled users redis contents batch := by
  unfold updateIsAvailableStatus FollowsReplicaSets
  rw [overSlices_eq_foldl, rows_foldl_attemptBatch, Contents.rows_mark, Contents.rows_mark,
    List.map_inj_left]
  constructor
  · intro h batch hbatch
    by_cases hanswerable : Answerable users contents batch
    · exact .inl hanswerable
    · right
      intro c hc hin hunavailable
      have hlisted := c.inBatch_iff_exists_slice.mpr ⟨batch, hbatch, hin⟩
      have hrow := h c hc
      rw [if_pos (And.intro hlisted hunavailable), if_neg] at hrow
      · exact hrow.symm
      · rintro ⟨batch', hbatch', hanswerable', hin', -⟩
        rw [eq_of_mem_slices redis.nodup hbatch hbatch' hin.2 hin'.2] at hanswerable
        exact hanswerable hanswerable'
  · intro h c hc
    by_cases hmark : c.InBatch redis.allUnavailable ∧ Unavailable users redis c
    · rw [if_pos hmark]
      obtain ⟨batch, hbatch, hin⟩ := c.inBatch_iff_exists_slice.mp hmark.1
      rcases h batch hbatch with hanswerable | hsettled
      · rw [if_pos ⟨batch, hbatch, hanswerable, hin, hmark.2⟩]
      · rw [hsettled c hc hin hmark.2, ite_self]
    · rw [if_neg hmark, if_neg]
      rintro ⟨batch, hbatch, -, hin, hunavailable⟩
      exact hmark ⟨c.inBatch_iff_exists_slice.mpr ⟨batch, hbatch, hin⟩, hunavailable⟩

open ContentAvailability in
/-- Three nodes list the content of owner 7, but a listed content of owner 8, who has no row, keeps
it as it is. -/
theorem not_follows_ownerWithoutRow :
    ¬ ∀ (users : Users) (redis : Redis) (contents : Contents),
      FollowsReplicaSets users redis contents redis.allUnavailable
        (updateIsAvailableStatus users redis contents) := by
  intro h
  have hrows := h
    ⟨[⟨7, true, some 1, some [some 2, some 3]⟩], by decide⟩
    ⟨fun _ ↦ [1, 2], [1, 2], by decide⟩
    ⟨[⟨1, 7, true, true, false⟩, ⟨2, 8, true, true, false⟩], by decide⟩
  unfold updateIsAvailableStatus FollowsReplicaSets at hrows
  revert hrows
  decide +kernel

end ColivingSpec.Discovery
