import ColivingSpec.Lib.ByKey
import ColivingSpec.Lib.Checked
import ColivingSpec.Lib.PagedListing
import Mathlib.Data.List.Dedup
import Mathlib.Data.List.Sort
import Mathlib.Order.Bounds.Defs

/-!
# The pages of a feed

The feed of a user lists what followees have created and reposted. Its queries are each cut to the
limit of the request, and so is the sorted result. The offset is read with the limit, but no query
is given it, so that a request for a later page is answered with the first one.
-/

namespace ColivingSpec.Discovery

open Lib List

namespace FeedPages

inductive FeedFilter where
  | all
  | repost
  | original
  deriving DecidableEq, Repr

inductive RepostType where
  | digitalContent
  | contentList
  | album
  deriving DecidableEq, Repr

/-- A row of contents, as far as the feed reads it. Times are in microseconds. -/
structure DigitalContent where
  digitalContentId : ℕ
  ownerId : ℕ
  createdAt : ℤ
  isCurrent : Bool
  isDelete : Bool
  isUnlisted : Bool
  stemOf : Option ℕ
  deriving DecidableEq, Repr

/-- A row of `content_lists`, with the contents that `content_list_contents` names. -/
structure ContentList where
  contentListId : ℕ
  contentListOwnerId : ℕ
  createdAt : ℤ
  isCurrent : Bool
  isDelete : Bool
  isPrivate : Bool
  digitalContentIds : List ℕ
  deriving DecidableEq, Repr

/-- A row of `reposts`. -/
structure Repost where
  userId : ℕ
  repostItemId : ℕ
  repostType : RepostType
  createdAt : ℤ
  isCurrent : Bool
  isDelete : Bool
  deriving DecidableEq, Repr

/-- A row of `follows`. -/
structure Follow where
  followerUserId : ℕ
  followeeUserId : ℕ
  isCurrent : Bool
  isDelete : Bool
  deriving DecidableEq, Repr

/-- The tables that the feed reads: at most one current row for each content and each list. -/
structure Database where
  digitalContents : List DigitalContent
  contentLists : List ContentList
  reposts : List Repost
  follows : List Follow
  currentContents :
    ((digitalContents.filter DigitalContent.isCurrent).map DigitalContent.digitalContentId).Nodup
  currentLists :
    ((contentLists.filter ContentList.isCurrent).map ContentList.contentListId).Nodup

/-- The arguments of `get_feed_sql`. -/
structure Args where
  filter : FeedFilter
  digitalContentsOnly : Bool
  followeeUserIds : List ℕ
  userId : ℕ
  deriving DecidableEq, Repr

/-- The query parameters of the request. -/
structure Request where
  limit : Option ℤ
  offset : Option ℤ
  deriving DecidableEq, Repr

/-- The dictionary of timestamps has no entry for an item. -/
inductive Raised where
  | keyError (itemId : ℕ)
  deriving DecidableEq, Repr

/-! ### Pagination -/

def defaultLimit : ℤ := 100
def minLimit : ℤ := 1
def maxLimit : ℤ := 500
def defaultOffset : ℤ := 0
def minOffset : ℤ := 0

/-- `query_helpers.py:1020–1026`. -/
def getPaginationVars (request : Request) : ℤ × ℤ :=
  (min (max (request.limit.getD defaultLimit) minLimit) maxLimit,
    max (request.offset.getD defaultOffset) minOffset)

/-- `query_helpers.py:1029–1035`. -/
def paginateQuery {α : Type} (request : Request) (rows : List α) (applyOffset : Bool := true) :
    List α :=
  let (limit, offset) := getPaginationVars request
  let rows := if applyOffset then rows.drop offset.toNat else rows
  rows.take limit.toNat

/-- `order_by(desc(key))`; what compares alike keeps its order. -/
def orderByDesc {α : Type} (key : α → ℤ) (rows : List α) : List α :=
  rows.insertionSort fun a b ↦ key b ≤ key a

/-! ### What followees created -/

/-- `get_feed.py:49–65`. -/
def followeeUserIds (db : Database) (args : Args) : List ℕ :=
  if args.followeeUserIds = [] then
    (db.follows.filter fun f ↦
      decide (f.followerUserId = args.userId ∧ f.isCurrent = true ∧ f.isDelete = false)).map
        Follow.followeeUserId
  else args.followeeUserIds

/-- The rows that a feed may list. -/
def DigitalContent.Live (c : DigitalContent) : Prop :=
  c.isCurrent = true ∧ c.isDelete = false ∧ c.isUnlisted = false ∧ c.stemOf = none

instance (c : DigitalContent) : Decidable c.Live := by
  unfold DigitalContent.Live
  infer_instance

def ContentList.Live (l : ContentList) : Prop :=
  l.isCurrent = true ∧ l.isDelete = false ∧ l.isPrivate = false

instance (l : ContentList) : Decidable l.Live := by
  unfold ContentList.Live
  infer_instance

variable (db : Database) (args : Args) (r : Repost)

variable (request : Request)

/-- `get_feed.py:70–81`. -/
def createdContentLists : List ContentList :=
  if args.digitalContentsOnly then []
  else
    paginateQuery request (orderByDesc ContentList.createdAt (db.contentLists.filter fun l ↦
      decide (l.Live ∧ l.contentListOwnerId ∈ followeeUserIds db args))) false

/-- Ten minutes. -/
def digitalContentDedupeMaxMicroseconds : ℤ := 10 * 60 * 1000000

/-- The content has the owner of the list and was created shortly before it. -/
def SameAction (c : DigitalContent) (l : ContentList) : Prop :=
  c.ownerId = l.contentListOwnerId ∧ c.createdAt ≤ l.createdAt ∧
    l.createdAt - c.createdAt ≤ digitalContentDedupeMaxMicroseconds

instance (c : DigitalContent) (l : ContentList) : Decidable (SameAction c l) := by
  unfold SameAction
  infer_instance

/-- `get_unpopulated_digital_contents.py:43–101`, where the cache holds rows of the table. -/
def getUnpopulatedDigitalContents (ids : List ℕ) : List DigitalContent :=
  db.digitalContents.filter fun c ↦ decide (c.isCurrent = true ∧ c.stemOf = none ∧
    c.isUnlisted = false ∧ c.digitalContentId ∈ ids)

/-- `get_feed.py:83–115`. -/
def digitalContentsToDedupe (lists : List ContentList) : List ℕ :=
  let found := getUnpopulatedDigitalContents db (lists.flatMap ContentList.digitalContentIds)
  lists.flatMap fun l ↦ l.digitalContentIds.filter fun id ↦
    decide (∃ c ∈ found, c.digitalContentId = id ∧ SameAction c l)

/-- `get_feed.py:121–135`. -/
def createdDigitalContents (dedupe : List ℕ) : List DigitalContent :=
  paginateQuery request (orderByDesc DigitalContent.createdAt (db.digitalContents.filter fun c ↦
    decide (c.Live ∧ c.ownerId ∈ followeeUserIds db args ∧ c.digitalContentId ∉ dedupe))) false

/-- What the filter lets through of it: `get_feed.py:67–141`. -/
def created : List DigitalContent × List ContentList :=
  if args.filter = .repost then ([], [])
  else
    let lists := createdContentLists db args request
    (createdDigitalContents db args request (digitalContentsToDedupe db lists), lists)

/-! ### What followees reposted -/

/-- A current repost of a followee. -/
def Repost.ByFollowee : Prop :=
  r.isCurrent = true ∧ r.isDelete = false ∧ r.userId ∈ followeeUserIds db args

instance (db : Database) (args : Args) (r : Repost) : Decidable (r.ByFollowee db args) := by
  unfold Repost.ByFollowee
  infer_instance

/-- The created items of the feed, which reposts leave out. -/
def Repost.Excluded (created : List DigitalContent × List ContentList) (r : Repost) : Prop :=
  args.filter = .all ∧
    if r.repostType = .digitalContent then
      r.repostItemId ∈ created.1.map DigitalContent.digitalContentId
    else r.repostItemId ∈ created.2.map ContentList.contentListId

instance (args : Args) (created : List DigitalContent × List ContentList) (r : Repost) :
    Decidable (r.Excluded args created) := by
  unfold Repost.Excluded
  infer_instance

/-- What is reposted. -/
def Repost.item : ℕ × RepostType := (r.repostItemId, r.repostType)

/-- The items with their oldest reposts: `get_feed.py:143–179`. -/
def followeeReposts (created : List DigitalContent × List ContentList) :
    List ((ℕ × RepostType) × ℤ) :=
  if args.filter = .original then []
  else
    let rows := db.reposts.filter fun r ↦
      decide (r.ByFollowee db args ∧ ¬ r.Excluded args created)
    let groups := (rows.map Repost.item).dedup.filterMap fun item ↦
      ((rows.filter fun r ↦ decide (r.item = item)).map Repost.createdAt).min?.map (Prod.mk item)
    paginateQuery request (orderByDesc Prod.snd groups) false

/-- The timestamps of the reposts whose type is as given: `get_feed.py:181–196`. -/
def repostTimestampDict (ofType : RepostType → Bool) (reposts : List ((ℕ × RepostType) × ℤ)) :
    Dict ℕ ℤ :=
  (reposts.filter fun r ↦ ofType r.1.2).foldl (fun d r ↦ d.set r.1.1 r.2) Dict.empty

def digitalContentRepostTimestampDict : List ((ℕ × RepostType) × ℤ) → Dict ℕ ℤ :=
  repostTimestampDict fun t ↦ decide (t = .digitalContent)

def contentListRepostTimestampDict : List ((ℕ × RepostType) × ℤ) → Dict ℕ ℤ :=
  repostTimestampDict fun t ↦ decide (t = .contentList ∨ t = .album)

/-- `get_feed.py:199–215`. -/
def repostedDigitalContents (created : List DigitalContent × List ContentList)
    (timestamps : Dict ℕ ℤ) :
    List DigitalContent :=
  orderByDesc DigitalContent.createdAt (db.digitalContents.filter fun c ↦
    decide (c.Live ∧ c.digitalContentId ∈ timestamps.items.map Prod.fst ∧
      ¬ (args.filter = .all ∧
        c.digitalContentId ∈ created.1.map DigitalContent.digitalContentId)))

/-- `get_feed.py:217–234`. -/
def repostedContentLists (created : List DigitalContent × List ContentList) (timestamps : Dict ℕ ℤ) :
    List ContentList :=
  if args.digitalContentsOnly then []
  else
    orderByDesc ContentList.createdAt (db.contentLists.filter fun l ↦
      decide (l.Live ∧ l.contentListId ∈ timestamps.items.map Prod.fst ∧
        ¬ (args.filter = .all ∧ l.contentListId ∈ created.2.map ContentList.contentListId)))

/-! ### The feed -/

/-- An item of a feed. -/
inductive Item where
  | digitalContent (c : DigitalContent)
  | contentList (l : ContentList)
  deriving DecidableEq, Repr

def Item.ownerId : Item → ℕ
  | .digitalContent c => c.ownerId
  | .contentList l => l.contentListOwnerId

def Item.id : Item → ℕ
  | .digitalContent c => c.digitalContentId
  | .contentList l => l.contentListId

def Item.createdAt : Item → ℤ
  | .digitalContent c => c.createdAt
  | .contentList l => l.createdAt

structure Entry where
  item : Item
  activityTimestamp : ℤ
  deriving DecidableEq, Repr

/-- The time of creation of an item of a followee, the time of the repost of another:
`get_feed.py:249–266`. -/
def entryOf (followees : List ℕ) (timestamps : Dict ℕ ℤ) (item : Item) : Except Raised Entry :=
  if item.ownerId ∈ followees then .ok ⟨item, item.createdAt⟩
  else
    match timestamps.get? item.id with
    | none => .error (.keyError item.id)
    | some timestamp => .ok ⟨item, timestamp⟩

/-- `get_feed.py:41–307`. -/
def getFeedSql : Except Raised (List Entry) := do
  let followees := followeeUserIds db args
  let created := created db args request
  let reposts := followeeReposts db args request created
  let contentTimestamps := digitalContentRepostTimestampDict reposts
  let listTimestamps := contentListRepostTimestampDict reposts
  let digitalContents ←
    (created.1 ++ repostedDigitalContents db args created contentTimestamps).mapM fun c ↦
      entryOf followees contentTimestamps (.digitalContent c)
  let contentLists ←
    (created.2 ++ repostedContentLists db args created listTimestamps).mapM fun l ↦
      entryOf followees listTimestamps (.contentList l)
  let sortedFeed := orderByDesc Entry.activityTimestamp (digitalContents ++ contentLists)
  return sortedFeed.take (getPaginationVars request).1.toNat

/-! ### What the feed is for -/

/-- A public list of a followee. -/
def ContentList.Created (l : ContentList) : Prop :=
  args.digitalContentsOnly = false ∧ l ∈ db.contentLists ∧ l.Live ∧
    l.contentListOwnerId ∈ followeeUserIds db args

/-- A content of a followee that no list of a followee stands for. -/
def DigitalContent.Created (db : Database) (args : Args) (c : DigitalContent) : Prop :=
  c ∈ db.digitalContents ∧ c.Live ∧ c.ownerId ∈ followeeUserIds db args ∧
    ¬ ∃ l : ContentList, l.Created db args ∧ c.digitalContentId ∈ l.digitalContentIds ∧
      SameAction c l

/-- The repost is one of the item. -/
def Repost.Of : Item → Prop
  | .digitalContent c => r.item = (c.digitalContentId, .digitalContent)
  | .contentList l => r.item = (l.contentListId, .contentList) ∨ r.item = (l.contentListId, .album)

/-- An item that a followee reposted. -/
def Item.Reposted (item : Item) : Prop :=
  (match item with
    | .digitalContent c => c ∈ db.digitalContents ∧ c.Live
    | .contentList l => args.digitalContentsOnly = false ∧ l ∈ db.contentLists ∧ l.Live) ∧
  ∃ r ∈ db.reposts, r.ByFollowee db args ∧ r.Of item

/-- An item that a followee created. -/
def Item.Created (db : Database) (args : Args) : Item → Prop
  | .digitalContent c => c.Created db args
  | .contentList l => l.Created db args

/-- The feed of a user under a filter. -/
def Item.InFeed (item : Item) : Prop :=
  match args.filter with
  | .original => item.Created db args
  | .repost => item.Reposted db args
  | .all => item.Created db args ∨ item.Reposted db args

/-- The time of creation of an item of a followee, the time of the oldest repost of another. -/
def Item.IsActivityTimestamp (item : Item) (t : ℤ) : Prop :=
  if item.ownerId ∈ followeeUserIds db args then t = item.createdAt
  else IsLeast {t | ∃ r ∈ db.reposts, r.ByFollowee db args ∧ r.Of item ∧ r.createdAt = t} t

/-- The entries list each item of the feed once, the latest activity first. -/
structure CoversFeed (db : Database) (args : Args) (entries : List Entry) : Prop where
  complete : ∀ item : Item, item ∈ entries.map Entry.item ↔ item.InFeed db args
  once : (entries.map Entry.item).Nodup
  timestamps : ∀ e ∈ entries, e.item.IsActivityTimestamp db args e.activityTimestamp
  descending : entries.Pairwise fun e e' ↦ e'.activityTimestamp ≤ e.activityTimestamp

variable {db : Database} {args : Args} {request : Request}
  {created' : List DigitalContent × List ContentList}

/-! ### Sorted and cut rows -/

theorem mem_of_mem_paginateQuery {α : Type} {rows : List α} {a : α}
    (h : a ∈ paginateQuery request rows false) : a ∈ rows :=
  mem_of_mem_take h

theorem mem_orderByDesc {α : Type} {key : α → ℤ} {rows : List α} {a : α} :
    a ∈ orderByDesc key rows ↔ a ∈ rows :=
  mem_insertionSort _

/-! ### What a page lists -/

theorem mem_createdContentLists {l : ContentList}
    (h : l ∈ createdContentLists db args request) : l.Created db args := by
  unfold createdContentLists at h
  split at h
  · cases h
  · next honly =>
    have hmem := mem_orderByDesc.mp (mem_of_mem_paginateQuery h)
    obtain ⟨hrow, hlive⟩ := mem_filter.mp hmem
    obtain ⟨hlive, howner⟩ := of_decide_eq_true hlive
    exact ⟨Bool.eq_false_iff.mpr honly, hrow, hlive, howner⟩

theorem mem_createdDigitalContents {dedupe : List ℕ} {c : DigitalContent}
    (h : c ∈ createdDigitalContents db args request dedupe) :
    c ∈ db.digitalContents ∧ c.Live ∧ c.ownerId ∈ followeeUserIds db args ∧
      c.digitalContentId ∉ dedupe := by
  have hmem := mem_orderByDesc.mp (mem_of_mem_paginateQuery h)
  obtain ⟨hrow, hwhere⟩ := mem_filter.mp hmem
  exact ⟨hrow, of_decide_eq_true hwhere⟩

/-- A group of reposts has a repost of a followee in it. -/
theorem mem_followeeReposts {e : (ℕ × RepostType) × ℤ}
    (h : e ∈ followeeReposts db args request created') :
    args.filter ≠ .original ∧ ∃ r ∈ db.reposts, r.ByFollowee db args ∧ r.item = e.1 := by
  unfold followeeReposts at h
  split at h
  · cases h
  · next hfilter =>
    refine ⟨hfilter, ?_⟩
    have hmem := mem_orderByDesc.mp (mem_of_mem_paginateQuery h)
    obtain ⟨item, hitem, hgroup⟩ := mem_filterMap.mp hmem
    obtain ⟨r, hr, rfl⟩ := mem_map.mp (mem_dedup.mp hitem)
    obtain ⟨hrow, hwhere⟩ := mem_filter.mp hr
    obtain ⟨oldest, -, rfl⟩ := Option.map_eq_some_iff.mp hgroup
    exact ⟨r, hrow, (of_decide_eq_true hwhere).1, rfl⟩

theorem mem_keys_repostTimestampDict {ofType : RepostType → Bool}
    {reposts : List ((ℕ × RepostType) × ℤ)} {id : ℕ} :
    id ∈ (repostTimestampDict ofType reposts).items.map Prod.fst ↔
      ∃ e ∈ reposts, ofType e.1.2 = true ∧ e.1.1 = id := by
  unfold repostTimestampDict
  rw [@keys_foldl_set ℕ ((ℕ × RepostType) × ℤ) ℤ _ (fun e ↦ e.1.1) Prod.snd, mem_eraseDups, mem_map]
  simp only [mem_filter, and_assoc]

theorem mem_repostedDigitalContents {c : DigitalContent}
    (h : c ∈ repostedDigitalContents db args created'
      (digitalContentRepostTimestampDict (followeeReposts db args request created'))) :
    args.filter ≠ .original ∧ (Item.digitalContent c).Reposted db args := by
  obtain ⟨hrow, hwhere⟩ := mem_filter.mp (mem_orderByDesc.mp h)
  obtain ⟨hlive, hkey, -⟩ := of_decide_eq_true hwhere
  obtain ⟨e, he, htype, hid⟩ := mem_keys_repostTimestampDict.mp hkey
  obtain ⟨hfilter, r, hr, hby, hitem⟩ := mem_followeeReposts he
  refine ⟨hfilter, ⟨hrow, hlive⟩, r, hr, hby, ?_⟩
  rw [Repost.Of, hitem, ← hid, ← of_decide_eq_true htype]

theorem mem_repostedContentLists {l : ContentList}
    (h : l ∈ repostedContentLists db args created'
      (contentListRepostTimestampDict (followeeReposts db args request created'))) :
    args.filter ≠ .original ∧ (Item.contentList l).Reposted db args := by
  unfold repostedContentLists at h
  split at h
  · cases h
  · next honly =>
    obtain ⟨hrow, hwhere⟩ := mem_filter.mp (mem_orderByDesc.mp h)
    obtain ⟨hlive, hkey, -⟩ := of_decide_eq_true hwhere
    obtain ⟨e, he, htype, hid⟩ := mem_keys_repostTimestampDict.mp hkey
    obtain ⟨hfilter, r, hr, hby, hitem⟩ := mem_followeeReposts he
    refine ⟨hfilter, ⟨Bool.eq_false_iff.mpr honly, hrow, hlive⟩, r, hr, hby, ?_⟩
    rw [Repost.Of, hitem, ← hid]
    rcases of_decide_eq_true htype with htype | htype
    · exact .inl (by rw [← htype])
    · exact .inr (by rw [← htype])

/-- The offset of a request is read, and nothing is skipped. -/
theorem getFeedSql_offset (db : Database) (args : Args) (limit offset offset' : Option ℤ) :
    getFeedSql db args ⟨limit, offset⟩ = getFeedSql db args ⟨limit, offset'⟩ :=
  rfl

/-- An empty feed has an empty page. -/
theorem getFeedSql_of_empty (h : ∀ item : Item, ¬ item.InFeed db args) (request : Request) :
    getFeedSql db args request = .ok [] := by
  have hcreated : created db args request = ([], []) := by
    unfold created
    split
    · rfl
    · next hfilter =>
      have hin : ∀ item : Item, item.Created db args → item.InFeed db args := by
        intro item hitem
        unfold Item.InFeed
        cases hf : args.filter with
        | all => exact .inl hitem
        | repost => exact absurd hf hfilter
        | original => exact hitem
      have hlists : createdContentLists db args request = [] :=
        eq_nil_iff_forall_not_mem.mpr fun l hl ↦
          h (.contentList l) (hin _ (mem_createdContentLists hl))
      rw [hlists]
      refine Prod.ext (eq_nil_iff_forall_not_mem.mpr fun c hc ↦ ?_) rfl
      obtain ⟨hrow, hlive, howner, -⟩ := mem_createdDigitalContents hc
      refine h (.digitalContent c) (hin _ ⟨hrow, hlive, howner, ?_⟩)
      rintro ⟨l, hl, -⟩
      exact h (.contentList l) (hin _ hl)
  have hin : ∀ item : Item, args.filter ≠ .original ∧ item.Reposted db args →
      item.InFeed db args := by
    rintro item ⟨hfilter, hitem⟩
    unfold Item.InFeed
    cases hf : args.filter with
    | all => exact .inr hitem
    | repost => exact hitem
    | original => exact absurd hf hfilter
  have hcontents := eq_nil_iff_forall_not_mem.mpr fun c hc ↦
    h (.digitalContent c) (hin _ (@mem_repostedDigitalContents db args request ([], []) c hc))
  have hlists := eq_nil_iff_forall_not_mem.mpr fun l hl ↦
    h (.contentList l) (hin _ (@mem_repostedContentLists db args request ([], []) l hl))
  unfold getFeedSql
  simp only [hcreated, hcontents, hlists, append_nil, mapM_nil, pure_bind]
  exact congrArg Except.ok take_nil

end FeedPages

open FeedPages in
/-- The pages for the offsets 0, `limit`, 2·`limit`, … come to an empty one and list together each
item of the feed once, the latest activity first, if and only if the feed is empty. -/
theorem getFeedSql_coversFeed_iff (db : FeedPages.Database) (args : Args) (limit : ℤ) :
    (∃ entries, ReadsPages (fun offset ↦ getFeedSql db args ⟨some limit, some offset⟩) limit 0
        entries ∧ CoversFeed db args entries) ↔
      ∀ item : Item, ¬ item.InFeed db args := by
  have hconst := readsPages_iff_of_eq (fun offset ↦
    getFeedSql_offset db args (some limit) (some offset) (some 0)) limit 0
  constructor
  · rintro ⟨entries, hpages, hcovers⟩ item hitem
    obtain ⟨-, rfl⟩ := (hconst entries).mp hpages
    cases (hcovers.complete item).mpr hitem
  · intro hempty
    refine ⟨[], (hconst []).mpr ⟨getFeedSql_of_empty hempty _, rfl⟩, ?_⟩
    exact
      { complete := fun item ↦ iff_of_false List.not_mem_nil (hempty item)
        once := List.nodup_nil
        timestamps := fun e he ↦ nomatch he
        descending := List.Pairwise.nil }

open FeedPages in
/-- A followee has created one content: every page lists it. -/
theorem not_coversFeed_oneContent :
    ¬ ∀ (db : FeedPages.Database) (args : Args) (limit : ℤ), ∃ entries,
      ReadsPages (fun offset ↦ getFeedSql db args ⟨some limit, some offset⟩) limit 0 entries ∧
        CoversFeed db args entries := by
  intro h
  obtain ⟨entries, hpages, -⟩ := h
    ⟨[⟨1, 7, 0, true, false, false, none⟩], [], [], [⟨5, 7, true, false⟩], by decide, by decide⟩
    ⟨.all, false, [], 5⟩ 10
  have hfirst := ((readsPages_iff_of_eq (fun offset ↦
    getFeedSql_offset _ _ (some 10) (some offset) (some 0)) 10 0 entries).mp hpages).1
  revert hfirst
  decide +kernel

end ColivingSpec.Discovery
