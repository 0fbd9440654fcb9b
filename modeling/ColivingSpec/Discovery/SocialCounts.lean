import ColivingSpec.Discovery.SocialRows
import Mathlib.Algebra.Order.Ring.Int

/-!
# Social counts and social rows

A trigger counts an addition up and a removal down. The count is that of the rows just when each
row that is added changes whether its item has a row that counts: an addition where there is none,
a removal where there is one. Reverting deletes rows behind the triggers' back, and makes no other
row current, so that it keeps the counts when the deleted rows do not count.
-/

namespace ColivingSpec.Discovery

open Lib List

/-! ### Rows that count -/

section Visible

variable {κ : Type}

/-- The row is current, and no removal. -/
def Row.visible (row : Row (SocialRow κ)) : Bool := row.isCurrent && !row.columns.isDelete

/-- The number of rows that count, of items with a property. -/
def visibleCount (p : κ → Bool) (table : List (Row (SocialRow κ))) : ℕ :=
  table.countP fun row ↦ row.visible && p row.columns.subject

variable (p : κ → Bool) (table : List (Row (SocialRow κ)))
  {handle : Aggregates → SocialRow κ → Aggregates}

@[simp] theorem visibleCount_nil : visibleCount p [] = 0 := rfl

theorem visibleCount_cons (row : Row (SocialRow κ)) (table : List (Row (SocialRow κ))) :
    visibleCount p (row :: table)
      = visibleCount p table + if row.visible && p row.columns.subject then 1 else 0 :=
  countP_cons

theorem visibleCount_append (rows : List (Row (SocialRow κ))) :
    visibleCount p (table ++ rows) = visibleCount p table + visibleCount p rows :=
  countP_append

/-- Rows that do not count may be left out. -/
theorem visibleCount_filter (q : Row (SocialRow κ) → Bool) {table : List (Row (SocialRow κ))}
    (h : ∀ row ∈ table, q row = false → row.visible = false) :
    visibleCount p (table.filter q) = visibleCount p table := by
  unfold visibleCount
  rw [countP_filter]
  apply countP_congr
  intro row hrow
  cases hq : q row with
  | true => simp
  | false => simp [h row hrow hq]

variable [DecidableEq κ]

/-- The rows of one item are demoted. -/
theorem visibleCount_invalidateOld (subject : κ) (table : List (Row (SocialRow κ))) :
    visibleCount p (invalidateOld subject table)
        + (if p subject then visibleCount (· = subject) table else 0)
      = visibleCount p table := by
  induction table with
  | nil => simp [invalidateOld]
  | cons row table ih =>
    have hcons : invalidateOld subject (row :: table)
        = (if row.columns.subject = subject ∧ row.isCurrent then row.demote else row)
          :: invalidateOld subject table := rfl
    rw [hcons, visibleCount_cons, visibleCount_cons, visibleCount_cons, ← ih]
    by_cases hsubject : row.columns.subject = subject
    · subst hsubject
      cases hcurrent : row.isCurrent with
      | false => simp [Row.visible, hcurrent]
      | true =>
        cases p row.columns.subject with
        | false => simp [Row.visible, Row.demote]
        | true =>
          simp only [Row.visible, Row.demote, hcurrent, and_self, if_true, Bool.false_and,
            Bool.true_and, Bool.and_true, decide_true, Bool.false_eq_true, if_false]
          omega
    · simp only [hsubject, false_and, if_false, decide_false, Bool.and_false, Bool.false_eq_true,
        Nat.add_zero]
      omega

/-- The row that is added changes whether its item has a row that counts. -/
def FlipsRow (table : List (Row (SocialRow κ))) (new : SocialRow κ) : Prop :=
  visibleCount (· = new.subject) table = if new.isDelete then 1 else 0

instance (table : List (Row (SocialRow κ))) (new : SocialRow κ) :
    Decidable (FlipsRow table new) := inferInstanceAs (Decidable (_ = _))

/-- Adding a row that changes its item changes the number of rows by what the trigger adds. -/
theorem visibleCount_addSocialRow {table : List (Row (SocialRow κ))} {new : SocialRow κ}
    (h : FlipsRow table new) (p : κ → Bool) (block : ChainBlock) :
    (visibleCount p (addSocialRow block table new) : ℤ)
      = visibleCount p table + if p new.subject then delta new.isDelete else 0 := by
  have hold := visibleCount_invalidateOld p new.subject table
  rw [h] at hold
  have hnew : visibleCount p [Row.new block (freshRowId table, new)]
      = if !new.isDelete && p new.subject then 1 else 0 := by
    rw [visibleCount_cons]
    simp [Row.visible, Row.new]
  rw [addSocialRow, visibleCount_append, hnew, ← hold]
  cases hdelete : new.isDelete with
  | true | false => cases p new.subject <;> simp [delta]

/-- Adding a row of another item does not change the rows of an item. -/
theorem visibleCount_addSocialRow_of_ne {new : SocialRow κ} {subject : κ}
    (hne : new.subject ≠ subject) (block : ChainBlock) :
    visibleCount (· = subject) (addSocialRow block table new)
      = visibleCount (· = subject) table := by
  have hold := visibleCount_invalidateOld (· = subject) new.subject table
  rw [decide_eq_false hne] at hold
  simp only [Bool.false_eq_true, if_false, Nat.add_zero] at hold
  rw [addSocialRow, visibleCount_append, hold, visibleCount_cons]
  simp [Row.new, hne]

/-- A count that a trigger changes with each row of items with a property stays the number of
rows that count, when each row that is added changes its item. -/
theorem counted_foldl (count : Aggregates → ℤ) {p : κ → Bool}
    (hhandle : ∀ agg new, count (handle agg new)
      = count agg + if p new.subject then delta new.isDelete else 0) (block : ChainBlock)
    {rows : List (SocialRow κ)}
    (hdistinct : rows.Pairwise fun row row' ↦ row.subject ≠ row'.subject)
    {table : List (Row (SocialRow κ))} {agg : Aggregates}
    (hflips : ∀ row ∈ rows, FlipsRow table row) (h : count agg = visibleCount p table) :
    count (rows.foldl handle agg)
      = visibleCount p (rows.foldl (addSocialRow block) table) := by
  induction rows generalizing table agg with
  | nil => exact h
  | cons row rows ih =>
    obtain ⟨hrow, hrest⟩ := pairwise_cons.mp hdistinct
    apply ih hrest
    · intro row' hrow'
      have hflip := hflips row' (mem_cons_of_mem _ hrow')
      rw [FlipsRow] at hflip ⊢
      rw [visibleCount_addSocialRow_of_ne table (hrow row' hrow') block]
      exact hflip
    · rw [hhandle, h, visibleCount_addSocialRow (hflips row mem_cons_self)]

omit [DecidableEq κ] in
/-- What a trigger keeps for each row. -/
theorem foldl_kept {P : Aggregates → Prop} (hhandle : ∀ agg new, P agg → P (handle agg new))
    {agg : Aggregates} (h : P agg) (rows : List (SocialRow κ)) : P (rows.foldl handle agg) := by
  induction rows generalizing agg with
  | nil => exact h
  | cons row rows ih => exact ih (hhandle agg row h)

end Visible

/-! ### The counts -/

/-- The counts of reposts are the numbers of current rows that are no removals. -/
structure RepostCounts (agg : Aggregates) (reposts : List (Row (SocialRow Repost))) : Prop where
  user : ∀ id, (agg.user id).repostCount
    = visibleCount (fun repost ↦ repost.userId = id) reposts
  digitalContent : ∀ id, (agg.digitalContent id).repostCount
    = visibleCount
        (fun repost ↦ repost.repostItemId = id ∧ repost.repostType = .digitalContent) reposts
  contentList : ∀ id, (agg.contentList id).repostCount
    = visibleCount
        (fun repost ↦ repost.repostItemId = id ∧ repost.repostType ≠ .digitalContent) reposts

/-- So are the counts of saves. -/
structure SaveCounts (agg : Aggregates) (saves : List (Row (SocialRow Save))) : Prop where
  user : ∀ id, (agg.user id).digitalContentSaveCount
    = visibleCount (fun save ↦ save.userId = id ∧ save.saveType = .digitalContent) saves
  digitalContent : ∀ id, (agg.digitalContent id).saveCount
    = visibleCount (fun save ↦ save.saveItemId = id ∧ save.saveType = .digitalContent) saves
  contentList : ∀ id, (agg.contentList id).saveCount
    = visibleCount (fun save ↦ save.saveItemId = id ∧ save.saveType ≠ .digitalContent) saves

/-- So are the counts of followers and of those that a user follows. -/
structure FollowCounts (agg : Aggregates) (follows : List (Row (SocialRow Follow))) : Prop where
  follower : ∀ id, (agg.user id).followerCount
    = visibleCount (fun follow ↦ follow.followeeUserId = id) follows
  following : ∀ id, (agg.user id).followingCount
    = visibleCount (fun follow ↦ follow.followerUserId = id) follows

/-- Every count is that of the rows. -/
structure CountsExact (db : SocialDatabase) : Prop where
  reposts : RepostCounts db.aggregates db.reposts
  saves : SaveCounts db.aggregates db.saves
  follows : FollowCounts db.aggregates db.follows

section Triggers

variable (agg : Aggregates) (id : ℕ) (new : SocialRow Repost) {agg : Aggregates}
  {reposts : List (Row (SocialRow Repost))} {saves : List (Row (SocialRow Save))}
  {follows : List (Row (SocialRow Follow))}

theorem handleRepost_user :
    (handleRepost agg new).user id = { agg.user id with
      repostCount := (agg.user id).repostCount
        + if new.subject.userId = id then delta new.isDelete else 0 } := by
  by_cases hid : id = new.subject.userId
  · subst hid
    by_cases htype : new.subject.repostType = .digitalContent <;> simp [handleRepost, htype]
  · have hne : ¬ new.subject.userId = id := fun heq ↦ hid heq.symm
    by_cases htype : new.subject.repostType = .digitalContent <;>
      simp [handleRepost, htype, hid, hne]

theorem handleRepost_digitalContent :
    (handleRepost agg new).digitalContent id = { agg.digitalContent id with
      repostCount := (agg.digitalContent id).repostCount
        + if new.subject.repostItemId = id ∧ new.subject.repostType = .digitalContent
          then delta new.isDelete else 0 } := by
  by_cases htype : new.subject.repostType = .digitalContent
  · by_cases hid : id = new.subject.repostItemId
    · simp [handleRepost, htype, hid]
    · have hne : ¬ new.subject.repostItemId = id := fun heq ↦ hid heq.symm
      simp [handleRepost, htype, hid, hne]
  · simp [handleRepost, htype]

theorem handleRepost_contentList :
    (handleRepost agg new).contentList id = { agg.contentList id with
      repostCount := (agg.contentList id).repostCount
        + if new.subject.repostItemId = id ∧ new.subject.repostType ≠ .digitalContent
          then delta new.isDelete else 0 } := by
  by_cases htype : new.subject.repostType = .digitalContent
  · simp [handleRepost, htype]
  · by_cases hid : id = new.subject.repostItemId
    · simp [handleRepost, htype, hid]
    · have hne : ¬ new.subject.repostItemId = id := fun heq ↦ hid heq.symm
      simp [handleRepost, htype, hid, hne]

theorem handleSave_user (new : SocialRow Save) :
    (handleSave agg new).user id = { agg.user id with
      digitalContentSaveCount := (agg.user id).digitalContentSaveCount
        + if new.subject.userId = id ∧ new.subject.saveType = .digitalContent
          then delta new.isDelete else 0 } := by
  by_cases htype : new.subject.saveType = .digitalContent
  · by_cases hid : id = new.subject.userId
    · simp [handleSave, htype, hid]
    · have hne : ¬ new.subject.userId = id := fun heq ↦ hid heq.symm
      simp [handleSave, htype, hid, hne]
  · simp [handleSave, htype]

theorem handleSave_digitalContent (new : SocialRow Save) :
    (handleSave agg new).digitalContent id = { agg.digitalContent id with
      saveCount := (agg.digitalContent id).saveCount
        + if new.subject.saveItemId = id ∧ new.subject.saveType = .digitalContent
          then delta new.isDelete else 0 } := by
  by_cases htype : new.subject.saveType = .digitalContent
  · by_cases hid : id = new.subject.saveItemId
    · simp [handleSave, htype, hid]
    · have hne : ¬ new.subject.saveItemId = id := fun heq ↦ hid heq.symm
      simp [handleSave, htype, hid, hne]
  · simp [handleSave, htype]

theorem handleSave_contentList (new : SocialRow Save) :
    (handleSave agg new).contentList id = { agg.contentList id with
      saveCount := (agg.contentList id).saveCount
        + if new.subject.saveItemId = id ∧ new.subject.saveType ≠ .digitalContent
          then delta new.isDelete else 0 } := by
  by_cases htype : new.subject.saveType = .digitalContent
  · simp [handleSave, htype]
  · by_cases hid : id = new.subject.saveItemId
    · simp [handleSave, htype, hid]
    · have hne : ¬ new.subject.saveItemId = id := fun heq ↦ hid heq.symm
      simp [handleSave, htype, hid, hne]

theorem handleFollow_user (new : SocialRow Follow) :
    (handleFollow agg new).user id = { agg.user id with
      followerCount := (agg.user id).followerCount
        + if new.subject.followeeUserId = id then delta new.isDelete else 0
      followingCount := (agg.user id).followingCount
        + if new.subject.followerUserId = id then delta new.isDelete else 0 } := by
  unfold handleFollow
  rw [Aggregates.user_updateUser, Aggregates.user_updateUser]
  simp only [eq_comm (a := id)]
  split <;> split <;> simp

/-- The trigger of saves leaves the counts of reposts. -/
theorem RepostCounts.handleSave (h : RepostCounts agg reposts) (new : SocialRow Save) :
    RepostCounts (handleSave agg new) reposts where
  user id := by rw [handleSave_user]; exact h.user id
  digitalContent id := by rw [handleSave_digitalContent]; exact h.digitalContent id
  contentList id := by rw [handleSave_contentList]; exact h.contentList id

/-- So does the trigger of follows. -/
theorem RepostCounts.handleFollow (h : RepostCounts agg reposts) (new : SocialRow Follow) :
    RepostCounts (handleFollow agg new) reposts where
  user id := by rw [handleFollow_user]; exact h.user id
  digitalContent := h.digitalContent
  contentList := h.contentList

/-- The triggers of reposts and of follows leave the counts of saves. -/
theorem SaveCounts.handleRepost (h : SaveCounts agg saves) (new : SocialRow Repost) :
    SaveCounts (handleRepost agg new) saves where
  user id := by rw [handleRepost_user]; exact h.user id
  digitalContent id := by rw [handleRepost_digitalContent]; exact h.digitalContent id
  contentList id := by rw [handleRepost_contentList]; exact h.contentList id

theorem SaveCounts.handleFollow (h : SaveCounts agg saves) (new : SocialRow Follow) :
    SaveCounts (handleFollow agg new) saves where
  user id := by rw [handleFollow_user]; exact h.user id
  digitalContent := h.digitalContent
  contentList := h.contentList

/-- The triggers of reposts and of saves leave the counts of follows. -/
theorem FollowCounts.handleRepost (h : FollowCounts agg follows) (new : SocialRow Repost) :
    FollowCounts (handleRepost agg new) follows where
  follower id := by rw [handleRepost_user]; exact h.follower id
  following id := by rw [handleRepost_user]; exact h.following id

theorem FollowCounts.handleSave (h : FollowCounts agg follows) (new : SocialRow Save) :
    FollowCounts (handleSave agg new) follows where
  follower id := by rw [handleSave_user]; exact h.follower id
  following id := by rw [handleSave_user]; exact h.following id

end Triggers

section Rows

variable {agg : Aggregates} (block : ChainBlock)

/-- The rows of reposts of a block, and the trigger for each. -/
theorem RepostCounts.foldl {reposts : List (Row (SocialRow Repost))} (h : RepostCounts agg reposts)
    {rows : List (SocialRow Repost)}
    (hdistinct : rows.Pairwise fun row row' ↦ row.subject ≠ row'.subject)
    (hflips : ∀ row ∈ rows, FlipsRow reposts row) :
    RepostCounts (rows.foldl Discovery.handleRepost agg)
      (rows.foldl (addSocialRow block) reposts) where
  user id := by
    apply counted_foldl (fun agg ↦ (agg.user id).repostCount) _ block hdistinct hflips (h.user id)
    intro agg new
    simp [handleRepost_user]
  digitalContent id := by
    apply counted_foldl (fun agg ↦ (agg.digitalContent id).repostCount) _ block hdistinct hflips
      (h.digitalContent id)
    intro agg new
    simp [handleRepost_digitalContent]
  contentList id := by
    apply counted_foldl (fun agg ↦ (agg.contentList id).repostCount) _ block hdistinct hflips
      (h.contentList id)
    intro agg new
    simp [handleRepost_contentList]

/-- The rows of saves of a block, and the trigger for each. -/
theorem SaveCounts.foldl {saves : List (Row (SocialRow Save))} (h : SaveCounts agg saves)
    {rows : List (SocialRow Save)}
    (hdistinct : rows.Pairwise fun row row' ↦ row.subject ≠ row'.subject)
    (hflips : ∀ row ∈ rows, FlipsRow saves row) :
    SaveCounts (rows.foldl Discovery.handleSave agg)
      (rows.foldl (addSocialRow block) saves) where
  user id := by
    apply counted_foldl (fun agg ↦ (agg.user id).digitalContentSaveCount) _ block hdistinct hflips
      (h.user id)
    intro agg new
    simp [handleSave_user]
  digitalContent id := by
    apply counted_foldl (fun agg ↦ (agg.digitalContent id).saveCount) _ block hdistinct hflips
      (h.digitalContent id)
    intro agg new
    simp [handleSave_digitalContent]
  contentList id := by
    apply counted_foldl (fun agg ↦ (agg.contentList id).saveCount) _ block hdistinct hflips
      (h.contentList id)
    intro agg new
    simp [handleSave_contentList]

/-- The rows of follows of a block, and the trigger for each. -/
theorem FollowCounts.foldl {follows : List (Row (SocialRow Follow))} (h : FollowCounts agg follows)
    {rows : List (SocialRow Follow)}
    (hdistinct : rows.Pairwise fun row row' ↦ row.subject ≠ row'.subject)
    (hflips : ∀ row ∈ rows, FlipsRow follows row) :
    FollowCounts (rows.foldl Discovery.handleFollow agg)
      (rows.foldl (addSocialRow block) follows) where
  follower id := by
    apply counted_foldl (fun agg ↦ (agg.user id).followerCount) _ block hdistinct hflips
      (h.follower id)
    intro agg new
    simp [handleFollow_user]
  following id := by
    apply counted_foldl (fun agg ↦ (agg.user id).followingCount) _ block hdistinct hflips
      (h.following id)
    intro agg new
    simp [handleFollow_user]

end Rows

/-! ### Indexing -/

section Indexing

variable {κ ν : Type} [DecidableEq κ]

/-- The last event of each user and item changes whether the item has a row that counts. -/
def FlipsItems (table : List (Row (SocialRow κ))) (subject : ℕ → ℕ → κ)
    (events : List (Log ν × Bool)) : Prop :=
  ∀ e ∈ events, ∀ isDelete ∈ lastFlag events e.1.userId e.1.itemId,
    FlipsRow table ⟨subject e.1.userId e.1.itemId, isDelete⟩

instance (table : List (Row (SocialRow κ))) (subject : ℕ → ℕ → κ)
    (events : List (Log ν × Bool)) : Decidable (FlipsItems table subject events) :=
  inferInstanceAs (Decidable (∀ e ∈ events, ∀ isDelete ∈ lastFlag events e.1.userId e.1.itemId,
    FlipsRow table ⟨subject e.1.userId e.1.itemId, isDelete⟩))

variable {events : List (Log ν × Bool)}

/-- A last event is one of the events. -/
theorem exists_of_lastFlag {u i : ℕ} {b : Bool} (h : lastFlag events u i = some b) :
    ∃ e ∈ events, e.1.userId = u ∧ e.1.itemId = i := by
  obtain ⟨e, he, -⟩ := Option.map_eq_some_iff.mp h
  have hmem := mem_filter.mp (mem_of_getLast? he)
  exact ⟨e, hmem.1, of_decide_eq_true hmem.2⟩

theorem FlipsItems.flipsRow {table : List (Row (SocialRow κ))} {subject : ℕ → ℕ → κ}
    (h : FlipsItems table subject events) {u i : ℕ} {b : Bool}
    (hlast : lastFlag events u i = some b) : FlipsRow table ⟨subject u i, b⟩ := by
  obtain ⟨e, he, rfl, rfl⟩ := exists_of_lastFlag hlast
  exact h e he b hlast

end Indexing

/-- For each user and item, the last event that is handled in the block is an addition if no row
of the item counts, and a removal if one does. -/
structure Flips (startBlock : ℕ) (db : SocialDatabase) (b : SocialBlock) : Prop where
  digitalContentReposts : FlipsItems db.reposts digitalContentRepost
    (digitalContentRepostEvents (b.socialReceipts startBlock))
  contentListReposts : FlipsItems db.reposts (contentListRepost db.contentLists)
    (contentListRepostEvents (b.socialReceipts startBlock))
  follows : FlipsItems db.follows Follow.mk (followEvents (b.socialReceipts startBlock))
  digitalContentSaves : FlipsItems db.saves digitalContentSave
    (digitalContentSaveEvents (b.libraryReceipts startBlock))
  contentListSaves : ∀ contentLists,
    contentListColumnsKind.indexBlock db.contentLists b.block b.contentLists = .ok contentLists →
      FlipsItems db.saves (contentListSave contentLists)
        (contentListSaveEvents (b.libraryReceipts startBlock))

section Steps

variable {startBlock : ℕ} {db db' : SocialDatabase} {b : SocialBlock}

theorem Flips.repostRows (h : Flips startBlock db b) :
    ∀ row ∈ (socialChanges db.contentLists (b.socialReceipts startBlock)).repostRows,
      FlipsRow db.reposts row := by
  intro row hrow
  obtain ⟨u, i, isDelete, ⟨hlast, rfl⟩ | ⟨hlast, rfl⟩⟩ := (mem_repostRows _ _ row).mp hrow
  · exact h.digitalContentReposts.flipsRow hlast
  · exact h.contentListReposts.flipsRow hlast

theorem Flips.followRows (h : Flips startBlock db b) :
    ∀ row ∈ (socialChanges db.contentLists (b.socialReceipts startBlock)).follows.values,
      FlipsRow db.follows row := by
  intro row hrow
  obtain ⟨u, i, isDelete, hlast, rfl⟩ := ((nets_follows _ _).mem_values row).mp hrow
  exact h.follows.flipsRow hlast

theorem Flips.saveRows (h : Flips startBlock db b) {contentLists : List (Row ContentListColumns)}
    (hlists : contentListColumnsKind.indexBlock db.contentLists b.block b.contentLists
      = .ok contentLists) :
    ∀ row ∈ (libraryChanges contentLists (b.libraryReceipts startBlock)).saveRows,
      FlipsRow db.saves row := by
  intro row hrow
  obtain ⟨u, i, isDelete, ⟨hlast, rfl⟩ | ⟨hlast, rfl⟩⟩ := (mem_saveRows _ _ row).mp hrow
  · exact h.digitalContentSaves.flipsRow hlast
  · exact (h.contentListSaves contentLists hlists).flipsRow hlast

/-- A block that changes each of its items keeps the counts exact. -/
theorem CountsExact.indexBlock (h : CountsExact db) (hflips : Flips startBlock db b)
    (hok : db.indexBlock startBlock b = .ok db') : CountsExact db' := by
  obtain ⟨-, contentLists, hlists, rfl⟩ := SocialDatabase.indexBlock_eq_ok hok
  let social := socialChanges db.contentLists (b.socialReceipts startBlock)
  constructor
  · have hreposts := h.reposts.foldl b.block (pairwise_repostRows _ _) hflips.repostRows
    have hfollows := foldl_kept (P := (RepostCounts · _)) (fun _ new h ↦ h.handleFollow new)
      hreposts
    exact foldl_kept (P := (RepostCounts · _)) (fun _ new h ↦ h.handleSave new) (hfollows _) _
  · have hreposts := foldl_kept (P := (SaveCounts · _)) (fun _ new h ↦ h.handleRepost new) h.saves
    have hfollows := foldl_kept (P := (SaveCounts · _)) (fun _ new h ↦ h.handleFollow new)
      (hreposts social.repostRows)
    exact (hfollows social.follows.values).foldl b.block (pairwise_saveRows _ _)
      (hflips.saveRows hlists)
  · have hreposts := foldl_kept (P := (FollowCounts · _)) (fun _ new h ↦ h.handleRepost new)
      h.follows
    have hfollows := (hreposts social.repostRows).foldl b.block (pairwise_followRows _ _)
      hflips.followRows
    exact foldl_kept (P := (FollowCounts · _)) (fun _ new h ↦ h.handleSave new) hfollows _

/-! ### Reverting -/

/-- The rows of the block do not count. -/
structure NoneCounts (db : SocialDatabase) (block : ChainBlock) : Prop where
  reposts : ∀ row ∈ db.reposts, row.blockhash = some block.hash → row.visible = false
  saves : ∀ row ∈ db.saves, row.blockhash = some block.hash → row.visible = false
  follows : ∀ row ∈ db.follows, row.blockhash = some block.hash → row.visible = false

/-- The rows of the tables are of indexed blocks. -/
structure SocialDatabase.Sound (db : SocialDatabase) : Prop where
  blocks : LatestFirst db.blocks
  reposts : Grounded db.blocks db.reposts
  saves : Grounded db.blocks db.saves
  follows : Grounded db.blocks db.follows

theorem SocialDatabase.Sound.indexBlock (h : db.Sound)
    (hok : db.indexBlock startBlock b = .ok db') : db'.Sound := by
  obtain ⟨hextends, contentLists, -, rfl⟩ := SocialDatabase.indexBlock_eq_ok hok
  constructor
  · exact pairwise_cons.mpr ⟨hextends, h.blocks⟩
  · exact h.reposts.indexRows hextends (pairwise_repostRows _ _)
  · exact h.saves.indexRows hextends (pairwise_saveRows _ _)
  · exact h.follows.indexRows hextends (pairwise_followRows _ _)

variable {block : ChainBlock} {rest : List ChainBlock}

/-- The latest block is reverted. -/
theorem SocialDatabase.Sound.revertBlock_eq (h : db.Sound) (hblocks : db.blocks = block :: rest) :
    db.revertBlock block = { db with
      blocks := rest
      contentLists := contentListColumnsKind.revertBlock db.contentLists block.row
      reposts := db.reposts.filter fun row ↦ row.blockhash ≠ some block.hash
      saves := db.saves.filter fun row ↦ row.blockhash ≠ some block.hash
      follows := db.follows.filter fun row ↦ row.blockhash ≠ some block.hash } := by
  obtain ⟨hchain, hreposts, hsaves, hfollows⟩ := h
  rw [hblocks] at hchain hreposts hsaves hfollows
  have hextends : Extends rest block := (pairwise_cons.mp hchain).1
  have hrest : db.blocks.filter (fun b ↦ b.hash ≠ block.hash) = rest := by
    rw [hblocks, filter_cons_of_neg (by simp)]
    exact filter_eq_self.mpr fun b hb ↦ decide_eq_true (hextends b hb).2
  unfold SocialDatabase.revertBlock
  rw [hrest, hreposts.revertBlock_eq hextends, hsaves.revertBlock_eq hextends,
    hfollows.revertBlock_eq hextends]

theorem SocialDatabase.Sound.revertBlock (h : db.Sound) (hblocks : db.blocks = block :: rest) :
    (db.revertBlock block).Sound := by
  rw [h.revertBlock_eq hblocks]
  obtain ⟨hchain, hreposts, hsaves, hfollows⟩ := h
  rw [hblocks] at hchain hreposts hsaves hfollows
  exact ⟨(pairwise_cons.mp hchain).2, hreposts.filter, hsaves.filter, hfollows.filter⟩

/-- Reverting rows that do not count keeps the counts exact. -/
theorem CountsExact.revertBlock (h : CountsExact db) (hsound : db.Sound)
    (hblocks : db.blocks = block :: rest) (hnone : NoneCounts db block) :
    CountsExact (db.revertBlock block) := by
  rw [hsound.revertBlock_eq hblocks]
  have hreposts : ∀ p, visibleCount p (db.reposts.filter fun row ↦
      row.blockhash ≠ some block.hash) = visibleCount p db.reposts := fun p ↦
    visibleCount_filter p _ fun row hrow hq ↦ hnone.reposts row hrow (by simpa using hq)
  have hsaves : ∀ p, visibleCount p (db.saves.filter fun row ↦
      row.blockhash ≠ some block.hash) = visibleCount p db.saves := fun p ↦
    visibleCount_filter p _ fun row hrow hq ↦ hnone.saves row hrow (by simpa using hq)
  have hfollows : ∀ p, visibleCount p (db.follows.filter fun row ↦
      row.blockhash ≠ some block.hash) = visibleCount p db.follows := fun p ↦
    visibleCount_filter p _ fun row hrow hq ↦ hnone.follows row hrow (by simpa using hq)
  constructor
  · constructor <;> simp only [hreposts]
    exacts [h.reposts.user, h.reposts.digitalContent, h.reposts.contentList]
  · constructor <;> simp only [hsaves]
    exacts [h.saves.user, h.saves.digitalContent, h.saves.contentList]
  · constructor <;> simp only [hfollows]
    exacts [h.follows.follower, h.follows.following]

/-- What does not count before the latest block is reverted does not count afterwards. -/
theorem NoneCounts.revertBlock {other : ChainBlock} (h : NoneCounts db other) (hsound : db.Sound)
    (hblocks : db.blocks = block :: rest) : NoneCounts (db.revertBlock block) other := by
  rw [hsound.revertBlock_eq hblocks]
  constructor
  · exact fun row hrow ↦ h.reposts row (mem_filter.mp hrow).1
  · exact fun row hrow ↦ h.saves row (mem_filter.mp hrow).1
  · exact fun row hrow ↦ h.follows row (mem_filter.mp hrow).1

/-- The latest blocks are reverted one after another. -/
theorem SocialDatabase.Sound.foldl_revertBlock (h : db.Sound) {blocks : List ChainBlock}
    (hblocks : db.blocks = blocks ++ rest) :
    (blocks.foldl SocialDatabase.revertBlock db).Sound ∧
      (CountsExact db → (∀ block ∈ blocks, NoneCounts db block) →
        CountsExact (blocks.foldl SocialDatabase.revertBlock db)) := by
  induction blocks generalizing db with
  | nil => exact ⟨h, fun hcounts _ ↦ hcounts⟩
  | cons block blocks ih =>
    have hrest : (db.revertBlock block).blocks = blocks ++ rest := by
      rw [h.revertBlock_eq hblocks]
      rfl
    obtain ⟨hsound, hcounts⟩ := ih (h.revertBlock hblocks) hrest
    refine ⟨hsound, fun hexact hnone ↦ ?_⟩
    apply hcounts (hexact.revertBlock h hblocks (hnone block mem_cons_self))
    intro other hother
    exact (hnone other (mem_cons_of_mem _ hother)).revertBlock h hblocks

end Steps

/-! ### Runs -/

/-- The condition on a step: a block changes each of its items, and the rows of reverted blocks do
not count. -/
def KeepsCounts (startBlock : ℕ) (db : SocialDatabase) : SocialStep → Prop
  | .indexes b => Flips startBlock db b
  | .reverts count => ∀ block ∈ (db.blocks.take count).take 500, NoneCounts db block

/-- What a step keeps. -/
theorem SocialDatabase.Sound.step {startBlock : ℕ} {db db' : SocialDatabase} {e : SocialStep}
    (h : db.Sound) (hcounts : CountsExact db) (hkeeps : KeepsCounts startBlock db e)
    (hok : socialStep startBlock db e = .ok db') : db'.Sound ∧ CountsExact db' := by
  cases e with
  | indexes b => exact ⟨h.indexBlock hok, hcounts.indexBlock hkeeps hok⟩
  | reverts count =>
    obtain ⟨-, hok⟩ := require_bind_eq_ok.mp hok
    cases pure_eq_ok.mp hok
    have hblocks : db.blocks
        = (db.blocks.take count).take 500 ++ db.blocks.drop (min 500 count) := by
      rw [take_take, take_append_drop]
    obtain ⟨hsound, hexact⟩ := h.foldl_revertBlock hblocks
    exact ⟨hsound, hexact hcounts hkeeps⟩

theorem sound_empty : SocialDatabase.empty.Sound :=
  ⟨List.Pairwise.nil, grounded_nil _, grounded_nil _, grounded_nil _⟩

theorem countsExact_empty : CountsExact SocialDatabase.empty :=
  ⟨⟨fun _ ↦ rfl, fun _ ↦ rfl, fun _ ↦ rfl⟩, ⟨fun _ ↦ rfl, fun _ ↦ rfl, fun _ ↦ rfl⟩,
    fun _ ↦ rfl, fun _ ↦ rfl⟩

/-- Along a run whose blocks change each of their items, and whose reverted rows do not count, the
counts are those of the rows. -/
theorem countsExact_of_along (startBlock : ℕ) (steps : List SocialStep)
    (h : Along (socialStep startBlock) (KeepsCounts startBlock) SocialDatabase.empty steps) :
    ∀ prior, prior <+: steps →
      CountsExact (replay (socialStep startBlock) SocialDatabase.empty prior) := by
  rintro prior ⟨rest, rfl⟩
  have hprior := (along_append.mp h).1
  have hkept := replay_invariant (fun db ↦ db.Sound ∧ CountsExact db)
    (fun db e db' hdb hkeeps hok ↦ hdb.1.step hdb.2 hkeeps hok)
    ⟨sound_empty, countsExact_empty⟩ hprior
  exact hkept.2

/-- A block with two transactions, that add what is given, one each. -/
def blockOfTwo (number : ℕ) (hash : BlockHash) (first second : List (Log SocialFeatureEvent))
    (saved : List (Log UserLibraryEvent)) : SocialBlock where
  block := ⟨hash, defaultPaddedStartHash, number,
    [⟨"0x1", some zeroAddress, 0⟩, ⟨"0x2", some zeroAddress, 1⟩]⟩
  socialReceipt tx := if tx.transactionIndex = 0 then first else second
  libraryReceipt tx := if tx.transactionIndex = 0 then saved else []
  contentLists := []

/-- User 1 reposts and saves a digital content and follows user 2, takes the repost back in the
next block, and that block is reverted. -/
def keptSteps : List SocialStep :=
  [.indexes (blockOfTwo 1 "0xa" [⟨.digitalContentRepostAdded, 1, 5⟩] [⟨.userFollowAdded, 1, 2⟩]
      [⟨.digitalContentSaveAdded, 1, 5⟩]),
    .indexes (blockOfTwo 2 "0xb" [⟨.digitalContentRepostDeleted, 1, 5⟩] [] []), .reverts 1]

theorem countsExact_keptSteps :
    CountsExact (replay (socialStep 0) SocialDatabase.empty keptSteps) := by
  refine countsExact_of_along 0 keptSteps ⟨?_, ?_, ?_, trivial⟩ keptSteps (List.prefix_refl _)
  · refine ⟨by decide +kernel, by decide +kernel, by decide +kernel, by decide +kernel, ?_⟩
    rintro contentLists hlists
    cases hlists
    decide +kernel
  · refine ⟨by decide +kernel, by decide +kernel, by decide +kernel, by decide +kernel, ?_⟩
    rintro contentLists hlists
    cases hlists
    decide +kernel
  · have hblocks : ∀ block ∈ ((replay (socialStep 0) SocialDatabase.empty
        (keptSteps.take 2)).blocks.take 1).take 500, block.hash = "0xb" := by decide +kernel
    intro block hblock
    have hhash := hblocks block hblock
    constructor
    all_goals rw [hhash]; decide +kernel

/-- An addition and a removal in one block count the removal alone, and a reverted addition stays
counted. -/
theorem counts_drift :
    ¬ CountsExact (replay (socialStep 0) SocialDatabase.empty
        [.indexes (blockOfTwo 1 "0xa" [⟨.digitalContentRepostAdded, 1, 5⟩]
          [⟨.digitalContentRepostDeleted, 1, 5⟩] [])]) ∧
      ¬ CountsExact (replay (socialStep 0) SocialDatabase.empty
        [.indexes (blockOfTwo 1 "0xa" [⟨.digitalContentRepostAdded, 1, 5⟩] [] []), .reverts 1]) :=
  ⟨fun h ↦ absurd (h.reposts.user 1) (by decide +kernel),
    fun h ↦ absurd (h.reposts.user 1) (by decide +kernel)⟩

end ColivingSpec.Discovery
