import ColivingSpec.Discovery.SocialTables

/-!
# One current row for an item

Rows of content lists are kept apart by a kind that is looked up when an event is handled. There
is one current row for a user and a content list, with the flag of the last event, just when each
block looks up the kind of the current row, and handles the last event last.
-/

namespace ColivingSpec.Discovery

open Lib List

/-! ### The events of a block in the order of the chain -/

/-- The additions and removals in a receipt, with a flag for removals. -/
def flagged {ν : Type} [DecidableEq ν] (added deleted : ν) (receipt : List (Log ν)) :
    List (Log ν × Bool) :=
  receipt.filterMap fun log ↦
    if log.event = added then some (log, false)
    else if log.event = deleted then some (log, true) else none

namespace SocialBlock

variable (b : SocialBlock)

/-- The transactions in the order of the chain. -/
def chainTransactions : List Transaction :=
  b.block.transactions.insertionSort fun tx tx' ↦ tx.transactionIndex ≤ tx'.transactionIndex

/-- The reposts of content lists, and their removals. -/
def repostHistory : List (Log SocialFeatureEvent × Bool) :=
  b.chainTransactions.flatMap fun tx ↦
    flagged .contentListRepostAdded .contentListRepostDeleted (b.socialReceipt tx)

/-- The saves of content lists, and their removals. -/
def saveHistory : List (Log UserLibraryEvent × Bool) :=
  b.chainTransactions.flatMap fun tx ↦
    flagged .contentListSaveAdded .contentListSaveDeleted (b.libraryReceipt tx)

end SocialBlock

variable {ν : Type} (contentLists : List (Row ContentListColumns))

theorem mem_handled_iff_mem_flagged [DecidableEq ν] {added deleted : ν} (hne : added ≠ deleted)
    (receipt : List (Log ν)) (e : Log ν × Bool) :
    e ∈ handled added deleted receipt ↔ e ∈ flagged added deleted receipt := by
  obtain ⟨log, isDelete⟩ := e
  simp only [handled, flagged, processReceipt, mem_append, mem_map, mem_filter,
    mem_filterMap, decide_eq_true_eq, Prod.mk.injEq]
  constructor
  · rintro (⟨log', ⟨hlog, hevent⟩, rfl, rfl⟩ | ⟨log', ⟨hlog, hevent⟩, rfl, rfl⟩)
    · exact ⟨log', hlog, if_pos hevent⟩
    · refine ⟨log', hlog, ?_⟩
      rw [if_neg (fun h ↦ hne (h.symm.trans hevent)), if_pos hevent]
  · rintro ⟨log', hlog, hsome⟩
    split at hsome
    · next hevent =>
      cases hsome
      exact .inl ⟨log, ⟨hlog, hevent⟩, rfl, rfl⟩
    · split at hsome
      · next hevent =>
        cases hsome
        exact .inr ⟨log, ⟨hlog, hevent⟩, rfl, rfl⟩
      · cases hsome

/-- The handler sees the events of the chain. -/
theorem mem_sortBlockTransactions (startBlock : ℕ) (b : SocialBlock) (tx : Transaction) :
    tx ∈ sortBlockTransactions startBlock b.block ↔ tx ∈ b.chainTransactions := by
  unfold sortBlockTransactions SocialBlock.chainTransactions
  split <;> simp only [mem_insertionSort]

/-- There is no event of a user and an item. -/
theorem lastFlag_eq_none_iff (events : List (Log ν × Bool)) (u i : ℕ) :
    lastFlag events u i = none ↔ ∀ e ∈ events, ¬ (e.1.userId = u ∧ e.1.itemId = i) := by
  unfold lastFlag
  rw [Option.map_eq_none_iff, getLast?_eq_none_iff, filter_eq_nil_iff]
  simp only [decide_eq_true_eq]

/-- Lists of the same events are without an event of a user and an item together. -/
theorem lastFlag_eq_none_congr {events events' : List (Log ν × Bool)}
    (h : ∀ e, e ∈ events ↔ e ∈ events') (u i : ℕ) :
    lastFlag events u i = none ↔ lastFlag events' u i = none := by
  simp only [lastFlag_eq_none_iff, h]

/-! ### Current rows -/

section Current

variable {κ : Type} (listItem : κ → Option (ℕ × ℕ))

/-- The current rows of a user and a content list. -/
def currentRows (table : List (Row (SocialRow κ))) (u l : ℕ) : List (Row (SocialRow κ)) :=
  table.filter fun row ↦ row.isCurrent ∧ listItem row.columns.subject = some (u, l)

/-- There is at most one current row for a user and a content list, and its flag is that of their
last event. -/
def OneCurrent {ν : Type} (table : List (Row (SocialRow κ))) (history : List (Log ν × Bool)) :
    Prop :=
  ∀ u l, (currentRows listItem table u l).length ≤ 1 ∧
    ∀ row ∈ currentRows listItem table u l, lastFlag history u l = some row.columns.isDelete

variable {listItem} {table : List (Row (SocialRow κ))} {u l : ℕ}

theorem mem_currentRows {row : Row (SocialRow κ)} : row ∈ currentRows listItem table u l ↔
    row ∈ table ∧ row.isCurrent = true ∧ listItem row.columns.subject = some (u, l) := by
  rw [currentRows, mem_filter, decide_eq_true_iff]

variable [DecidableEq κ]

/-- The rows of one kind are demoted, those of another stay. -/
theorem currentRows_invalidateOld (subject : κ) :
    currentRows listItem (invalidateOld subject table) u l
      = (currentRows listItem table u l).filter fun row ↦ row.columns.subject ≠ subject := by
  unfold currentRows invalidateOld
  rw [filter_filter]
  induction table with
  | nil => rfl
  | cons row table ih =>
    rw [map_cons]
    by_cases hrow : row.columns.subject = subject ∧ row.isCurrent = true
    · rw [if_pos hrow, filter_cons_of_neg (by simp [Row.demote]),
        filter_cons_of_neg (by simp [hrow.1]), ih]
    · rw [if_neg hrow]
      by_cases hcurrent : row.isCurrent ∧ listItem row.columns.subject = some (u, l)
      · have hne : row.columns.subject ≠ subject := fun heq ↦ hrow ⟨heq, hcurrent.1⟩
        rw [filter_cons_of_pos (by simpa using hcurrent),
          filter_cons_of_pos (by simpa [hne] using hcurrent), ih]
      · rw [filter_cons_of_neg (by simpa using hcurrent),
          filter_cons_of_neg (by simp only [decide_eq_true_eq, Bool.and_eq_true];
                                      exact fun h ↦ hcurrent h.2), ih]

variable {new : SocialRow κ} {rows : List (SocialRow κ)}

/-- A row of another item leaves the current rows. -/
theorem currentRows_addSocialRow_of_ne (hne : listItem new.subject ≠ some (u, l))
    (block : ChainBlock) :
    currentRows listItem (addSocialRow block table new) u l = currentRows listItem table u l := by
  have hother : currentRows listItem [Row.new block (freshRowId table, new)] u l = [] :=
    filter_cons_of_neg (by simpa [Row.new] using hne)
  have happend : currentRows listItem (addSocialRow block table new) u l
      = currentRows listItem (invalidateOld new.subject table) u l
        ++ currentRows listItem [Row.new block (freshRowId table, new)] u l :=
    filter_append ..
  rw [happend, hother, append_nil, currentRows_invalidateOld]
  apply filter_eq_self.mpr
  intro row hrow
  apply decide_eq_true
  intro heq
  exact hne (heq ▸ (mem_currentRows.mp hrow).2.2)

/-- A row of the item takes the place of those of its kind. -/
theorem currentRows_addSocialRow (heq : listItem new.subject = some (u, l)) (block : ChainBlock) :
    currentRows listItem (addSocialRow block table new) u l
      = (currentRows listItem table u l).filter (fun row ↦ row.columns.subject ≠ new.subject)
        ++ [Row.new block (freshRowId table, new)] := by
  have hnew : currentRows listItem [Row.new block (freshRowId table, new)] u l
      = [Row.new block (freshRowId table, new)] :=
    filter_cons_of_pos (by simpa [Row.new] using heq)
  have happend : currentRows listItem (addSocialRow block table new) u l
      = currentRows listItem (invalidateOld new.subject table) u l
        ++ currentRows listItem [Row.new block (freshRowId table, new)] u l :=
    filter_append ..
  rw [happend, hnew, currentRows_invalidateOld]

variable (block : ChainBlock)

/-- Rows of other items leave the current rows. -/
theorem currentRows_foldl_of_ne (hne : ∀ row ∈ rows, listItem row.subject ≠ some (u, l)) :
    currentRows listItem (rows.foldl (addSocialRow block) table) u l
      = currentRows listItem table u l := by
  induction rows generalizing table with
  | nil => rfl
  | cons row rows ih =>
    rw [foldl_cons, ih fun row' hrow' ↦ hne row' (mem_cons_of_mem _ hrow')]
    exact currentRows_addSocialRow_of_ne (hne row mem_cons_self) block

/-- One row of the item is among the rows of a block. -/
theorem currentRows_foldl (hdistinct : rows.Pairwise fun row row' ↦ row.subject ≠ row'.subject)
    (hnew : new ∈ rows) (heq : listItem new.subject = some (u, l))
    (hone : ∀ row ∈ rows, listItem row.subject = some (u, l) → row = new) :
    ∃ id, currentRows listItem (rows.foldl (addSocialRow block) table) u l
      = (currentRows listItem table u l).filter (fun row ↦ row.columns.subject ≠ new.subject)
        ++ [Row.new block (id, new)] := by
  obtain ⟨before, after, rfl⟩ := append_of_mem hnew
  obtain ⟨-, hafter, hbefore⟩ := pairwise_append.mp hdistinct
  have hothers : ∀ row ∈ before ++ after, listItem row.subject ≠ some (u, l) := by
    intro row hrow hitem
    rcases mem_append.mp hrow with hin | hin
    · have hrownew := hone row (mem_append_left _ hin) hitem
      exact hbefore row hin new mem_cons_self (congrArg SocialRow.subject hrownew)
    · have hrownew := hone row (mem_append_right _ (mem_cons_of_mem _ hin)) hitem
      exact (pairwise_cons.mp hafter).1 row hin (congrArg SocialRow.subject hrownew).symm
  rw [foldl_append, foldl_cons,
    currentRows_foldl_of_ne block fun row hrow ↦ hothers row (mem_append_right _ hrow),
    currentRows_addSocialRow heq,
    currentRows_foldl_of_ne block fun row hrow ↦ hothers row (mem_append_left _ hrow)]
  exact ⟨_, rfl⟩

variable {ν : Type} {events history recent : List (Log ν × Bool)} {subject : ℕ → ℕ → κ}

/-- The rows that a block adds for content lists are those of the last events that it handles. -/
def AddsLast (listItem : κ → Option (ℕ × ℕ)) (subject : ℕ → ℕ → κ) (events : List (Log ν × Bool))
    (rows : List (SocialRow κ)) : Prop :=
  ∀ row u l, listItem row.subject = some (u, l) →
    (row ∈ rows ↔ ∃ b, lastFlag events u l = some b ∧ row = ⟨subject u l, b⟩)

/-- After the rows of a block there is one current row for each user and content list, with the
flag of the last event, just when, for those with an event in the block, the event that is handled
last is the last one, and the current rows were of the kind that was looked up. -/
theorem OneCurrent.foldl_iff (h : OneCurrent listItem table history) (block : ChainBlock)
    (hdistinct : rows.Pairwise fun row row' ↦ row.subject ≠ row'.subject)
    (hsubject : ∀ u l, listItem (subject u l) = some (u, l))
    (hrows : AddsLast listItem subject events rows) (hsame : ∀ e, e ∈ events ↔ e ∈ recent) :
    OneCurrent listItem (rows.foldl (addSocialRow block) table) (history ++ recent) ↔
      ∀ u l b, lastFlag events u l = some b → lastFlag recent u l = some b ∧
        ∀ row ∈ currentRows listItem table u l, row.columns.subject = subject u l := by
  have htouched : ∀ u l b, lastFlag events u l = some b →
      ∃ id, currentRows listItem (rows.foldl (addSocialRow block) table) u l
        = (currentRows listItem table u l).filter (fun row ↦ row.columns.subject ≠ subject u l)
          ++ [Row.new block (id, ⟨subject u l, b⟩)] := by
    intro u l b hlast
    have hnew : ⟨subject u l, b⟩ ∈ rows := (hrows _ u l (hsubject u l)).mpr ⟨b, hlast, rfl⟩
    refine currentRows_foldl block hdistinct hnew (hsubject u l) ?_
    intro row hrow hitem
    obtain ⟨b', hlast', rfl⟩ := (hrows row u l hitem).mp hrow
    rw [hlast] at hlast'
    cases hlast'
    rfl
  constructor
  · intro hone u l b hlast
    obtain ⟨id, hcurrent⟩ := htouched u l b hlast
    obtain ⟨hlength, hflag⟩ := hone u l
    rw [hcurrent, length_append, length_singleton] at hlength
    constructor
    · have hnew := hflag (Row.new block (id, ⟨subject u l, b⟩)) (by
        rw [hcurrent]
        exact mem_append_right _ (mem_singleton_self _))
      rw [lastFlag_append] at hnew
      cases hrecent : lastFlag recent u l with
      | none =>
        rw [← lastFlag_eq_none_congr hsame, hlast] at hrecent
        cases hrecent
      | some b' =>
        rw [hrecent] at hnew
        exact hnew
    · intro row hrow
      by_contra hne
      have hpos : 0 < ((currentRows listItem table u l).filter
          fun row ↦ row.columns.subject ≠ subject u l).length :=
        length_pos_of_mem (mem_filter.mpr ⟨hrow, decide_eq_true hne⟩)
      omega
  · intro hkept u l
    cases hlast : lastFlag events u l with
    | none =>
      have hnone : ∀ row ∈ rows, listItem row.subject ≠ some (u, l) := by
        intro row hrow hitem
        obtain ⟨b, hb, -⟩ := (hrows row u l hitem).mp hrow
        rw [hlast] at hb
        cases hb
      rw [currentRows_foldl_of_ne block hnone, lastFlag_append,
        (lastFlag_eq_none_congr hsame u l).mp hlast, Option.none_or]
      exact h u l
    | some b =>
      obtain ⟨id, hcurrent⟩ := htouched u l b hlast
      obtain ⟨hrecent, hsubjects⟩ := hkept u l b hlast
      have hnone : (currentRows listItem table u l).filter
          (fun row ↦ row.columns.subject ≠ subject u l) = [] :=
        filter_eq_nil_iff.mpr fun row hrow hne ↦
          of_decide_eq_true hne (hsubjects row hrow)
      rw [hcurrent, hnone, nil_append]
      refine ⟨le_refl 1, fun row hrow ↦ ?_⟩
      rw [mem_singleton.mp hrow, lastFlag_append, hrecent]
      rfl

end Current

/-! ### Reposts and saves over blocks -/

/-- The user and the content list of a repost of a content list. -/
def repostedList (repost : Repost) : Option (ℕ × ℕ) :=
  if repost.repostType = .digitalContent then none else some (repost.userId, repost.repostItemId)

/-- The user and the content list of a saved content list. -/
def savedList (save : Save) : Option (ℕ × ℕ) :=
  if save.saveType = .digitalContent then none else some (save.userId, save.saveItemId)

theorem repostedList_contentListRepost (u l : ℕ) :
    repostedList (contentListRepost contentLists u l) = some (u, l) :=
  if_neg (repostTypeOf_ne contentLists l)

theorem savedList_contentListSave (u l : ℕ) :
    savedList (contentListSave contentLists u l) = some (u, l) :=
  if_neg (saveTypeOf_ne contentLists l)

/-- The tables, and the blocks that were indexed. -/
structure SocialHistory where
  db : SocialDatabase
  indexed : List SocialBlock

namespace SocialHistory

/-- Nothing is indexed. -/
def start : SocialHistory := ⟨SocialDatabase.empty, []⟩

variable (startBlock : ℕ)

/-- A block is indexed. -/
def index (s : SocialHistory) (b : SocialBlock) : Except String SocialHistory := do
  let db ← s.db.indexBlock startBlock b
  return ⟨db, s.indexed ++ [b]⟩

/-- There is at most one current repost and at most one current save for a user and a content
list, with the flag of the last such event. -/
structure OneForEach (s : SocialHistory) : Prop where
  reposts : OneCurrent repostedList s.db.reposts (s.indexed.flatMap SocialBlock.repostHistory)
  saves : OneCurrent savedList s.db.saves (s.indexed.flatMap SocialBlock.saveHistory)

/-- For each user and content list with an event in the block, the event that is handled last is
the last one, and the current rows are of the kind that the handler looks up, before the content
lists of the block are written for reposts, and after it for saves. -/
structure KeepsOne (s : SocialHistory) (b : SocialBlock) : Prop where
  reposts : ∀ u l isDelete,
    lastFlag (contentListRepostEvents (b.socialReceipts startBlock)) u l = some isDelete →
      lastFlag b.repostHistory u l = some isDelete ∧
        ∀ row ∈ currentRows repostedList s.db.reposts u l,
          row.columns.subject = contentListRepost s.db.contentLists u l
  saves : ∀ contentLists,
    contentListColumnsKind.indexBlock s.db.contentLists b.block b.contentLists
      = .ok contentLists →
    ∀ u l isDelete,
      lastFlag (contentListSaveEvents (b.libraryReceipts startBlock)) u l = some isDelete →
        lastFlag b.saveHistory u l = some isDelete ∧
          ∀ row ∈ currentRows savedList s.db.saves u l,
            row.columns.subject = contentListSave contentLists u l

variable {startBlock} (contentLists : List (Row ContentListColumns))

theorem addsLast_repostRows (receipts : List (List (Log SocialFeatureEvent))) :
    AddsLast repostedList (contentListRepost contentLists) (contentListRepostEvents receipts)
      (socialChanges contentLists receipts).repostRows := by
  intro row u l hitem
  rw [mem_repostRows]
  constructor
  · rintro ⟨u', l', b, ⟨-, rfl⟩ | ⟨hlast, rfl⟩⟩
    · cases hitem
    · rw [repostedList_contentListRepost] at hitem
      cases hitem
      exact ⟨b, hlast, rfl⟩
  · rintro ⟨b, hlast, rfl⟩
    exact ⟨u, l, b, .inr ⟨hlast, rfl⟩⟩

theorem addsLast_saveRows (receipts : List (List (Log UserLibraryEvent))) :
    AddsLast savedList (contentListSave contentLists) (contentListSaveEvents receipts)
      (libraryChanges contentLists receipts).saveRows := by
  intro row u l hitem
  rw [mem_saveRows]
  constructor
  · rintro ⟨u', l', b, ⟨-, rfl⟩ | ⟨hlast, rfl⟩⟩
    · cases hitem
    · rw [savedList_contentListSave] at hitem
      cases hitem
      exact ⟨b, hlast, rfl⟩
  · rintro ⟨b, hlast, rfl⟩
    exact ⟨u, l, b, .inr ⟨hlast, rfl⟩⟩

theorem mem_contentListRepostEvents (b : SocialBlock) (e : Log SocialFeatureEvent × Bool) :
    e ∈ contentListRepostEvents (b.socialReceipts startBlock) ↔ e ∈ b.repostHistory := by
  unfold contentListRepostEvents SocialBlock.socialReceipts SocialBlock.repostHistory
  simp only [mem_flatMap, mem_map, exists_exists_and_eq_and, mem_sortBlockTransactions,
    mem_handled_iff_mem_flagged (SocialFeatureEvent.noConfusion :
      SocialFeatureEvent.contentListRepostAdded ≠ .contentListRepostDeleted)]

theorem mem_contentListSaveEvents (b : SocialBlock) (e : Log UserLibraryEvent × Bool) :
    e ∈ contentListSaveEvents (b.libraryReceipts startBlock) ↔ e ∈ b.saveHistory := by
  unfold contentListSaveEvents SocialBlock.libraryReceipts SocialBlock.saveHistory
  simp only [mem_flatMap, mem_map, exists_exists_and_eq_and, mem_sortBlockTransactions,
    mem_handled_iff_mem_flagged (UserLibraryEvent.noConfusion :
      UserLibraryEvent.contentListSaveAdded ≠ .contentListSaveDeleted)]

/-- A block that is indexed keeps one row for each just when it meets the condition. -/
theorem oneForEach_index_iff {s s' : SocialHistory} {b : SocialBlock} (h : s.OneForEach)
    (hok : s.index startBlock b = .ok s') : s'.OneForEach ↔ s.KeepsOne startBlock b := by
  obtain ⟨db, hdb, hs'⟩ := bind_eq_ok.mp hok
  cases pure_eq_ok.mp hs'
  obtain ⟨-, contentLists, hlists, rfl⟩ := SocialDatabase.indexBlock_eq_ok hdb
  have hreposts := h.reposts.foldl_iff b.block
    (pairwise_repostRows s.db.contentLists (b.socialReceipts startBlock))
    (repostedList_contentListRepost _) (addsLast_repostRows _ _) (mem_contentListRepostEvents b)
  have hsaves := h.saves.foldl_iff b.block
    (pairwise_saveRows contentLists (b.libraryReceipts startBlock))
    (savedList_contentListSave _) (addsLast_saveRows _ _) (mem_contentListSaveEvents b)
  have hrepostHistory : (s.indexed ++ [b]).flatMap SocialBlock.repostHistory
      = s.indexed.flatMap SocialBlock.repostHistory ++ b.repostHistory := by
    rw [flatMap_append, flatMap_singleton]
  have hsaveHistory : (s.indexed ++ [b]).flatMap SocialBlock.saveHistory
      = s.indexed.flatMap SocialBlock.saveHistory ++ b.saveHistory := by
    rw [flatMap_append, flatMap_singleton]
  constructor
  · rintro ⟨hrepostsOne, hsavesOne⟩
    rw [hrepostHistory] at hrepostsOne
    rw [hsaveHistory] at hsavesOne
    refine ⟨hreposts.mp hrepostsOne, ?_⟩
    intro contentLists' hlists'
    rw [hlists] at hlists'
    cases hlists'
    exact hsaves.mp hsavesOne
  · rintro ⟨hrepostsKept, hsavesKept⟩
    constructor
    · rw [hrepostHistory]
      exact hreposts.mpr hrepostsKept
    · rw [hsaveHistory]
      exact hsaves.mpr (hsavesKept contentLists hlists)

theorem oneForEach_start : start.OneForEach :=
  ⟨fun _ _ ↦ ⟨Nat.zero_le 1, fun _ h ↦ absurd h not_mem_nil⟩,
    fun _ _ ↦ ⟨Nat.zero_le 1, fun _ h ↦ absurd h not_mem_nil⟩⟩

/-- After every block there is one current row for each user and content list, just when each block
that is indexed meets the condition. -/
theorem oneForEach_iff_along (startBlock : ℕ) (blocks : List SocialBlock) :
    (∀ prior, prior <+: blocks → (replay (index startBlock) start prior).OneForEach) ↔
      Along (index startBlock)
        (fun s b ↦ Succeeds (s.index startBlock b) → s.KeepsOne startBlock b) start blocks := by
  refine prefixes_iff_along_of_ok (W := fun _ ↦ True) (P := OneForEach) (fun _ _ _ h _ ↦ h) ?_
    (fun _ _ hreverts hok ↦ absurd hok hreverts) trivial oneForEach_start
  intro s b s' _ h hok
  rw [oneForEach_index_iff h hok]
  exact ⟨fun hkeeps _ ↦ hkeeps, fun hkeeps ↦ hkeeps ⟨s', hok⟩⟩

/-- A block with one transaction, its events, and the content lists that are written in it. -/
def blockOfOne (number : ℕ) (hash : BlockHash) (receipt : List (Log SocialFeatureEvent))
    (contentLists : List (Change ContentListColumns ℕ)) : SocialBlock where
  block := ⟨hash, defaultPaddedStartHash, number, [⟨"0x1", some zeroAddress, 0⟩]⟩
  socialReceipt _ := receipt
  libraryReceipt _ := []
  contentLists := contentLists

/-- An album that is reposted in the block that creates it is reposted as a content list, and the
repost is taken back as that of an album; and what a transaction adds after a removal is removed. -/
theorem oneForEach_fails :
    ¬ (replay (index 0) start
        [blockOfOne 1 "0xa" [⟨.contentListRepostAdded, 1, 7⟩] [⟨7, [(1, ⟨7, true⟩)]⟩],
          blockOfOne 2 "0xb" [⟨.contentListRepostDeleted, 1, 7⟩] []]).OneForEach ∧
      ¬ (replay (index 0) start
        [blockOfOne 1 "0xa"
          [⟨.contentListRepostDeleted, 1, 7⟩, ⟨.contentListRepostAdded, 1, 7⟩] []]).OneForEach :=
  ⟨fun h ↦ absurd (h.reposts 1 7).1 (by decide +kernel),
    fun h ↦ absurd (h.reposts 1 7).2 (by decide +kernel)⟩

end SocialHistory

end ColivingSpec.Discovery
