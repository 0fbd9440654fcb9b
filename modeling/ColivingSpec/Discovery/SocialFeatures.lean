import ColivingSpec.Discovery.RevertBlocks
import ColivingSpec.Lib.Dict

/-!
# Social features and the library

The handlers of reposts, follows and saves. A handler collects the net changes of its
transactions, one row for each user and item, and then demotes the rows of each item and adds the
new one. The kind of a content list is looked up while its events are handled, the additions of a
transaction are handled before its removals, and the handlers of a block run in a fixed order.
What the challenges see of it, timestamps and hashes of transactions are not kept.
-/

namespace ColivingSpec.Discovery

open Lib List

/-- The item of a row of `reposts`, `saves` or `follows`, and its `is_delete`. -/
structure SocialRow (κ : Type) where
  subject : κ
  isDelete : Bool
  deriving DecidableEq, Repr

/-- An event in a receipt: its name, the user and the item, or the follower and the followee. -/
structure Log (ν : Type) where
  event : ν
  userId : ℕ
  itemId : ℕ
  deriving DecidableEq, Repr

/-- The events of the social feature factory. -/
inductive SocialFeatureEvent where
  | digitalContentRepostAdded
  | digitalContentRepostDeleted
  | contentListRepostAdded
  | contentListRepostDeleted
  | userFollowAdded
  | userFollowDeleted
  deriving DecidableEq, Repr

/-- The events of the user library factory. -/
inductive UserLibraryEvent where
  | digitalContentSaveAdded
  | contentListSaveAdded
  | digitalContentSaveDeleted
  | contentListSaveDeleted
  deriving DecidableEq, Repr

/-- The columns of `content_lists` that the lookups of a kind read. -/
structure ContentListColumns where
  contentListId : ℕ
  isAlbum : Bool
  deriving DecidableEq, Repr

/-- `content_lists.py:168–183`, `index.py:925–937`. -/
def contentListColumnsKind : EntityKind ContentListColumns ℕ ℕ :=
  versioned ContentListColumns.contentListId contentListKind.assertion true fun _ ↦ ""

/-- Rows of a social table are reverted as `saves`, `reposts` and `follows` are. -/
def socialKind (κ : Type) : EntityKind (SocialRow κ) κ κ :=
  versioned SocialRow.subject none false fun _ ↦ ""

/-! ### Net changes -/

section NetChanges

variable {ν κ : Type} [DecidableEq ν]

/-- The events of a name, in the order of the receipt. -/
def processReceipt (event : ν) (receipt : List (Log ν)) : List (Log ν) :=
  receipt.filter fun log ↦ log.event = event

/-- The first event of a user and an item makes a row, the others set its flag. -/
def recordChange (subject : ℕ → ℕ → κ) (isDelete : Bool)
    (changes : NestedDict ℕ ℕ (SocialRow κ)) (log : Log ν) : NestedDict ℕ ℕ (SocialRow κ) :=
  match changes.find? log.userId log.itemId with
  | some row => changes.setEntry log.userId log.itemId { row with isDelete := isDelete }
  | none => changes.setEntry log.userId log.itemId ⟨subject log.userId log.itemId, isDelete⟩

/-- The events of a name in a receipt. -/
def recordChanges (subject : ℕ → ℕ → κ) (event : ν) (isDelete : Bool) (receipt : List (Log ν))
    (changes : NestedDict ℕ ℕ (SocialRow κ)) : NestedDict ℕ ℕ (SocialRow κ) :=
  (processReceipt event receipt).foldl (recordChange subject isDelete) changes

end NetChanges

variable (contentLists : List (Row ContentListColumns)) (userId itemId : ℕ)

/-- `social_features.py:299–310`, `360–371`: the kind of a content list by its current row. -/
def repostTypeOf (contentListId : ℕ) : RepostType :=
  match contentLists.find? fun row ↦ row.isCurrent ∧ row.columns.contentListId = contentListId with
  | some row => if row.columns.isAlbum then .album else .contentList
  | none => .contentList

/-- `user_library.py:201–213`, `301–313`. -/
def saveTypeOf (contentListId : ℕ) : SaveType :=
  match contentLists.find? fun row ↦ row.isCurrent ∧ row.columns.contentListId = contentListId with
  | some row => if row.columns.isAlbum then .album else .contentList
  | none => .contentList

/-- The item of a repost of a digital content. -/
def digitalContentRepost : Repost := ⟨userId, itemId, .digitalContent⟩

/-- The item of a repost of a content list. -/
def contentListRepost :
    Repost := ⟨userId, itemId, repostTypeOf contentLists itemId⟩

/-- The item of a saved digital content. -/
def digitalContentSave : Save := ⟨userId, itemId, .digitalContent⟩

/-- The item of a saved content list. -/
def contentListSave : Save :=
  ⟨userId, itemId, saveTypeOf contentLists itemId⟩

/-- `social_features.py:36–42`: the net changes of reposts and follows. -/
structure SocialChanges where
  digitalContentReposts : NestedDict ℕ ℕ (SocialRow Repost)
  contentListReposts : NestedDict ℕ ℕ (SocialRow Repost)
  follows : NestedDict ℕ ℕ (SocialRow Follow)

/-- `user_library.py:35–36`: the net changes of saves. -/
structure LibraryChanges where
  digitalContentSaves : NestedDict ℕ ℕ (SocialRow Save)
  contentListSaves : NestedDict ℕ ℕ (SocialRow Save)

section Handlers

variable (contentLists : List (Row ContentListColumns))
variable (socialReceipt : List (Log SocialFeatureEvent))
variable (libraryReceipt : List (Log UserLibraryEvent))

variable (changes : SocialChanges)

/-- `social_features.py:191–233`. -/
def addDigitalContentRepost : SocialChanges :=
  { changes with
    digitalContentReposts := recordChanges digitalContentRepost .digitalContentRepostAdded false
      socialReceipt changes.digitalContentReposts }

/-- `social_features.py:236–276`. -/
def deleteDigitalContentRepost : SocialChanges :=
  { changes with
    digitalContentReposts := recordChanges digitalContentRepost .digitalContentRepostDeleted true
      socialReceipt changes.digitalContentReposts }

/-- `social_features.py:279–337`. -/
def addContentListRepost : SocialChanges :=
  { changes with
    contentListReposts := recordChanges (contentListRepost contentLists) .contentListRepostAdded
      false socialReceipt changes.contentListReposts }

/-- `social_features.py:340–398`. -/
def deleteContentListRepost : SocialChanges :=
  { changes with
    contentListReposts := recordChanges (contentListRepost contentLists) .contentListRepostDeleted
      true socialReceipt changes.contentListReposts }

/-- `social_features.py:401–441`. -/
def addFollow : SocialChanges :=
  { changes with
    follows := recordChanges Follow.mk .userFollowAdded false socialReceipt changes.follows }

/-- `social_features.py:444–484`. -/
def deleteFollow : SocialChanges :=
  { changes with
    follows := recordChanges Follow.mk .userFollowDeleted true socialReceipt changes.follows }

/-- `social_features.py:44–112`: a transaction, in the order of the calls. -/
def socialFeatureTx : SocialChanges :=
  deleteFollow socialReceipt <| addFollow socialReceipt <|
    deleteContentListRepost contentLists socialReceipt <|
    addContentListRepost contentLists socialReceipt <|
    deleteDigitalContentRepost socialReceipt <| addDigitalContentRepost socialReceipt changes

/-- `user_library.py:136–177`. -/
def addDigitalContentSave (changes : LibraryChanges) : LibraryChanges :=
  { changes with
    digitalContentSaves := recordChanges digitalContentSave .digitalContentSaveAdded false
      libraryReceipt changes.digitalContentSaves }

/-- `user_library.py:180–234`. -/
def addContentListSave (changes : LibraryChanges) : LibraryChanges :=
  { changes with
    contentListSaves := recordChanges (contentListSave contentLists) .contentListSaveAdded false
      libraryReceipt changes.contentListSaves }

/-- `user_library.py:237–277`. -/
def deleteDigitalContentSave (changes : LibraryChanges) : LibraryChanges :=
  { changes with
    digitalContentSaves := recordChanges digitalContentSave .digitalContentSaveDeleted true
      libraryReceipt changes.digitalContentSaves }

/-- `user_library.py:280–334`. -/
def deleteContentListSave (changes : LibraryChanges) : LibraryChanges :=
  { changes with
    contentListSaves := recordChanges (contentListSave contentLists) .contentListSaveDeleted true
      libraryReceipt changes.contentListSaves }

/-- `user_library.py:38–89`: a transaction, in the order of the calls. -/
def userLibraryTx (changes : LibraryChanges) : LibraryChanges :=
  deleteContentListSave contentLists libraryReceipt <|
    deleteDigitalContentSave libraryReceipt <|
    addContentListSave contentLists libraryReceipt <| addDigitalContentSave libraryReceipt changes

end Handlers

/-- The net changes of the transactions of a block. -/
def socialChanges (receipts : List (List (Log SocialFeatureEvent))) : SocialChanges :=
  receipts.foldl (fun changes receipt ↦ socialFeatureTx contentLists receipt changes)
    ⟨Dict.empty, Dict.empty, Dict.empty⟩

/-- The net changes of the transactions of a block. -/
def libraryChanges (receipts : List (List (Log UserLibraryEvent))) : LibraryChanges :=
  receipts.foldl (fun changes receipt ↦ userLibraryTx contentLists receipt changes)
    ⟨Dict.empty, Dict.empty⟩

/-- The rows that are added to `reposts` (`social_features.py:116–137`), in their order. -/
def SocialChanges.repostRows (changes : SocialChanges) : List (SocialRow Repost) :=
  changes.digitalContentReposts.values ++ changes.contentListReposts.values

/-- The rows that are added to `saves` (`user_library.py:91–110`), in their order. -/
def LibraryChanges.saveRows (changes : LibraryChanges) : List (SocialRow Save) :=
  changes.digitalContentSaves.values ++ changes.contentListSaves.values

/-! ### The tables -/

section Tables

variable {κ : Type} [DecidableEq κ]

/-- A primary key that no row has. -/
def freshRowId (table : List (Row (SocialRow κ))) : ℕ :=
  (table.map Row.rowId).foldr max 0 + 1

/-- `social_features.py:160–188`, `user_library.py:122–133`. -/
def invalidateOld (subject : κ) (table : List (Row (SocialRow κ))) : List (Row (SocialRow κ)) :=
  table.map fun row ↦ if row.columns.subject = subject ∧ row.isCurrent then row.demote else row

/-- The rows of an item are demoted, and the new one is added. -/
def addSocialRow (block : ChainBlock) (table : List (Row (SocialRow κ))) (row : SocialRow κ) :
    List (Row (SocialRow κ)) :=
  invalidateOld row.subject table ++ [Row.new block (freshRowId table, row)]

end Tables

/-! ### What the net changes are -/

section Net

variable {ν κ : Type}

variable (events : List (Log ν × Bool))

/-- The last event of a user and an item, with whether it is a removal. -/
def lastFlag (userId itemId : ℕ) : Option Bool :=
  ((events.filter fun e ↦ e.1.userId = userId ∧ e.1.itemId = itemId).getLast?).map Prod.snd

theorem lastFlag_concat (e : Log ν × Bool) (u i : ℕ) :
    lastFlag (events ++ [e]) u i =
      if e.1.userId = u ∧ e.1.itemId = i then some e.2 else lastFlag events u i := by
  unfold lastFlag
  rw [filter_append]
  by_cases h : e.1.userId = u ∧ e.1.itemId = i
  · rw [if_pos h, filter_cons_of_pos (by simpa using h), filter_nil, getLast?_concat]
    rfl
  · rw [if_neg h, filter_cons_of_neg (by simpa using h), filter_nil, append_nil]

/-- The last event among more events. -/
theorem lastFlag_append (events' : List (Log ν × Bool)) (u i : ℕ) :
    lastFlag (events ++ events') u i = (lastFlag events' u i).or (lastFlag events u i) := by
  unfold lastFlag
  rw [filter_append, getLast?_append]
  cases (events'.filter fun e ↦ e.1.userId = u ∧ e.1.itemId = i).getLast? with
  | none => rfl
  | some e => rfl

/-- The dictionary has a row for each user and item with an event, flagged by the last one. -/
def Nets (subject : ℕ → ℕ → κ) (changes : NestedDict ℕ ℕ (SocialRow κ))
    (events : List (Log ν × Bool)) : Prop :=
  ∀ u i, changes.find? u i = (lastFlag events u i).map (SocialRow.mk (subject u i))

variable {subject : ℕ → ℕ → κ} {changes : NestedDict ℕ ℕ (SocialRow κ)}
variable {events : List (Log ν × Bool)}

theorem nets_nil : Nets subject Dict.empty ([] : List (Log ν × Bool)) := fun _ _ ↦ rfl

theorem Nets.concat (h : Nets subject changes events) (isDelete : Bool) (log : Log ν) :
    Nets subject (recordChange subject isDelete changes log) (events ++ [(log, isDelete)]) := by
  have hset : recordChange subject isDelete changes log
      = changes.setEntry log.userId log.itemId ⟨subject log.userId log.itemId, isDelete⟩ := by
    unfold recordChange
    have hentry := h log.userId log.itemId
    cases hlast : lastFlag events log.userId log.itemId with
    | none => rw [hentry, hlast]; rfl
    | some b => rw [hentry, hlast]; rfl
  intro u i
  rw [hset, NestedDict.find?_setEntry, lastFlag_concat]
  by_cases hlog : log.userId = u ∧ log.itemId = i
  · rw [if_pos hlog, if_pos hlog, hlog.1, hlog.2]
    rfl
  · rw [if_neg hlog, if_neg hlog]
    exact h u i

/-- The events one after another. -/
def recordAll (subject : ℕ → ℕ → κ) (changes : NestedDict ℕ ℕ (SocialRow κ))
    (events : List (Log ν × Bool)) : NestedDict ℕ ℕ (SocialRow κ) :=
  events.foldl (fun changes e ↦ recordChange subject e.2 changes e.1) changes

theorem Nets.append (h : Nets subject changes events) (events' : List (Log ν × Bool)) :
    Nets subject (recordAll subject changes events') (events ++ events') := by
  induction events' generalizing changes events with
  | nil => rwa [append_nil]
  | cons e events' ih =>
    have hrest := ih (h.concat e.2 e.1)
    rwa [append_assoc] at hrest

/-- The rows of the dictionary. -/
theorem Nets.mem_values (h : Nets subject changes events) (row : SocialRow κ) :
    row ∈ changes.values ↔ ∃ u i b, lastFlag events u i = some b ∧ row = ⟨subject u i, b⟩ := by
  rw [NestedDict.mem_values]
  constructor
  · rintro ⟨u, i, hentry⟩
    rw [h u i, Option.map_eq_some_iff] at hentry
    obtain ⟨b, hlast, rfl⟩ := hentry
    exact ⟨u, i, b, hlast, rfl⟩
  · rintro ⟨u, i, b, hlast, rfl⟩
    refine ⟨u, i, ?_⟩
    rw [h u i, hlast]
    rfl

/-- No two rows are of one item. -/
theorem Nets.pairwise_values (h : Nets subject changes events)
    (hinj : ∀ u i u' i', subject u i = subject u' i' → u = u' ∧ i = i') :
    changes.values.Pairwise fun row row' ↦ row.subject ≠ row'.subject := by
  apply NestedDict.pairwise_values
  intro u i row u' i' row' hrow hrow' hne heq
  rw [h, Option.map_eq_some_iff] at hrow hrow'
  obtain ⟨b, -, rfl⟩ := hrow
  obtain ⟨b', -, rfl⟩ := hrow'
  obtain ⟨hu, hi⟩ := hinj u i u' i' heq
  exact hne hu hi

variable [DecidableEq ν]

/-- The events of a transaction in the order in which they are handled. -/
def handled (added deleted : ν) (receipt : List (Log ν)) : List (Log ν × Bool) :=
  (processReceipt added receipt).map (·, false) ++ (processReceipt deleted receipt).map (·, true)

/-- The two calls for a kind of item handle the events of a transaction. -/
theorem recordChanges_eq (subject : ℕ → ℕ → κ) (added deleted : ν) (receipt : List (Log ν))
    (changes : NestedDict ℕ ℕ (SocialRow κ)) :
    recordChanges subject deleted true receipt (recordChanges subject added false receipt changes)
      = recordAll subject changes (handled added deleted receipt) := by
  unfold recordChanges recordAll handled
  rw [foldl_append, foldl_map, foldl_map]

/-- A part of the net changes that each transaction changes by its own events. -/
theorem nets_foldl {γ : Type} (f : γ → List (Log ν) → γ)
    (part : γ → NestedDict ℕ ℕ (SocialRow κ)) (added deleted : ν)
    (hpart : ∀ c receipt, part (f c receipt)
      = recordAll subject (part c) (handled added deleted receipt))
    {c : γ} (hstart : part c = Dict.empty) (receipts : List (List (Log ν))) :
    Nets subject (part (receipts.foldl f c)) (receipts.flatMap (handled added deleted)) := by
  induction receipts using reverseRecOn with
  | nil =>
    rw [foldl_nil, hstart]
    exact nets_nil
  | append_singleton receipts receipt ih =>
    rw [foldl_append, flatMap_append, flatMap_singleton]
    have hlast := ih.append (handled added deleted receipt)
    rw [← hpart] at hlast
    exact hlast

end Net

/-! ### The rows of a block -/

section Rows

variable (contentLists : List (Row ContentListColumns))
variable (receipts : List (List (Log SocialFeatureEvent)))
variable (libraryReceipts : List (List (Log UserLibraryEvent)))

/-- The handled events of reposts of digital contents. -/
def digitalContentRepostEvents : List (Log SocialFeatureEvent × Bool) :=
  receipts.flatMap (handled .digitalContentRepostAdded .digitalContentRepostDeleted)

/-- The handled events of reposts of content lists. -/
def contentListRepostEvents : List (Log SocialFeatureEvent × Bool) :=
  receipts.flatMap (handled .contentListRepostAdded .contentListRepostDeleted)

/-- The handled events of follows. -/
def followEvents : List (Log SocialFeatureEvent × Bool) :=
  receipts.flatMap (handled .userFollowAdded .userFollowDeleted)

/-- The handled events of saves of digital contents. -/
def digitalContentSaveEvents : List (Log UserLibraryEvent × Bool) :=
  libraryReceipts.flatMap (handled .digitalContentSaveAdded .digitalContentSaveDeleted)

/-- The handled events of saves of content lists. -/
def contentListSaveEvents : List (Log UserLibraryEvent × Bool) :=
  libraryReceipts.flatMap (handled .contentListSaveAdded .contentListSaveDeleted)

theorem nets_digitalContentReposts :
    Nets digitalContentRepost (socialChanges contentLists receipts).digitalContentReposts
      (digitalContentRepostEvents receipts) :=
  nets_foldl _ SocialChanges.digitalContentReposts _ _
    (fun _ receipt ↦ recordChanges_eq _ _ _ receipt _) rfl receipts

theorem nets_contentListReposts :
    Nets (contentListRepost contentLists) (socialChanges contentLists receipts).contentListReposts
      (contentListRepostEvents receipts) :=
  nets_foldl _ SocialChanges.contentListReposts _ _
    (fun _ receipt ↦ recordChanges_eq _ _ _ receipt _) rfl receipts

theorem nets_follows :
    Nets Follow.mk (socialChanges contentLists receipts).follows (followEvents receipts) :=
  nets_foldl _ SocialChanges.follows _ _
    (fun _ receipt ↦ recordChanges_eq _ _ _ receipt _) rfl receipts

theorem nets_digitalContentSaves :
    Nets digitalContentSave (libraryChanges contentLists libraryReceipts).digitalContentSaves
      (digitalContentSaveEvents libraryReceipts) :=
  nets_foldl _ LibraryChanges.digitalContentSaves _ _
    (fun _ receipt ↦ recordChanges_eq _ _ _ receipt _) rfl libraryReceipts

theorem nets_contentListSaves :
    Nets (contentListSave contentLists)
      (libraryChanges contentLists libraryReceipts).contentListSaves
      (contentListSaveEvents libraryReceipts) :=
  nets_foldl _ LibraryChanges.contentListSaves _ _
    (fun _ receipt ↦ recordChanges_eq _ _ _ receipt _) rfl libraryReceipts

/-- A content list is not looked up as a digital content. -/
theorem repostTypeOf_ne (itemId : ℕ) : repostTypeOf contentLists itemId ≠ .digitalContent := by
  unfold repostTypeOf
  split
  · split <;> exact RepostType.noConfusion
  · exact RepostType.noConfusion

/-- A content list is not looked up as a digital content. -/
theorem saveTypeOf_ne (itemId : ℕ) : saveTypeOf contentLists itemId ≠ .digitalContent := by
  unfold saveTypeOf
  split
  · split <;> exact SaveType.noConfusion
  · exact SaveType.noConfusion

/-- The rows that a block adds to `reposts`. -/
theorem mem_repostRows (row : SocialRow Repost) :
    row ∈ (socialChanges contentLists receipts).repostRows ↔ ∃ u i b,
      lastFlag (digitalContentRepostEvents receipts) u i = some b ∧
          row = ⟨digitalContentRepost u i, b⟩ ∨
        lastFlag (contentListRepostEvents receipts) u i = some b ∧
          row = ⟨contentListRepost contentLists u i, b⟩ := by
  rw [SocialChanges.repostRows, mem_append,
    (nets_digitalContentReposts contentLists receipts).mem_values,
    (nets_contentListReposts contentLists receipts).mem_values]
  simp only [exists_or]

/-- The rows that a block adds to `saves`. -/
theorem mem_saveRows (row : SocialRow Save) :
    row ∈ (libraryChanges contentLists libraryReceipts).saveRows ↔ ∃ u i b,
      lastFlag (digitalContentSaveEvents libraryReceipts) u i = some b ∧
          row = ⟨digitalContentSave u i, b⟩ ∨
        lastFlag (contentListSaveEvents libraryReceipts) u i = some b ∧
          row = ⟨contentListSave contentLists u i, b⟩ := by
  rw [LibraryChanges.saveRows, mem_append,
    (nets_digitalContentSaves contentLists libraryReceipts).mem_values,
    (nets_contentListSaves contentLists libraryReceipts).mem_values]
  simp only [exists_or]

/-- No two rows that a block adds to `reposts` are of one item. -/
theorem pairwise_repostRows : (socialChanges contentLists receipts).repostRows.Pairwise
    fun row row' ↦ row.subject ≠ row'.subject := by
  apply pairwise_append.mpr
  refine ⟨?_, ?_, ?_⟩
  · apply (nets_digitalContentReposts contentLists receipts).pairwise_values
    intro u i u' i' heq
    exact ⟨congrArg Repost.userId heq, congrArg Repost.repostItemId heq⟩
  · apply (nets_contentListReposts contentLists receipts).pairwise_values
    intro u i u' i' heq
    exact ⟨congrArg Repost.userId heq, congrArg Repost.repostItemId heq⟩
  · intro row hrow row' hrow' heq
    obtain ⟨u, i, b, -, rfl⟩ :=
      ((nets_digitalContentReposts contentLists receipts).mem_values row).mp hrow
    obtain ⟨u', i', b', -, rfl⟩ :=
      ((nets_contentListReposts contentLists receipts).mem_values row').mp hrow'
    exact repostTypeOf_ne contentLists i' (congrArg Repost.repostType heq).symm

/-- No two rows that a block adds to `saves` are of one item. -/
theorem pairwise_saveRows : (libraryChanges contentLists libraryReceipts).saveRows.Pairwise
    fun row row' ↦ row.subject ≠ row'.subject := by
  apply pairwise_append.mpr
  refine ⟨?_, ?_, ?_⟩
  · apply (nets_digitalContentSaves contentLists libraryReceipts).pairwise_values
    intro u i u' i' heq
    exact ⟨congrArg Save.userId heq, congrArg Save.saveItemId heq⟩
  · apply (nets_contentListSaves contentLists libraryReceipts).pairwise_values
    intro u i u' i' heq
    exact ⟨congrArg Save.userId heq, congrArg Save.saveItemId heq⟩
  · intro row hrow row' hrow' heq
    obtain ⟨u, i, b, -, rfl⟩ :=
      ((nets_digitalContentSaves contentLists libraryReceipts).mem_values row).mp hrow
    obtain ⟨u', i', b', -, rfl⟩ :=
      ((nets_contentListSaves contentLists libraryReceipts).mem_values row').mp hrow'
    exact saveTypeOf_ne contentLists i' (congrArg Save.saveType heq).symm

/-- No two rows that a block adds to `follows` are of one item. -/
theorem pairwise_followRows : (socialChanges contentLists receipts).follows.values.Pairwise
    fun row row' ↦ row.subject ≠ row'.subject := by
  apply (nets_follows contentLists receipts).pairwise_values
  intro u i u' i' heq
  exact ⟨congrArg Follow.followerUserId heq, congrArg Follow.followeeUserId heq⟩

end Rows

end ColivingSpec.Discovery
