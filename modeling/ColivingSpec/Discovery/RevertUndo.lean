import ColivingSpec.Discovery.EntityRevert
import ColivingSpec.Discovery.RevertBlocks

/-!
# Reverting what was indexed

Blocks that were indexed on top of the current one and are reverted again leave the database as
it was, as long as no more than 500 are reverted and each kind of entity is restored. The queries
for saves, reposts and follows find the reverted row itself, so these are not restored when they
had a current version.
-/

namespace ColivingSpec.Discovery

open Lib List

namespace Database

/-! ### What the theorem speaks of -/

/-- Each block is the parent of the next one, and a row with the hash is that of the first. -/
def Chained : BlockHash → List ChainBlock → Prop
  | _, [] => True
  | hash, block :: blocks => parentHash block.row = hash ∧ Chained block.hash blocks

/-- The blocks continue the chain of the current row, and they and the rows they add come after
all rows of the database. -/
structure Continues (db : Database) (blocks : List BlockChanges) : Prop where
  chained : ∀ row ∈ db.blocks, row.isCurrent = true →
    Chained row.blockhash (blocks.map BlockChanges.block)
  rows : (db.blocks.map Block.blockhash).Nodup
  fresh : ∀ row ∈ db.blocks, ∀ changes ∈ blocks, row.blockhash ≠ changes.block.hash
  saves : EntityKind.After db.saves (blocks.map fun b ↦ (b.block, b.saves))
  reposts : EntityKind.After db.reposts (blocks.map fun b ↦ (b.block, b.reposts))
  follows : EntityKind.After db.follows (blocks.map fun b ↦ (b.block, b.follows))
  contentLists : EntityKind.After db.contentLists (blocks.map fun b ↦ (b.block, b.contentLists))
  digitalContents :
    EntityKind.After db.digitalContents (blocks.map fun b ↦ (b.block, b.digitalContents))
  users : EntityKind.After db.users (blocks.map fun b ↦ (b.block, b.users))
  ursmContentNodes :
    EntityKind.After db.ursmContentNodes (blocks.map fun b ↦ (b.block, b.ursmContentNodes))
  associatedWallets :
    EntityKind.After db.associatedWallets (blocks.map fun b ↦ (b.block, b.associatedWallets))
  userEvents : EntityKind.After db.userEvents (blocks.map fun b ↦ (b.block, b.userEvents))
  digitalContentRoutes : EntityKind.After db.digitalContentRoutes
    (blocks.map fun b ↦ (b.block, b.digitalContentRoutes))

/-- No more than 500 blocks, and the query of each kind finds, for the entities they change, the
rows that were current. -/
structure Restorable (db : Database) (blocks : List BlockChanges) : Prop where
  length : blocks.length ≤ 500
  saves : saveKind.Restorable db.saves (blocks.map fun b ↦ (b.block, b.saves))
  reposts : repostKind.Restorable db.reposts (blocks.map fun b ↦ (b.block, b.reposts))
  follows : followKind.Restorable db.follows (blocks.map fun b ↦ (b.block, b.follows))
  contentLists :
    contentListKind.Restorable db.contentLists (blocks.map fun b ↦ (b.block, b.contentLists))
  digitalContents : digitalContentKind.Restorable db.digitalContents
    (blocks.map fun b ↦ (b.block, b.digitalContents))
  users : userKind.Restorable db.users (blocks.map fun b ↦ (b.block, b.users))
  ursmContentNodes : ursmContentNodeKind.Restorable db.ursmContentNodes
    (blocks.map fun b ↦ (b.block, b.ursmContentNodes))
  associatedWallets : associatedWalletKind.Restorable db.associatedWallets
    (blocks.map fun b ↦ (b.block, b.associatedWallets))
  userEvents : userEventKind.Restorable db.userEvents (blocks.map fun b ↦ (b.block, b.userEvents))
  digitalContentRoutes : digitalContentRouteKind.Restorable db.digitalContentRoutes
    (blocks.map fun b ↦ (b.block, b.digitalContentRoutes))

/-! ### The table of blocks -/

/-- The rows of the blocks, one after another. -/
def indexBlockRows (rows : List Block) (blocks : List ChainBlock) : Except String (List Block) :=
  blocks.foldlM addIndexedBlockToDb rows

/-- Reverting a block leaves the table below it. -/
theorem revertBlockRow_of_parent {rows : List Block} {block : ChainBlock}
    (hone : (rows.filter Block.isCurrent).length = 1) (hnodup : (rows.map Block.blockhash).Nodup)
    (hfresh : ∀ row ∈ rows, row.blockhash ≠ block.hash)
    (hparent : ∀ row ∈ rows, row.isCurrent = true → parentHash block.row = row.blockhash) :
    revertBlockRow (rows.map Block.demote ++ [block.row]) block.row = rows := by
  obtain ⟨current, hcurrent⟩ := length_eq_one_iff.mp hone
  have hmem : current ∈ rows ∧ current.isCurrent = true := by
    have := mem_singleton_self current
    rw [← hcurrent] at this
    exact mem_filter.mp this
  have hparentne : parentHash block.row ≠ block.hash := by
    rw [hparent current hmem.1 hmem.2]
    exact hfresh current hmem.1
  -- The current row is the parent, so it is the one that is made current again.
  have hrow : ∀ row ∈ rows, (if row.blockhash = parentHash block.row then
      { row.demote with isCurrent := true } else row.demote) = row := by
    intro row hrow
    split
    · next hhash =>
      have hsame : row = current := by
        apply inj_on_of_nodup_map hnodup hrow hmem.1
        rw [hhash, hparent current hmem.1 hmem.2]
      rw [hsame, Block.demote, ← hmem.2]
    · next hhash =>
      have hnot : row.isCurrent = false := by
        apply Bool.eq_false_of_not_eq_true
        exact fun h ↦ hhash (hparent row hrow h).symm
      rw [Block.demote, ← hnot]
  have hrows : (rows.map Block.demote).map (fun row ↦
      if row.blockhash = block.row.blockhash then row.demote else row) = rows.map Block.demote := by
    rw [map_map]
    apply map_congr_left
    intro row hrow
    exact if_neg (hfresh row hrow)
  have hpromoted : (rows.map Block.demote).map (fun row ↦
      if row.blockhash = parentHash block.row then { row with isCurrent := true } else row)
        = rows := by
    rw [map_map]
    exact (map_congr_left hrow).trans (map_id rows)
  have hlast : (if block.row.demote.blockhash = parentHash block.row then
      { block.row.demote with isCurrent := true } else block.row.demote) = block.row.demote :=
    if_neg fun heq ↦ hparentne heq.symm
  have hkept : rows.filter (fun row ↦ row.blockhash ≠ block.row.blockhash) = rows := by
    apply filter_eq_self.mpr
    intro row hrow
    exact decide_eq_true (hfresh row hrow)
  unfold revertBlockRow
  simp only [map_append, hrows, hpromoted, filter_append, hkept, map_singleton, if_true, hlast]
  simp [Block.demote]

/-- Reverting all blocks leaves the table they were added to. -/
theorem foldl_revertBlockRow (blocks : List ChainBlock) :
    ∀ rows rows' : List Block, indexBlockRows rows blocks = .ok rows' →
      (rows.map Block.blockhash).Nodup → (blocks.map ChainBlock.hash).Nodup →
      (∀ row ∈ rows, ∀ block ∈ blocks, row.blockhash ≠ block.hash) →
      (∀ row ∈ rows, row.isCurrent = true → Chained row.blockhash blocks) →
      (blocks.reverse.map ChainBlock.row).foldl revertBlockRow rows' = rows := by
  induction blocks with
  | nil =>
    intro rows rows' h _ _ _ _
    cases h
    rfl
  | cons block blocks ih =>
    intro rows rows' h hnodup hhashes hfresh hchained
    obtain ⟨rows₁, hblock, hrest⟩ := bind_eq_ok.mp h
    obtain ⟨hone, rfl⟩ := addIndexedBlockToDb_eq_ok hblock
    obtain ⟨hnotmem, hhashes⟩ := nodup_cons.mp hhashes
    have hblockfresh : ∀ row ∈ rows, row.blockhash ≠ block.hash := fun row hrow ↦
      hfresh row hrow block mem_cons_self
    have hrows₁ : (rows.map Block.demote ++ [block.row]).map Block.blockhash
        = rows.map Block.blockhash ++ [block.hash] := by
      rw [map_append, map_map]
      rfl
    have hrest' := ih _ rows' hrest ?_ hhashes ?_ ?_
    · rw [reverse_cons, map_append, foldl_append, hrest', map_singleton, foldl_cons, foldl_nil]
      apply revertBlockRow_of_parent hone hnodup hblockfresh
      intro row hrow hcurrent
      exact (hchained row hrow hcurrent).1
    · rw [hrows₁]
      apply nodup_append.mpr
      refine ⟨hnodup, nodup_singleton _, ?_⟩
      rintro _ hmem _ hlast rfl
      obtain ⟨row, hrow, heq⟩ := mem_map.mp hmem
      rw [mem_singleton] at hlast
      exact hblockfresh row hrow (heq.trans hlast)
    · intro row hrow other hother
      rcases mem_append.mp hrow with hold | hnew
      · obtain ⟨row', hrow', rfl⟩ := mem_map.mp hold
        exact hfresh row' hrow' other (mem_cons_of_mem _ hother)
      · rw [mem_singleton.mp hnew]
        intro heq
        exact hnotmem (mem_map.mpr ⟨other, hother, heq.symm⟩)
    · intro row hrow hcurrent
      rcases mem_append.mp hrow with hold | hnew
      · obtain ⟨row', -, rfl⟩ := mem_map.mp hold
        cases hcurrent
      · rw [mem_singleton.mp hnew]
        obtain ⟨current, hfilter⟩ := length_eq_one_iff.mp hone
        have hmem := mem_singleton_self current
        rw [← hfilter, mem_filter] at hmem
        exact (hchained current hmem.1 hmem.2).2

/-- A row stays in the table until its own block is reverted. -/
theorem mem_foldl_revertBlockRow (revertBlocksList : List Block) :
    ∀ (rows : List Block) (hash : BlockHash), hash ∈ rows.map Block.blockhash →
      (∀ revertBlock ∈ revertBlocksList, revertBlock.blockhash ≠ hash) →
      hash ∈ (revertBlocksList.foldl revertBlockRow rows).map Block.blockhash := by
  induction revertBlocksList with
  | nil => exact fun rows hash h _ ↦ h
  | cons revertBlock rest ih =>
    intro rows hash h hne
    apply ih
    · obtain ⟨row, hrow, rfl⟩ := mem_map.mp h
      have hother : row.blockhash ≠ revertBlock.blockhash :=
        (hne revertBlock mem_cons_self).symm
      refine mem_map.mpr ⟨if row.blockhash = parentHash revertBlock then
        { row with isCurrent := true } else row, ?_, ?_⟩
      · apply mem_filter.mpr
        refine ⟨mem_map.mpr ⟨row, mem_map.mpr ⟨row, hrow, if_neg hother⟩, rfl⟩, ?_⟩
        split <;> simpa using hother
      · split <;> rfl
    · exact fun block hblock ↦ hne block (mem_cons_of_mem _ hblock)

/-- The rows of indexed blocks are in the table. -/
theorem mem_indexBlockRows (blocks : List ChainBlock) :
    ∀ rows rows' : List Block, indexBlockRows rows blocks = .ok rows' →
      rows'.map Block.blockhash = rows.map Block.blockhash ++ blocks.map ChainBlock.hash := by
  induction blocks with
  | nil =>
    intro rows rows' h
    cases h
    simp
  | cons block blocks ih =>
    intro rows rows' h
    obtain ⟨rows₁, hblock, hrest⟩ := bind_eq_ok.mp h
    obtain ⟨-, rfl⟩ := addIndexedBlockToDb_eq_ok hblock
    rw [ih _ _ hrest, map_append, map_map, append_assoc]
    rfl

/-! ### The database -/

/-- Each table of the database is indexed by itself. -/
structure Indexed (db db' : Database) (blocks : List BlockChanges) : Prop where
  blockRows : indexBlockRows db.blocks (blocks.map BlockChanges.block) = .ok db'.blocks
  saves : saveKind.indexBlocks db.saves (blocks.map fun b ↦ (b.block, b.saves)) = .ok db'.saves
  reposts : repostKind.indexBlocks db.reposts
    (blocks.map fun b ↦ (b.block, b.reposts)) = .ok db'.reposts
  follows : followKind.indexBlocks db.follows
    (blocks.map fun b ↦ (b.block, b.follows)) = .ok db'.follows
  contentLists : contentListKind.indexBlocks db.contentLists
    (blocks.map fun b ↦ (b.block, b.contentLists)) = .ok db'.contentLists
  digitalContents : digitalContentKind.indexBlocks db.digitalContents
    (blocks.map fun b ↦ (b.block, b.digitalContents)) = .ok db'.digitalContents
  users : userKind.indexBlocks db.users (blocks.map fun b ↦ (b.block, b.users)) = .ok db'.users
  ursmContentNodes : ursmContentNodeKind.indexBlocks db.ursmContentNodes
    (blocks.map fun b ↦ (b.block, b.ursmContentNodes)) = .ok db'.ursmContentNodes
  associatedWallets : associatedWalletKind.indexBlocks db.associatedWallets
    (blocks.map fun b ↦ (b.block, b.associatedWallets)) = .ok db'.associatedWallets
  userEvents : userEventKind.indexBlocks db.userEvents
    (blocks.map fun b ↦ (b.block, b.userEvents)) = .ok db'.userEvents
  digitalContentRoutes : digitalContentRouteKind.indexBlocks db.digitalContentRoutes
    (blocks.map fun b ↦ (b.block, b.digitalContentRoutes)) = .ok db'.digitalContentRoutes

theorem indexBlocks_eq_ok (blocks : List BlockChanges) :
    ∀ db db' : Database, db.indexBlocks blocks = .ok db' → Indexed db db' blocks := by
  induction blocks with
  | nil =>
    intro db db' h
    cases h
    constructor <;> rfl
  | cons changes blocks ih =>
    intro db db' h
    obtain ⟨db₁, hblock, hrest⟩ := bind_eq_ok.mp h
    have hindexed := ih db₁ db' hrest
    simp only [indexBlock, bind_eq_ok, pure_eq_ok] at hblock
    obtain ⟨_, hblocks, _, husers, _, hwallets, _, hevents, _, hcontents, _, hroutes, _, hreposts,
      _, hfollows, _, hlists, _, hsaves, _, hnodes, rfl⟩ := hblock
    exact {
      blockRows := bind_eq_ok.mpr ⟨_, hblocks, hindexed.blockRows⟩
      saves := bind_eq_ok.mpr ⟨_, hsaves, hindexed.saves⟩
      reposts := bind_eq_ok.mpr ⟨_, hreposts, hindexed.reposts⟩
      follows := bind_eq_ok.mpr ⟨_, hfollows, hindexed.follows⟩
      contentLists := bind_eq_ok.mpr ⟨_, hlists, hindexed.contentLists⟩
      digitalContents := bind_eq_ok.mpr ⟨_, hcontents, hindexed.digitalContents⟩
      users := bind_eq_ok.mpr ⟨_, husers, hindexed.users⟩
      ursmContentNodes := bind_eq_ok.mpr ⟨_, hnodes, hindexed.ursmContentNodes⟩
      associatedWallets := bind_eq_ok.mpr ⟨_, hwallets, hindexed.associatedWallets⟩
      userEvents := bind_eq_ok.mpr ⟨_, hevents, hindexed.userEvents⟩
      digitalContentRoutes := bind_eq_ok.mpr ⟨_, hroutes, hindexed.digitalContentRoutes⟩ }

/-- Each table of the database is reverted by itself. -/
theorem foldl_revertBlock (db : Database) (revertBlocksList : List Block) :
    revertBlocksList.foldl revertBlock db = {
      blocks := revertBlocksList.foldl revertBlockRow db.blocks
      saves := saveKind.revertBlocks db.saves revertBlocksList
      reposts := repostKind.revertBlocks db.reposts revertBlocksList
      follows := followKind.revertBlocks db.follows revertBlocksList
      contentLists := contentListKind.revertBlocks db.contentLists revertBlocksList
      digitalContents := digitalContentKind.revertBlocks db.digitalContents revertBlocksList
      users := userKind.revertBlocks db.users revertBlocksList
      ursmContentNodes := ursmContentNodeKind.revertBlocks db.ursmContentNodes revertBlocksList
      associatedWallets := associatedWalletKind.revertBlocks db.associatedWallets revertBlocksList
      userEvents := userEventKind.revertBlocks db.userEvents revertBlocksList
      digitalContentRoutes :=
        digitalContentRouteKind.revertBlocks db.digitalContentRoutes revertBlocksList } := by
  induction revertBlocksList generalizing db with
  | nil => rfl
  | cons block rest ih =>
    rw [foldl_cons, ih]
    rfl

/-- The rows of indexed blocks, in the two ways they are written. -/
theorem map_reverse_row {α : Type} (blocks : List BlockChanges) (f : BlockChanges → α) :
    (blocks.map fun b ↦ (b.block, f b)).reverse.map (fun block ↦ block.1.row)
      = blocks.reverse.map fun b ↦ b.block.row := by
  rw [← map_reverse, map_map]
  rfl

variable {db db' : Database} {blocks : List BlockChanges}

/-- When all blocks are reverted, their rows are gone and the row below them is current. -/
theorem Continues.foldl_blockRows (h : Continues db blocks) (hindexed : Indexed db db' blocks) :
    (blocks.reverse.map fun b ↦ b.block.row).foldl revertBlockRow db'.blocks = db.blocks := by
  have hhashes : ((blocks.map BlockChanges.block).map ChainBlock.hash).Nodup := by
    have := h.saves.hashes
    rwa [map_map] at this ⊢
  have hfresh : ∀ row ∈ db.blocks, ∀ block ∈ blocks.map BlockChanges.block,
      row.blockhash ≠ block.hash := by
    intro row hrow block hblock
    obtain ⟨changes, hchanges, rfl⟩ := mem_map.mp hblock
    exact h.fresh row hrow changes hchanges
  have hrows := foldl_revertBlockRow _ _ _ hindexed.blockRows h.rows hhashes hfresh h.chained
  rwa [← map_reverse, map_map] at hrows

/-- When more than 500 blocks are to be reverted, the row of the first one stays. -/
theorem Continues.ne_of_length (h : Continues db blocks) (hindexed : Indexed db db' blocks)
    (hlength : 500 < blocks.length) :
    ((blocks.reverse.map fun b ↦ b.block.row).take 500).foldl revertBlockRow db'.blocks
      ≠ db.blocks := by
  intro heq
  obtain ⟨first, rest, rfl⟩ := exists_cons_of_length_pos (Nat.lt_of_le_of_lt bot_le hlength)
  have hhashes : first.block.hash ∉ rest.map fun b ↦ b.block.hash := by
    have := h.saves.hashes
    rw [map_map] at this
    exact (nodup_cons.mp this).1
  have htake : (((first :: rest).reverse.map fun b ↦ b.block.row).take 500)
      = (rest.reverse.map fun b ↦ b.block.row).take 500 := by
    rw [reverse_cons, map_append, take_append_of_le_length]
    rw [length_map, length_reverse]
    exact Nat.le_of_lt_succ hlength
  have hmem : first.block.hash ∈ db'.blocks.map Block.blockhash := by
    rw [mem_indexBlockRows _ _ _ hindexed.blockRows]
    exact mem_append_right _ mem_cons_self
  have hstays := mem_foldl_revertBlockRow
    ((rest.reverse.map fun b ↦ b.block.row).take 500) db'.blocks first.block.hash hmem ?_
  · rw [← htake, heq] at hstays
    obtain ⟨row, hrow, hhash⟩ := mem_map.mp hstays
    exact h.fresh row hrow first mem_cons_self hhash
  · intro revertBlock hrevert
    obtain ⟨changes, hchanges, rfl⟩ := mem_map.mp (mem_of_mem_take hrevert)
    intro hhash
    exact hhashes (mem_map.mpr ⟨changes, mem_reverse.mp hchanges, hhash⟩)

/-- Blocks that continue the chain are indexed and then reverted: the database is as it was just
when there are at most 500 of them and each kind of entity was restorable. -/
theorem revertBlocks_indexBlocks_iff (h : Continues db blocks)
    (hindex : db.indexBlocks blocks = .ok db') :
    db'.revertBlocks (blocks.reverse.map fun b ↦ b.block.row) = .ok db ↔
      Restorable db blocks := by
  have hindexed := indexBlocks_eq_ok blocks db db' hindex
  have hsaves := EntityKind.reverted_eq_iff h.saves hindexed.saves
  have hreposts := EntityKind.reverted_eq_iff h.reposts hindexed.reposts
  have hfollows := EntityKind.reverted_eq_iff h.follows hindexed.follows
  have hcontentLists := EntityKind.reverted_eq_iff h.contentLists hindexed.contentLists
  have hdigitalContents :=
    EntityKind.reverted_eq_iff h.digitalContents hindexed.digitalContents
  have husers := EntityKind.reverted_eq_iff h.users hindexed.users
  have hursmContentNodes :=
    EntityKind.reverted_eq_iff h.ursmContentNodes hindexed.ursmContentNodes
  have hassociatedWallets :=
    EntityKind.reverted_eq_iff h.associatedWallets hindexed.associatedWallets
  have huserEvents := EntityKind.reverted_eq_iff h.userEvents hindexed.userEvents
  have hdigitalContentRoutes :=
    EntityKind.reverted_eq_iff h.digitalContentRoutes hindexed.digitalContentRoutes
  rw [map_reverse_row] at hsaves hreposts hfollows hcontentLists hdigitalContents
  rw [map_reverse_row] at husers hursmContentNodes hassociatedWallets huserEvents
  rw [map_reverse_row] at hdigitalContentRoutes
  have hlist : (blocks.reverse.map fun b ↦ b.block.row).length = blocks.length := by
    rw [List.length_map, List.length_reverse]
  unfold revertBlocks
  constructor
  · intro hrevert
    split at hrevert
    · cases hrevert
    · have hdb := Except.ok.inj hrevert
      have hlength : blocks.length ≤ 500 := by
        by_contra hlong
        rw [foldl_revertBlock] at hdb
        exact h.ne_of_length hindexed (Nat.lt_of_not_le hlong) (congrArg Database.blocks hdb)
      rw [List.take_of_length_le (hlist.trans_le hlength), foldl_revertBlock] at hdb
      rw [Database.ext_iff] at hdb
      obtain ⟨-, h₁, h₂, h₃, h₄, h₅, h₆, h₇, h₈, h₉, h₁₀⟩ := hdb
      exact ⟨hlength, hsaves.mp h₁, hreposts.mp h₂, hfollows.mp h₃, hcontentLists.mp h₄,
        hdigitalContents.mp h₅, husers.mp h₆, hursmContentNodes.mp h₇, hassociatedWallets.mp h₈,
        huserEvents.mp h₉, hdigitalContentRoutes.mp h₁₀⟩
  · intro hrestorable
    have hlength := hrestorable.length
    rw [if_neg (by omega), List.take_of_length_le (hlist.trans_le hlength), foldl_revertBlock]
    congr 1
    apply Database.ext
    · exact h.foldl_blockRows hindexed
    · exact hsaves.mpr hrestorable.saves
    · exact hreposts.mpr hrestorable.reposts
    · exact hfollows.mpr hrestorable.follows
    · exact hcontentLists.mpr hrestorable.contentLists
    · exact hdigitalContents.mpr hrestorable.digitalContents
    · exact husers.mpr hrestorable.users
    · exact hursmContentNodes.mpr hrestorable.ursmContentNodes
    · exact hassociatedWallets.mpr hrestorable.associatedWallets
    · exact huserEvents.mpr hrestorable.userEvents
    · exact hdigitalContentRoutes.mpr hrestorable.digitalContentRoutes

/-- A database of one block and one content list. -/
def oneContentList : Database where
  blocks := [⟨"0xb1", "0xb0", some 1, true⟩]
  saves := []
  reposts := []
  follows := []
  contentLists := [⟨1, 5, some "0xb1", some 1, true⟩]
  digitalContents := []
  users := []
  ursmContentNodes := []
  associatedWallets := []
  userEvents := []
  digitalContentRoutes := []

/-- The next block, which updates the content list and does nothing else. -/
def updateContentList : BlockChanges where
  block := ⟨"0xb2", "0xb1", 2, []⟩
  saves := []
  reposts := []
  follows := []
  contentLists := [⟨5, [(2, 5)]⟩]
  digitalContents := []
  users := []
  ursmContentNodes := []
  associatedWallets := []
  userEvents := []
  digitalContentRoutes := []

theorem revertBlocks_indexBlocks_contentList :
    ∃ db', oneContentList.indexBlocks [updateContentList] = .ok db' ∧
      (db'.revertBlocks [updateContentList.block.row] = .ok oneContentList ↔
        Restorable oneContentList [updateContentList]) := by
  have hempty : ∀ {ρ κ : Type}, EntityKind.After ([] : List (Row ρ))
      ([(updateContentList.block, ([] : List (Change ρ κ)))]) := by
    intro ρ κ
    constructor <;> simp [EntityKind.newRows, EntityKind.addedRows]
  have hcontinues : Continues oneContentList [updateContentList] := by
    refine ⟨?_, by decide, by decide, hempty, hempty, hempty, ?_, hempty, hempty, hempty, hempty,
      hempty, hempty⟩
    · intro row hrow _
      rw [List.mem_singleton.mp hrow]
      exact ⟨by decide, trivial⟩
    · constructor
      · decide
      · decide
      · intro row hrow block hblock n hn
        rw [List.mem_singleton.mp hblock]
        rw [List.mem_singleton.mp hrow] at hn
        cases hn
        decide
      · decide
      · decide
  have hindex := eq_ok_valueOf (oneContentList.indexBlocks [updateContentList])
    (by decide +kernel)
  exact ⟨_, hindex, revertBlocks_indexBlocks_iff hcontinues hindex⟩

/-- The same database and block with a save in the place of the content list: the save that was
current before is not current after the revert. -/
theorem save_not_restored :
    let db := { oneContentList with
      contentLists := []
      saves := [⟨1, ⟨7, 3, .album⟩, some "0xb1", some 1, true⟩] }
    let changes := { updateContentList with
      contentLists := []
      saves := [⟨⟨7, 3, .album⟩, [(2, ⟨7, 3, .album⟩)]⟩] }
    let reverted := do (← db.indexBlocks [changes]).revertBlocks [changes.block.row]
    reverted = .ok { db with saves := [⟨1, ⟨7, 3, .album⟩, some "0xb1", some 1, false⟩] } ∧
      reverted ≠ .ok db := by
  decide +kernel

end Database

end ColivingSpec.Discovery
