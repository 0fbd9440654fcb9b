import ColivingSpec.Discovery.RevertUndo
import ColivingSpec.Discovery.UpdateTask

/-!
# Tables that are a path of a chain

A start row with the rows of consecutive blocks of a chain above it, the last of them current.
Indexing the next block of the chain and reverting the last row keep this shape.
-/

namespace ColivingSpec.Discovery

open Lib List

/-! ### Tables that are a path -/

/-- The rows, the last of them marked as current. -/
def crown (rows : List Block) : List Block :=
  rows.dropLast ++ (rows.getLast?.map fun row ↦ { row with isCurrent := true }).toList

theorem crown_concat (rows : List Block) (row : Block) :
    crown (rows ++ [row]) = rows ++ [{ row with isCurrent := true }] := by
  simp [crown]

variable {headers : Headers} (config : DiscprovConfig)

/-- The row of a block with the hash, not marked. -/
def hashRow (headers : Headers) (hash : BlockHash) : Block :=
  ⟨hash, headers.parentOf hash, some (headers.numberOf hash), false⟩

/-- The row that indexing starts with, not marked. -/
def startRow (headers : Headers) : Block where
  blockhash := config.startBlock
  parenthash := config.startBlock
  number :=
    if headers.numberOf config.startBlock = 0 ∨ config.startBlock = defaultConfigStartHash then none
    else some (headers.numberOf config.startBlock)
  isCurrent := false

/-- The start row and the rows of a path, not marked. -/
def spine (headers : Headers) (path : List BlockHash) : List Block :=
  startRow config headers :: path.map (hashRow headers)

/-- The table when the path is indexed. -/
def tableOf (headers : Headers) (path : List BlockHash) : List Block :=
  crown (spine config headers path)

/-- The number of the first block above the start row. -/
def base (headers : Headers) : ℕ :=
  if config.startBlock = defaultConfigStartHash then 0
  else headers.numberOf config.startBlock + 1

/-- The hashes of a chain above the start row. -/
def above (view : ChainView headers) : List BlockHash := view.hashes.drop (base config headers)

/-- The chain has the block that indexing starts with. -/
def HasStart (view : ChainView headers) : Prop :=
  config.startBlock = defaultConfigStartHash ∨ config.startBlock ∈ view.hashes

/-- The last hash of a path, or that of the start row below it. -/
def lastHash (path : List BlockHash) : BlockHash := path.getLast?.getD config.startBlock

/-- The last row of a path, or the start row below it. -/
def lastRow (headers : Headers) (path : List BlockHash) : Block :=
  match path.getLast? with
  | some hash => hashRow headers hash
  | none => startRow config headers

variable {config} (path : List BlockHash) {row : Block} {hash : BlockHash} {i : ℕ}
  {block : ChainBlock}

@[simp] theorem lastHash_concat (hash : BlockHash) :
    lastHash config (path ++ [hash]) = hash := by
  simp [lastHash]

theorem blockhash_lastRow :
    (lastRow config headers path).blockhash = lastHash config path := by
  unfold lastRow lastHash
  cases path.getLast? with
  | none => rfl
  | some hash => rfl

theorem spine_concat (hash : BlockHash) :
    spine config headers (path ++ [hash])
      = spine config headers path ++ [hashRow headers hash] := by
  simp [spine]

variable (config headers) in
/-- The last row is at the end. -/
theorem exists_spine_eq :
    ∃ rows, spine config headers path = rows ++ [lastRow config headers path] := by
  induction path using reverseRecOn with
  | nil => exact ⟨[], rfl⟩
  | append_singleton path hash =>
    refine ⟨spine config headers path, ?_⟩
    rw [spine_concat]
    simp [lastRow]

theorem blockhash_spine :
    (spine config headers path).map Block.blockhash = config.startBlock :: path := by
  unfold spine
  rw [map_cons, map_map]
  congr 1
  exact map_id path

theorem isCurrent_spine {path : List BlockHash} (h : row ∈ spine config headers path) :
    row.isCurrent = false := by
  rcases mem_cons.mp h with rfl | h
  · rfl
  · obtain ⟨hash, -, rfl⟩ := mem_map.mp h
    rfl

variable (config headers) in
theorem map_demote_spine :
    (spine config headers path).map Block.demote = spine config headers path := by
  refine (map_congr_left fun row hrow ↦ ?_).trans (map_id _)
  rw [Block.demote, id, ← isCurrent_spine hrow]

variable (config headers) in
/-- The marks aside, the table is the start row and the path. -/
theorem map_demote_tableOf :
    (tableOf config headers path).map Block.demote = spine config headers path := by
  obtain ⟨rows, hrows⟩ := exists_spine_eq headers config path
  have hdemote := map_demote_spine headers config path
  rw [tableOf, hrows, crown_concat, ← hrows, ← hdemote, hrows, map_append, map_append]
  rfl

variable (config headers) in
theorem blockhash_tableOf :
    (tableOf config headers path).map Block.blockhash = config.startBlock :: path := by
  rw [← blockhash_spine, ← map_demote_tableOf, map_map]
  rfl

/-- The last row is the one that is current. -/
theorem filter_isCurrent_tableOf :
    (tableOf config headers path).filter Block.isCurrent
      = [{ lastRow config headers path with isCurrent := true }] := by
  obtain ⟨rows, hrows⟩ := exists_spine_eq headers config path
  have hnone : rows.filter Block.isCurrent = [] := by
    apply filter_eq_nil_iff.mpr
    intro row hrow
    have hmem : row ∈ spine config headers path := by
      rw [hrows]
      exact mem_append_left _ hrow
    rw [isCurrent_spine hmem]
    exact Bool.false_ne_true
  rw [tableOf, hrows, crown_concat, filter_append, hnone]
  rfl

theorem currentRow_tableOf :
    currentRow (tableOf config headers path)
      = .ok { lastRow config headers path with isCurrent := true } := by
  rw [currentRow, filter_isCurrent_tableOf]

theorem inBlocks_tableOf {path : List BlockHash} :
    inBlocks (tableOf config headers path) hash = true ↔
      hash = config.startBlock ∨ hash ∈ path := by
  have hmem : inBlocks (tableOf config headers path) hash = true ↔
      hash ∈ (tableOf config headers path).map Block.blockhash := by
    simp [inBlocks]
  rw [hmem, blockhash_tableOf, mem_cons]

/-! ### Chains -/

variable {view : ChainView headers}

theorem getElem_hashes (hi : i < view.blocks.length) :
    view.hashes[i]? = some view.blocks[i].hash := by
  rw [ChainView.hashes, getElem?_map, getElem?_eq_getElem hi]
  rfl

/-- The number of a block is its place. -/
theorem number_getElem (hi : i < view.blocks.length) : view.blocks[i].number = i := by
  have hnumber := view.segment.number i (by rwa [length_map])
  rw [getElem_map] at hnumber
  rw [view.number _ (getElem_mem hi), hnumber, Nat.zero_add]

theorem parentHash_getElem (hi : i + 1 < view.blocks.length) :
    view.blocks[i + 1].parentHash = view.blocks[i].hash := by
  have hparent := view.segment.parent i (by rwa [length_map])
  rw [getElem_map, getElem_map] at hparent
  rw [view.parent _ (getElem_mem hi), hparent]

/-- Only the first block is its own parent. -/
theorem parentHash_eq_padded_iff (hi : i < view.blocks.length) :
    view.blocks[i].parentHash = defaultPaddedStartHash ↔ i = 0 := by
  rw [view.first _ (getElem_mem hi), number_getElem hi]

/-- A block is found under its hash. -/
theorem getBlock_of_mem (h : block ∈ view.blocks) :
    view.getBlock block.hash = .ok block := by
  unfold ChainView.getBlock
  cases hfind : view.blocks.find? fun other ↦ other.hash = block.hash with
  | none =>
    have := find?_eq_none.mp hfind block h
    simp at this
  | some other =>
    have hother := mem_of_find?_eq_some hfind
    have hhash : other.hash = block.hash := by simpa using find?_some hfind
    rw [inj_on_of_nodup_map view.segment.nodup hother h hhash]

theorem proper_of_mem (h : hash ∈ view.hashes) :
    hash ≠ defaultPaddedStartHash ∧ hash ≠ defaultConfigStartHash := by
  obtain ⟨block, hblock, rfl⟩ := mem_map.mp h
  exact view.proper block hblock

/-- Where the start block is. -/
theorem HasStart.getElem (h : HasStart config view)
    (hstart : config.startBlock ≠ defaultConfigStartHash) :
    view.hashes[headers.numberOf config.startBlock]? = some config.startBlock := by
  have hmem : config.startBlock ∈ view.hashes := h.resolve_left hstart
  obtain ⟨i, hi, hhash⟩ := mem_iff_getElem.mp hmem
  have hnumber := view.segment.number i hi
  rw [Nat.zero_add] at hnumber
  have hi' : headers.numberOf config.startBlock = i := by
    rw [← hhash]
    exact hnumber
  rw [hi', getElem?_eq_getElem hi, hhash]

theorem HasStart.base_le (h : HasStart config view) : base config headers ≤ view.hashes.length := by
  unfold base
  split
  · exact Nat.zero_le _
  · next hstart =>
    obtain ⟨hlt, -⟩ := List.getElem?_eq_some_iff.mp (h.getElem hstart)
    exact hlt

/-- What is above the start block is a segment. -/
theorem above_segment (view : ChainView headers) :
    Segment headers.parentOf headers.numberOf (base config headers) (above config view) := by
  have := view.segment.drop (base config headers)
  rwa [Nat.zero_add] at this

theorem above_subset (h : hash ∈ above config view) : hash ∈ view.hashes :=
  mem_of_mem_drop h

/-- The start block is not above itself. -/
theorem startBlock_notMem {path : List BlockHash} (h : path <+: above config view) :
    config.startBlock ∉ path := by
  intro hmem
  have habove := h.subset hmem
  have hnumber := (above_segment view).le_number habove
  unfold base at hnumber
  split at hnumber
  · next hstart => exact (proper_of_mem (above_subset habove)).2 hstart
  · omega

/-- No hash occurs twice in a table. -/
theorem nodup_tableOf {path : List BlockHash} (h : path <+: above config view) :
    ((tableOf config headers path).map Block.blockhash).Nodup := by
  rw [blockhash_tableOf]
  exact nodup_cons.mpr ⟨startBlock_notMem h, ((above_segment view).of_isInitial h).nodup⟩

/-- The row below the last row of a path is found under its parent hash. -/
theorem parentHash_hashRow (hstart : HasStart config view) {path : List BlockHash}
    (h : path ++ [hash] <+: above config view) :
    Database.parentHash (hashRow headers hash) = lastHash config path ∧
      (headers.parentOf hash = defaultPaddedStartHash → path = []) := by
  obtain ⟨rest, habove⟩ := h
  have hdrop : (view.hashes.drop (base config headers))[path.length]? = some hash := by
    have hsome : (path ++ [hash] ++ rest)[path.length]? = some hash := by simp
    rwa [habove] at hsome
  rw [getElem?_drop] at hdrop
  obtain ⟨hlt, hhash⟩ := List.getElem?_eq_some_iff.mp hdrop
  have hlt' : base config headers + path.length < view.blocks.length := by
    rwa [ChainView.hashes, length_map] at hlt
  have hblock : view.blocks[base config headers + path.length].hash = hash := by
    rw [← hhash]
    simp [ChainView.hashes]
  have hparent : headers.parentOf hash
      = view.blocks[base config headers + path.length].parentHash := by
    rw [view.parent _ (getElem_mem hlt'), hblock]
  have hpadded := parentHash_eq_padded_iff hlt'
  rw [← hparent] at hpadded
  induction path using reverseRecOn with
  | nil =>
    refine ⟨?_, fun _ ↦ rfl⟩
    show (if headers.parentOf hash = defaultPaddedStartHash then defaultConfigStartHash
      else headers.parentOf hash) = config.startBlock
    by_cases hfirst : config.startBlock = defaultConfigStartHash
    · have hzero : base config headers = 0 := if_pos hfirst
      rw [if_pos (hpadded.mpr (by rw [hzero]; rfl)), hfirst]
    · have hbase : base config headers = headers.numberOf config.startBlock + 1 := if_neg hfirst
      have hbelow := hstart.getElem hfirst
      rw [if_neg (fun heq ↦ absurd (hpadded.mp heq) (by rw [hbase]; simp)), hparent]
      simp only [hbase, length_nil, Nat.add_zero] at hlt' ⊢
      rw [parentHash_getElem hlt']
      rw [getElem_hashes (by omega)] at hbelow
      exact Option.some.inj hbelow
  | append_singleton path below _ =>
    have hpre : path ++ [below, hash] <+: above config view := by
      refine ⟨rest, ?_⟩
      rw [← habove]
      simp
    have hbelow := ((above_segment view).of_isInitial hpre).parent_concat
    have hnot : headers.parentOf hash ≠ defaultPaddedStartHash := by
      intro heq
      have := hpadded.mp heq
      simp at this
    refine ⟨?_, fun heq ↦ absurd heq hnot⟩
    rw [lastHash_concat, ← hbelow]
    exact if_neg hnot

/-! ### One row more, one row less -/

theorem tableOf_concat (hash : BlockHash) :
    tableOf config headers (path ++ [hash])
      = (tableOf config headers path).map Block.demote
        ++ [{ hashRow headers hash with isCurrent := true }] := by
  rw [map_demote_tableOf, tableOf, spine_concat, crown_concat]

/-- The row of a block of the chain. -/
theorem row_eq_hashRow (h : block ∈ view.blocks) :
    block.row = { hashRow headers block.hash with isCurrent := true } := by
  rw [ChainBlock.row, hashRow, view.parent block h, view.number block h]

/-- No row has the number of the next block. -/
theorem number_ne_of_mem_tableOf {path : List BlockHash} (h : path ++ [hash] <+: above config view)
    (hrow : row ∈ tableOf config headers path) : row.number ≠ some (headers.numberOf hash) := by
  have hsegment := (above_segment view).of_isInitial h
  have hlast : headers.numberOf hash = base config headers + path.length := by
    have := hsegment.number path.length (by simp)
    simpa using this
  have hdemote : row.demote ∈ spine config headers path := by
    rw [← map_demote_tableOf]
    exact mem_map_of_mem hrow
  have hnumber : row.number = row.demote.number := rfl
  rw [hnumber]
  rcases mem_cons.mp hdemote with heq | hmem
  · rw [heq, startRow]
    split
    · exact fun h ↦ nomatch h
    · next hstart =>
      have hbase : base config headers = headers.numberOf config.startBlock + 1 :=
        if_neg fun h ↦ hstart (.inr h)
      intro hsome
      have := Option.some.inj hsome
      omega
  · obtain ⟨other, hother, heq⟩ := mem_map.mp hmem
    obtain ⟨i, hi, rfl⟩ := mem_iff_getElem.mp hother
    have hbelow := hsegment.number i (by rw [length_append]; omega)
    rw [getElem_append_left hi] at hbelow
    rw [← heq]
    intro hsome
    have : headers.numberOf path[i] = headers.numberOf hash := Option.some.inj hsome
    omega

/-- The next block of the chain is committed. -/
theorem commitBlockRow_tableOf {path : List BlockHash} (hblock : block ∈ view.blocks)
    (h : path ++ [block.hash] <+: above config view) :
    commitBlockRow (tableOf config headers path) block
      = .ok (tableOf config headers (path ++ [block.hash])) := by
  have hone : ((tableOf config headers path).filter Block.isCurrent).length = 1 := by
    rw [filter_isCurrent_tableOf]
    rfl
  have hnew : ¬ inBlocks (tableOf config headers path) block.hash = true := by
    rw [inBlocks_tableOf]
    have hnodup := nodup_tableOf h
    rw [blockhash_tableOf] at hnodup
    rintro (heq | hmem)
    · exact startBlock_notMem h (heq ▸ mem_append_right _ (mem_singleton_self _))
    · exact (nodup_append.mp (nodup_cons.mp hnodup).2).2.2 _ hmem _
        (mem_singleton_self _) rfl
  have hnumber : ∀ row ∈ tableOf config headers path, row.number ≠ some block.number := by
    intro row hrow
    rw [view.number block hblock]
    exact number_ne_of_mem_tableOf h hrow
  rw [commitBlockRow, addIndexedBlockToDb_of_current block hone, ok_bind, require, if_pos hnew,
    ok_bind, require, if_pos hnumber, ok_bind, tableOf_concat, row_eq_hashRow hblock]
  rfl

/-- The last row of a path is reverted. -/
theorem revertBlockRow_tableOf (hstart : HasStart config view) {path : List BlockHash}
    (h : path ++ [hash] <+: above config view) (hrow : row.demote = hashRow headers hash) :
    Database.revertBlockRow (tableOf config headers (path ++ [hash])) row
      = tableOf config headers path := by
  let block : ChainBlock := ⟨hash, headers.parentOf hash, headers.numberOf hash, []⟩
  have hsame : Database.revertBlockRow (tableOf config headers (path ++ [hash])) row
      = Database.revertBlockRow (tableOf config headers (path ++ [hash])) block.row := by
    have hhash : row.blockhash = hash := congrArg Block.blockhash hrow
    have hparent : row.parenthash = headers.parentOf hash := congrArg Block.parenthash hrow
    simp only [Database.revertBlockRow, Database.parentHash, hhash, hparent]
    rfl
  have hpre : path <+: above config view := (prefix_append path [hash]).trans h
  rw [hsame, tableOf_concat]
  apply Database.revertBlockRow_of_parent
  · rw [filter_isCurrent_tableOf]
    rfl
  · exact nodup_tableOf hpre
  · intro other hother heq
    have hmem : hash ∈ config.startBlock :: path := by
      rw [← blockhash_tableOf]
      exact mem_map.mpr ⟨other, hother, heq⟩
    have hnodup := nodup_tableOf h
    rw [blockhash_tableOf, ← cons_append] at hnodup
    exact (nodup_append.mp hnodup).2.2 _ hmem _ (mem_singleton_self _) rfl
  · intro other hother hcurrent
    have hmem : other ∈ (tableOf config headers path).filter Block.isCurrent :=
      mem_filter.mpr ⟨hother, hcurrent⟩
    rw [filter_isCurrent_tableOf, mem_singleton] at hmem
    rw [hmem]
    exact (parentHash_hashRow hstart h).1.trans (blockhash_lastRow path).symm

/-- The rows at the end of a path are reverted one after another. -/
theorem foldl_revertBlockRow_tableOf (hstart : HasStart config view) (path own : List BlockHash) :
    path ++ own <+: above config view → ∀ rows : List Block,
      rows.map Block.demote = (own.map (hashRow headers)).reverse →
      rows.foldl Database.revertBlockRow (tableOf config headers (path ++ own))
        = tableOf config headers path := by
  induction own using reverseRecOn with
  | nil =>
    intro _ rows hrows
    rw [map_nil, reverse_nil, map_eq_nil_iff] at hrows
    rw [hrows, append_nil]
    rfl
  | append_singleton own hash ih =>
    intro h rows hrows
    rw [map_append, reverse_append] at hrows
    obtain ⟨row, rest, rfl, hrow, hrest⟩ := map_eq_cons_iff.mp hrows
    rw [← append_assoc] at h ⊢
    rw [foldl_cons, revertBlockRow_tableOf hstart h hrow]
    exact ih ((prefix_append _ _).trans h) rest hrest

/-- Blocks at the end of a path are indexed one after another. -/
theorem indexBlockRows_tableOf (hashes : List BlockHash) :
    path ++ hashes <+: above config view → ∀ blocks : List ChainBlock,
      (∀ block ∈ blocks, block ∈ view.blocks) → blocks.map ChainBlock.hash = hashes.reverse →
      indexBlockRows (tableOf config headers path) blocks
        = (tableOf config headers (path ++ hashes), .ok ()) := by
  induction hashes using reverseRecOn with
  | nil =>
    intro _ blocks _ hblocks
    rw [reverse_nil, map_eq_nil_iff] at hblocks
    rw [hblocks, append_nil]
    rfl
  | append_singleton hashes hash ih =>
    intro h blocks hview hblocks
    rw [reverse_append] at hblocks
    obtain ⟨block, rest, rfl, rfl, hrest⟩ := map_eq_cons_iff.mp hblocks
    rw [← append_assoc] at h ⊢
    have hbelow := ih ((prefix_append _ _).trans h) rest
      (fun b hb ↦ hview b (mem_cons_of_mem _ hb)) hrest
    have hcommit := commitBlockRow_tableOf (hview block mem_cons_self) h
    unfold indexBlockRows at hbelow ⊢
    rw [foldr_cons, hbelow]
    simp only [hcommit]

end ColivingSpec.Discovery
