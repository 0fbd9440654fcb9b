import ColivingSpec.Discovery.BlockPath
import ColivingSpec.Lib.Replay

/-!
# The table of blocks follows the chain

Between runs the table is a start row with a path of a chain above it. A run finds where the path
leaves the chain it sees, and when no more than 500 rows are above that point it reverts them and
indexes blocks of the chain in their place. With more rows above, the first 500 alone are reverted
and the blocks are indexed on top of a row that is not their parent.
-/

namespace ColivingSpec.Discovery

open Lib List

variable {headers : Headers} {config : DiscprovConfig} {view : ChainView headers}

/-! ### The two searches -/

theorem lastHash_mem (path : List BlockHash) :
    lastHash config path ∈ config.startBlock :: path := by
  unfold lastHash
  cases hlast : path.getLast? with
  | none => exact mem_cons_self
  | some hash => exact mem_cons_of_mem _ (mem_of_getLast? hlast)

variable {path own : List BlockHash} {rows : List Block} {common : List BlockHash}
  {view' : ChainView headers} {own' : List BlockHash}

/-- A hash further up is not the last one. -/
theorem ne_lastHash {hash : BlockHash} (h : path ++ own <+: above config view) (hmem : hash ∈ own) :
    hash ≠ lastHash config path := by
  intro heq
  have hnodup := nodup_tableOf h
  rw [blockhash_tableOf, ← cons_append] at hnodup
  exact (nodup_append.mp hnodup).2.2 _ (lastHash_mem path) _ hmem heq.symm

/-- A row is found under its hash, whatever the marks are. -/
theorem find?_blockhash (h : path <+: above config view)
    (hrows : rows.map Block.demote = spine config headers path) {row : Block}
    (hrow : row ∈ spine config headers path) :
    ∃ found, rows.find? (fun other ↦ other.blockhash = row.blockhash) = some found ∧
      found.demote = row := by
  rw [← hrows] at hrow
  obtain ⟨row', hrow', rfl⟩ := mem_map.mp hrow
  cases hfind : rows.find? fun other ↦ other.blockhash = row'.demote.blockhash with
  | none =>
    have := find?_eq_none.mp hfind row' hrow'
    simp [Block.demote] at this
  | some found =>
    refine ⟨found, rfl, ?_⟩
    have hfound : found.blockhash = row'.demote.blockhash := by
      simpa using find?_some hfind
    have hnodup : ((spine config headers path).map Block.blockhash).Nodup := by
      rw [blockhash_spine, ← blockhash_tableOf]
      exact nodup_tableOf h
    rw [← hrows] at hnodup
    exact inj_on_of_nodup_map hnodup (mem_map_of_mem (mem_of_find?_eq_some hfind))
      hrow hfound

/-- No row has the padded hash. -/
theorem HasStart.ne_padded (hstart : HasStart config view) (h : path <+: above config view)
    {hash : BlockHash} (hmem : hash ∈ config.startBlock :: path) :
    hash ≠ defaultPaddedStartHash := by
  rcases mem_cons.mp hmem with rfl | hmem
  · rcases hstart with heq | hview
    · rw [heq]
      decide
    · exact (proper_of_mem hview).1
  · exact (proper_of_mem (above_subset (h.subset hmem))).1

/-- From a row of the path back to the last row of its first part. -/
theorem populateRevertBlocksList_eq (hstart : HasStart config view) (own : List BlockHash) :
    ∀ rest : List BlockHash, common ++ own ++ rest <+: above config view →
      rows.map Block.demote = spine config headers (common ++ own ++ rest) →
      ∀ (row : Block) (fuel : ℕ) (acc : List Block),
      row.demote = lastRow config headers (common ++ own) → own.length < fuel →
      ∃ list, populateRevertBlocksList rows (lastHash config common) fuel row acc
          = .ok (acc ++ list) ∧
        list.map Block.demote = (own.map (hashRow headers)).reverse := by
  induction own using reverseRecOn with
  | nil =>
    intro rest _ _ row fuel acc hrow hfuel
    obtain ⟨fuel, rfl⟩ := Nat.exists_eq_succ_of_ne_zero (Nat.ne_of_gt hfuel)
    rw [append_nil] at hrow
    have hhash : row.blockhash = lastHash config common :=
      (congrArg Block.blockhash hrow).trans (blockhash_lastRow common)
    refine ⟨[], ?_, rfl⟩
    rw [populateRevertBlocksList, if_pos hhash, append_nil]
  | append_singleton own hash ih =>
    intro rest h hrows row fuel acc hrow hfuel
    obtain ⟨fuel, rfl⟩ := Nat.exists_eq_succ_of_ne_zero (Nat.ne_of_gt (Nat.zero_lt_of_lt hfuel))
    rw [← append_assoc] at hrow h hrows
    have hrow' : row.demote = hashRow headers hash := by
      rw [hrow, lastRow, getLast?_concat]
    have hpre : common ++ own ++ [hash] <+: above config view :=
      (prefix_append _ _).trans h
    have hne : row.blockhash ≠ lastHash config common := by
      have hhash : row.blockhash = hash := congrArg Block.blockhash hrow'
      rw [hhash]
      rw [append_assoc] at hpre
      exact ne_lastHash hpre (mem_append_right _ (mem_singleton_self hash))
    rw [populateRevertBlocksList, if_neg hne]
    have hparenthash : row.parenthash = headers.parentOf hash := congrArg Block.parenthash hrow'
    obtain ⟨hlink, hfirst⟩ := parentHash_hashRow hstart hpre
    rw [hparenthash]
    by_cases hpadded : headers.parentOf hash = defaultPaddedStartHash
    · -- The first block of a chain is the last one passed.
      have hnone : rows.find? (fun other ↦ other.blockhash = headers.parentOf hash) = none := by
        apply find?_eq_none.mpr
        intro other hother
        have hmem : other.blockhash ∈ (spine config headers
            (common ++ own ++ [hash] ++ rest)).map Block.blockhash := by
          rw [← hrows, map_map]
          exact mem_map.mpr ⟨other, hother, rfl⟩
        rw [blockhash_spine] at hmem
        rw [hpadded]
        simpa using hstart.ne_padded h hmem
      rw [hnone]
      refine ⟨[row], rfl, ?_⟩
      rw [(append_eq_nil_iff.mp (hfirst hpadded)).2, map_singleton, hrow']
      rfl
    · have hparent : headers.parentOf hash = lastHash config (common ++ own) := by
        rw [← hlink]
        exact (if_neg hpadded).symm
      have hlastmem : lastRow config headers (common ++ own)
          ∈ spine config headers (common ++ own ++ [hash] ++ rest) := by
        obtain ⟨below, hbelow⟩ := exists_spine_eq headers config (common ++ own)
        have hspine : spine config headers (common ++ own ++ [hash] ++ rest)
            = spine config headers (common ++ own) ++ ([hash] ++ rest).map (hashRow headers) := by
          simp [spine]
        rw [hspine, hbelow]
        simp
      obtain ⟨found, hfind, hfound⟩ := find?_blockhash h hrows hlastmem
      rw [blockhash_lastRow, ← hparent] at hfind
      rw [hfind]
      rw [length_append, length_singleton] at hfuel
      rw [append_assoc _ [hash] rest] at h hrows
      obtain ⟨list, hlist, hmap⟩ := ih ([hash] ++ rest) h hrows found fuel (acc ++ [row]) hfound
        (by omega)
      refine ⟨row :: list, ?_, ?_⟩
      · show populateRevertBlocksList rows (lastHash config common) fuel found (acc ++ [row]) = _
        rw [hlist, append_assoc]
        rfl
      · rw [map_cons, hmap, hrow', map_append, reverse_append]
        rfl

/-- Where the blocks of a chain above the start block are. -/
theorem hash_getElem_above (habove : above config view = common ++ own) {k : ℕ}
    (hk : k < own.length) :
    view.hashes[base config headers + common.length + k]? = some own[k] := by
  have hget : (above config view)[common.length + k]? = some own[k] := by
    rw [habove, getElem?_append_right (by omega), Nat.add_sub_cancel_left, getElem?_eq_getElem hk]
  rw [above, getElem?_drop] at hget
  rwa [Nat.add_assoc]

/-- Where the last hash of the common part is. -/
theorem hash_getElem_lastHash (hstart : HasStart config view)
    (habove : above config view = common ++ own)
    (hbelow : common ≠ [] ∨ config.startBlock ≠ defaultConfigStartHash) :
    view.hashes[base config headers + common.length - 1]? = some (lastHash config common) := by
  induction common using reverseRecOn with
  | nil =>
    have hne := hbelow.resolve_left fun h ↦ h rfl
    have hbase : base config headers = headers.numberOf config.startBlock + 1 := if_neg hne
    rw [hbase, length_nil, Nat.add_zero, Nat.add_sub_cancel]
    exact hstart.getElem hne
  | append_singleton common hash _ =>
    rw [append_assoc] at habove
    have hget := hash_getElem_above habove (k := 0) (by simp)
    rw [lastHash_concat, length_append, length_singleton]
    exact hget

/-- Looking at the parent in the table before it is looked at itself changes nothing. -/
theorem populateIndexBlocksList_parent (rows : List Block) (fuel : ℕ) (parent : ChainBlock)
    (acc : List ChainBlock) :
    (if inBlocks rows parent.hash then .ok (acc, parent.hash)
      else populateIndexBlocksList view rows (fuel + 1) parent acc)
      = populateIndexBlocksList view rows (fuel + 1) parent acc := by
  rw [populateIndexBlocksList]
  split
  · rfl
  · rfl

/-- From a block of the chain back to the last block of the part it has in common with the
table. -/
theorem populateIndexBlocksList_eq (hstart : HasStart config view)
    (habove : above config view = common ++ own) (hown : ∀ hash ∈ own, ¬ inBlocks rows hash = true)
    (hlast : inBlocks rows (lastHash config common) = true) (k : ℕ) :
    k ≤ own.length → (k = 0 → common ≠ [] ∨ config.startBlock ≠ defaultConfigStartHash) →
      ∀ (fuel : ℕ) (block : ChainBlock) (acc : List ChainBlock),
      view.blocks[base config headers + common.length + k - 1]? = some block → k < fuel →
      ∃ list, populateIndexBlocksList view rows fuel block acc
          = .ok (acc ++ list, lastHash config common) ∧
        list.map ChainBlock.hash = (own.take k).reverse ∧ ∀ b ∈ list, b ∈ view.blocks := by
  induction k with
  | zero =>
    intro _ hbelow fuel block acc hblock hfuel
    obtain ⟨fuel, rfl⟩ := Nat.exists_eq_succ_of_ne_zero (Nat.ne_of_gt hfuel)
    have hhash : block.hash = lastHash config common := by
      have hget := hash_getElem_lastHash hstart habove (hbelow rfl)
      rw [ChainView.hashes, getElem?_map, ← Nat.add_zero (base config headers + _), hblock]
        at hget
      exact Option.some.inj hget
    refine ⟨[], ?_, rfl, fun b hb ↦ absurd hb not_mem_nil⟩
    rw [populateIndexBlocksList, hhash, if_pos hlast, append_nil]
  | succ k ih =>
    intro hk _ fuel block acc hblock hfuel
    obtain ⟨fuel, rfl⟩ := Nat.exists_eq_succ_of_ne_zero (Nat.ne_of_gt (Nat.zero_lt_of_lt hfuel))
    have hindex : base config headers + common.length + (k + 1) - 1
        = base config headers + common.length + k := by omega
    rw [hindex] at hblock
    obtain ⟨hlt, hget⟩ := List.getElem?_eq_some_iff.mp hblock
    have hmem : block ∈ view.blocks := mem_of_getElem? hblock
    have hhash : block.hash = own[k] := by
      have := hash_getElem_above habove (k := k) (by omega)
      rw [ChainView.hashes, getElem?_map, hblock] at this
      exact Option.some.inj this
    have htake : (own.take (k + 1)).reverse = block.hash :: (own.take k).reverse := by
      rw [take_succ_eq_append_getElem (by omega), reverse_append, hhash]
      rfl
    have hnot : ¬ inBlocks rows block.hash = true := by
      rw [hhash]
      exact hown _ (getElem_mem _)
    rw [populateIndexBlocksList, if_neg hnot]
    have hpadded := parentHash_eq_padded_iff hlt
    rw [hget] at hpadded
    by_cases hfirst : base config headers + common.length + k = 0
    · -- The first block of the chain: its parent is the start row.
      have hk0 : k = 0 := by omega
      have hcommon : common = [] := eq_nil_of_length_eq_zero (by omega)
      have hconfig : config.startBlock = defaultConfigStartHash := by
        by_contra hne
        have hbase : base config headers = headers.numberOf config.startBlock + 1 := if_neg hne
        omega
      rw [if_pos (hpadded.mpr hfirst)]
      refine ⟨[block], ?_, ?_, ?_⟩
      · rw [hcommon, lastHash, hconfig.symm]
        rfl
      · rw [htake, hk0]
        rfl
      · intro b hb
        rw [mem_singleton.mp hb]
        exact hmem
    · rw [if_neg (fun heq ↦ hfirst (hpadded.mp heq))]
      obtain ⟨i, hi⟩ := Nat.exists_eq_succ_of_ne_zero hfirst
      have hlt' : i + 1 < view.blocks.length := by omega
      have hparent : block.parentHash = view.blocks[i].hash := by
        rw [← parentHash_getElem hlt', ← hget]
        congr 2
      have hbelow : k = 0 → common ≠ [] ∨ config.startBlock ≠ defaultConfigStartHash := by
        intro hk0
        by_contra hnone
        simp only [not_or, not_not] at hnone
        have hbase : base config headers = 0 := if_pos hnone.2
        rw [hk0, hnone.1, hbase] at hfirst
        exact hfirst rfl
      have hblock' : view.blocks[base config headers + common.length + k - 1]?
          = some view.blocks[i] := by
        rw [hi, Nat.succ_sub_one]
        exact getElem?_eq_getElem (by omega)
      obtain ⟨fuel', rfl⟩ : ∃ fuel', fuel = fuel' + 1 := ⟨fuel - 1, by omega⟩
      obtain ⟨list, hlist, hmap, hview⟩ := ih (by omega) hbelow (fuel' + 1) view.blocks[i]
        (acc ++ [block]) hblock' (by omega)
      refine ⟨block :: list, ?_, ?_, ?_⟩
      · rw [hparent, getBlock_of_mem (getElem_mem _)]
        refine (populateIndexBlocksList_parent rows fuel' view.blocks[i] _).trans ?_
        rw [hlist, append_assoc]
        rfl
      · rw [map_cons, hmap, htake]
      · intro b hb
        rcases mem_cons.mp hb with rfl | hb
        · exact hmem
        · exact hview b hb

/-! ### A run -/

/-- The number that a run goes forward from. -/
theorem le_number_lastRow (h : path <+: above config view) :
    base config headers + path.length ≤ (lastRow config headers path).number.getD 0 + 1 := by
  induction path using reverseRecOn with
  | nil =>
    show base config headers + 0 ≤ (startRow config headers).number.getD 0 + 1
    unfold base startRow
    split
    · omega
    · next hne =>
      simp only [hne, or_false]
      split
      · next hzero =>
        rw [hzero]
        exact Nat.le_refl 1
      · exact Nat.le_refl _
  | append_singleton path hash _ =>
    have hnumber := ((above_segment view).of_isInitial h).number path.length (by simp)
    rw [getElem_concat_length rfl] at hnumber
    rw [lastRow, getLast?_concat, length_append, length_singleton]
    show base config headers + (path.length + 1) ≤ headers.numberOf hash + 1
    omega

variable (config) in
/-- The number of the block that a run goes back from, from a table of the path. -/
def targetNumber (view : ChainView headers) (path : List BlockHash) : ℕ :=
  min ((lastRow config headers path).number.getD 0 + config.blockProcessingWindow)
    view.latest.number

/-- A run passes the blocks of the chain, up to the target, that are not in the table, and the
rows of the table that are not on the chain. -/
theorem populateLists_eq (hstart : HasStart config view) (hstart' : HasStart config view')
    (hpath : common ++ own <+: above config view') (habove : above config view = common ++ own')
    (hown' : ∀ hash ∈ own', hash ∉ common ++ own) :
    ∃ blocks rows k, k ≤ own'.length ∧
      targetNumber config view (common ++ own) + 1 = base config headers + common.length + k ∧
      populateLists config view (tableOf config headers (common ++ own)) = .ok (blocks, rows) ∧
      blocks.map ChainBlock.hash = (own'.take k).reverse ∧ (∀ b ∈ blocks, b ∈ view.blocks) ∧
      rows.map Block.demote = (own.map (hashRow headers)).reverse := by
  have hlength : view.hashes.length = view.blocks.length := length_map _
  have hblocks : base config headers + (common.length + own'.length) = view.blocks.length := by
    have := congrArg length habove
    rw [above, length_drop, length_append, hlength] at this
    have := hstart.base_le
    omega
  have hpositive : 0 < view.blocks.length := length_pos_of_ne_nil view.nonempty
  have hlatest : view.latest.number + 1 = view.blocks.length := by
    rw [ChainView.latest, getLast_eq_getElem, number_getElem]
    omega
  have hforward := le_number_lastRow hpath
  rw [length_append] at hforward
  -- The place of the block that the run goes back from.
  obtain ⟨place, hplace⟩ : ∃ place, place = targetNumber config view (common ++ own) := ⟨_, rfl⟩
  rw [← hplace]
  unfold targetNumber at hplace
  have hlt : place < view.blocks.length := by omega
  have hget : getLatestBlock config view (tableOf config headers (common ++ own))
      = .ok view.blocks[place] := by
    rw [getLatestBlock, currentRow_tableOf, ok_bind]
    show view.getBlockByNumber (min _ _) = _
    rw [← hplace, ChainView.getBlockByNumber, getElem?_eq_getElem hlt]
  obtain ⟨k, hk⟩ : ∃ k, place + 1 = base config headers + common.length + k :=
    ⟨place + 1 - (base config headers + common.length), by omega⟩
  have hbelow : k = 0 → common ≠ [] ∨ config.startBlock ≠ defaultConfigStartHash := by
    intro hk0
    by_contra hnone
    simp only [not_or, not_not] at hnone
    have hbase : base config headers = 0 := if_pos hnone.2
    rw [hbase, hnone.1, hk0] at hk
    exact absurd hk (Nat.succ_ne_zero place)
  have hnotin : ∀ hash ∈ own', ¬ inBlocks (tableOf config headers (common ++ own)) hash = true := by
    intro hash hhash hin
    rcases inBlocks_tableOf.mp hin with heq | hmem
    · rw [heq] at hhash
      exact startBlock_notMem (prefix_refl (above config view))
        (by rw [habove]; exact mem_append_right _ hhash)
    · exact hown' hash hhash hmem
  have hlast : inBlocks (tableOf config headers (common ++ own)) (lastHash config common)
      = true := by
    apply inBlocks_tableOf.mpr
    rcases mem_cons.mp (lastHash_mem common) with heq | hmem
    · exact .inl heq
    · exact .inr (mem_append_left _ hmem)
  have hindex : view.blocks[base config headers + common.length + k - 1]?
      = some view.blocks[place] := by
    rw [← hk, Nat.add_sub_cancel]
    exact getElem?_eq_getElem hlt
  obtain ⟨blocks, hsearch, hmap, hview⟩ := populateIndexBlocksList_eq hstart habove hnotin hlast k
    (by omega) hbelow (view.blocks.length + 1) _ [] hindex (by omega)
  have hrows := map_demote_tableOf headers config (common ++ own)
  have hrowslength : own.length < (tableOf config headers (common ++ own)).length + 1 := by
    have := congrArg length (blockhash_tableOf headers config (common ++ own))
    rw [length_map, length_cons, length_append] at this
    omega
  have hcurrent : ({ lastRow config headers (common ++ own) with isCurrent := true } : Block).demote
      = lastRow config headers (common ++ own) := by
    obtain ⟨rows, hspine⟩ := exists_spine_eq headers config (common ++ own)
    have hmem : lastRow config headers (common ++ own) ∈ spine config headers (common ++ own) := by
      rw [hspine]
      simp
    rw [Block.demote, ← isCurrent_spine hmem]
  obtain ⟨rows, hback, hrevert⟩ := populateRevertBlocksList_eq hstart' own []
    (by rwa [append_nil]) (by rwa [append_nil]) _ _ [] hcurrent hrowslength
  refine ⟨blocks, rows, k, by omega, hk, ?_, hmap, hview, hrevert⟩
  rw [populateLists, hget, ok_bind, hsearch, ok_bind]
  show (do
    let dbCurrentBlock ← currentRow _
    let revertBlocksList ← populateRevertBlocksList _ _ _ dbCurrentBlock []
    return (_, revertBlocksList)) = _
  rw [currentRow_tableOf, ok_bind, hback]
  rfl

/-- What is reverted, and what the table is before blocks are indexed. -/
theorem beforeIndexing_eq (hstart : HasStart config view) (hstart' : HasStart config view')
    (hpath : common ++ own <+: above config view') (habove : above config view = common ++ own')
    (hown' : ∀ hash ∈ own', hash ∉ common ++ own) (hlength : own.length ≤ 10000) :
    ∃ blocks k, k ≤ own'.length ∧
      targetNumber config view (common ++ own) + 1 = base config headers + common.length + k ∧
      beforeIndexing config view (tableOf config headers (common ++ own))
        = .ok (blocks, tableOf config headers (common ++ own.take (own.length - 500))) ∧
      blocks.map ChainBlock.hash = (own'.take k).reverse ∧ ∀ b ∈ blocks, b ∈ view.blocks := by
  obtain ⟨blocks, rows, k, hk, htarget, hlists, hmap, hview, hrows⟩ :=
    populateLists_eq hstart hstart' hpath habove hown'
  refine ⟨blocks, k, hk, htarget, ?_, hmap, hview⟩
  have hrowslength : rows.length = own.length := by
    have := congrArg length hrows
    rwa [length_map, length_reverse, length_map] at this
  have hsplit : common ++ own.take (own.length - 500) ++ own.drop (own.length - 500)
      = common ++ own := by
    rw [append_assoc, take_append_drop]
  have htake : (rows.take 500).map Block.demote
      = ((own.drop (own.length - 500)).map (hashRow headers)).reverse := by
    rw [map_take, hrows, take_reverse, length_map, map_drop]
  have hrevert := foldl_revertBlockRow_tableOf hstart' _ _ (hsplit ▸ hpath) _ htake
  rw [hsplit] at hrevert
  rw [beforeIndexing, hlists, ok_bind]
  show (do
    let reverted ← revertBlockRows (tableOf config headers (common ++ own)) rows
    return (blocks, reverted)) = _
  rw [revertBlockRows, if_neg (by omega), hrevert]
  rfl

/-- The table is a path of a chain above the start row. -/
def OnChain (config : DiscprovConfig) (headers : Headers) (rows : List Block) : Prop :=
  ∃ view : ChainView headers, HasStart config view ∧
    ∃ path, path <+: above config view ∧ rows = tableOf config headers path

/-- The table is set up, if it is empty. -/
theorem initializeBlocksTableIfNecessary_eq (hstart : HasStart config view)
    (hrows : rows = [] ∨ OnChain config headers rows) :
    ∃ rows', initializeBlocksTableIfNecessary config view rows = .ok rows' ∧
      OnChain config headers rows' ∧
      (rows' = rows ∨ rows = [] ∧ rows' = tableOf config headers []) := by
  have hpositive : 0 < view.blocks.length := length_pos_of_ne_nil view.nonempty
  have htarget : ∃ block, getTargetBlock config view = .ok block ∧
      (config.startBlock ≠ defaultConfigStartHash →
        block.number = headers.numberOf config.startBlock) := by
    unfold getTargetBlock
    split
    · next heq =>
      refine ⟨view.blocks[0], ?_, fun hne ↦ absurd heq hne⟩
      rw [ChainView.getBlockByNumber, getElem?_eq_getElem hpositive]
    · next hne =>
      obtain ⟨block, hblock, hhash⟩ := mem_map.mp (hstart.resolve_left hne)
      rw [← hhash]
      exact ⟨block, getBlock_of_mem hblock, fun _ ↦ view.number block hblock⟩
  obtain ⟨block, hblock, hnumber⟩ := htarget
  rcases hrows with rfl | ⟨view', hstart', path, hpath, rfl⟩
  · refine ⟨tableOf config headers [], ?_, ⟨view, hstart, [], nil_prefix, rfl⟩, .inr ⟨rfl, rfl⟩⟩
    rw [initializeBlocksTableIfNecessary, hblock, ok_bind]
    refine congrArg Except.ok ?_
    show [_] = [_]
    by_cases heq : config.startBlock = defaultConfigStartHash
    · simp [heq, startRow]
    · simp [heq, startRow, hnumber heq]
  · refine ⟨tableOf config headers path, ?_, ⟨view', hstart', path, hpath, rfl⟩, .inl rfl⟩
    rw [initializeBlocksTableIfNecessary, hblock, ok_bind, filter_isCurrent_tableOf]
    rw [if_neg (cons_ne_nil _ _), currentRow_tableOf]
    rfl

/-! ### What a run is to do -/

/-- The rows met from the current one on, along parent hashes, down to the start row. -/
inductive Met (config : DiscprovConfig) (rows : List Block) : Block → Prop where
  | current {row : Block} : row ∈ rows → row.isCurrent = true → Met config rows row
  | parent {row parent : Block} : Met config rows row → row.blockhash ≠ config.startBlock →
      parent ∈ rows → parent.blockhash = row.parenthash → Met config rows parent

/-- The row is that of a block of the chain, with its parent; the start row has its own hash in
the place of its parent's, and may be the row below the first block. -/
def OnView (config : DiscprovConfig) (view : ChainView headers) (row : Block) : Prop :=
  row.blockhash = config.startBlock ∧ config.startBlock = defaultConfigStartHash ∨
    ∃ block ∈ view.blocks, block.hash = row.blockhash ∧
      (row.blockhash = config.startBlock ∨ block.parentHash = row.parenthash)

/-- The run returns and leaves one current row, the rows met from it are a path of the chain it
saw, and it indexes blocks, if any, on a current row that is the parent of the first one. -/
structure FollowsChain (config : DiscprovConfig) (rows : List Block) (view : ChainView headers) :
    Prop where
  returns : (updateTask config view rows).2 = .ok ()
  oneCurrent : ((updateTask config view rows).1.filter Block.isCurrent).length = 1
  path : ∀ row, Met config (updateTask config view rows).1 row → OnView config view row
  onParent : ∀ initialized indexBlocksList reverted first,
    initializeBlocksTableIfNecessary config view rows = .ok initialized →
    beforeIndexing config view initialized = .ok (indexBlocksList, reverted) →
    indexBlocksList.getLast? = some first →
    ∃ row, currentRow reverted = .ok row ∧ row.blockhash = Database.parentHash first.row

/-- The chain has the start block, and no more than 500 rows are not on it. -/
def Shallow (config : DiscprovConfig) (rows : List Block) (view : ChainView headers) : Prop :=
  HasStart config view ∧ (rows.filter fun row ↦
    row.blockhash ∉ view.hashes ∧ row.blockhash ≠ defaultConfigStartHash).length ≤ 500

/-- A run, with what is left when it raises. -/
def runUpdateTask (config : DiscprovConfig) (rows : List Block) (view : ChainView headers) :
    Except String (List Block) :=
  .ok (updateTask config view rows).1

/-- The rows that are not on the chain are those above the common part. -/
theorem length_filter_tableOf (hstart : HasStart config view)
    (hpath : common ++ own <+: above config view') (habove : above config view = common ++ own')
    (hown : ∀ hash ∈ own, hash ∉ above config view) :
    ((tableOf config headers (common ++ own)).filter fun row ↦
      row.blockhash ∉ view.hashes ∧ row.blockhash ≠ defaultConfigStartHash).length
        = own.length := by
  have hhashes : ∀ rows : List Block, (rows.filter fun row ↦
      row.blockhash ∉ view.hashes ∧ row.blockhash ≠ defaultConfigStartHash).length
        = ((rows.map Block.blockhash).filter fun hash ↦
          hash ∉ view.hashes ∧ hash ≠ defaultConfigStartHash).length := by
    intro rows
    rw [filter_map, length_map]
    rfl
  have hbelow : (config.startBlock :: common).filter (fun hash ↦
      hash ∉ view.hashes ∧ hash ≠ defaultConfigStartHash) = [] := by
    apply filter_eq_nil_iff.mpr
    intro hash hmem hnot
    obtain ⟨hview, hproper⟩ := of_decide_eq_true hnot
    rcases mem_cons.mp hmem with rfl | hcommon
    · exact hstart.elim hproper hview
    · have habovemem : hash ∈ above config view := by
        rw [habove]
        exact mem_append_left _ hcommon
      exact hview (above_subset habovemem)
  have hkept : own.filter (fun hash ↦
      hash ∉ view.hashes ∧ hash ≠ defaultConfigStartHash) = own := by
    apply filter_eq_self.mpr
    intro hash hmem
    apply decide_eq_true
    have hpathmem := hpath.subset (mem_append_right common hmem)
    refine ⟨fun hview ↦ hown hash hmem ?_, (proper_of_mem (above_subset hpathmem)).2⟩
    have hnumber := (above_segment view').le_number hpathmem
    obtain ⟨i, hi, rfl⟩ := mem_iff_getElem.mp hview
    have hplace : headers.numberOf view.hashes[i] = 0 + i := view.segment.number i hi
    exact mem_drop_iff_getElem.mpr ⟨i - base config headers, by omega, by
      congr 1
      omega⟩
  rw [hhashes, blockhash_tableOf, ← cons_append, filter_append, hbelow, hkept]
  rfl

/-- What a run under the condition does: it goes back to a path of the chain it sees, and then
forward along that chain. -/
theorem updateTask_eq (hrows : rows = [] ∨ OnChain config headers rows)
    (hshallow : Shallow config rows view) :
    ∃ initialized blocks path hashes,
      initializeBlocksTableIfNecessary config view rows = .ok initialized ∧
      beforeIndexing config view initialized = .ok (blocks, tableOf config headers path) ∧
      updateTask config view rows = (tableOf config headers (path ++ hashes), .ok ()) ∧
      path ++ hashes <+: above config view ∧ blocks.map ChainBlock.hash = hashes.reverse ∧
      ∀ b ∈ blocks, b ∈ view.blocks := by
  obtain ⟨hstart, hcount⟩ := hshallow
  obtain ⟨initialized, hinit, honchain, hsame⟩ :=
    initializeBlocksTableIfNecessary_eq hstart hrows
  obtain ⟨view', hstart', path, hpath, rfl⟩ := honchain
  obtain ⟨common, own, own', rfl, habove, hown, hown'⟩ :=
    ((above_segment view').of_isInitial hpath).exists_fork (above_segment view)
  have hlength : own.length ≤ 500 := by
    rcases hsame with hsame | ⟨-, hsame⟩
    · rw [← length_filter_tableOf hstart hpath habove hown, hsame]
      exact hcount
    · have hhashes := congrArg (map Block.blockhash) hsame
      rw [blockhash_tableOf, blockhash_tableOf, cons_inj_right, append_eq_nil_iff]
        at hhashes
      rw [hhashes.2]
      exact Nat.zero_le 500
  obtain ⟨blocks, k, hk, -, hbefore, hmap, hview⟩ :=
    beforeIndexing_eq hstart hstart' hpath habove hown' (by omega)
  rw [Nat.sub_eq_zero_of_le hlength, take_zero, append_nil] at hbefore
  have hpre : common ++ own'.take k <+: above config view := by
    rw [habove]
    exact (prefix_append_right_inj common).mpr ( take_prefix k own')
  refine ⟨_, blocks, common, own'.take k, hinit, hbefore, ?_, hpre, hmap, hview⟩
  rw [updateTask, hinit]
  simp only [hbefore]
  exact indexBlockRows_tableOf common _ hpre blocks hview hmap

/-- A row of a table of a path of the chain. -/
theorem onView_of_mem (hstart : HasStart config view) (hpath : path <+: above config view)
    {row : Block} (hrow : row ∈ tableOf config headers path) :
    OnView config view row := by
  have hdemote : row.demote ∈ spine config headers path := by
    rw [← map_demote_tableOf]
    exact mem_map_of_mem hrow
  rcases mem_cons.mp hdemote with heq | hmem
  · have hhash : row.blockhash = config.startBlock := congrArg Block.blockhash heq
    rcases hstart with hconfig | hview
    · exact .inl ⟨hhash, hconfig⟩
    · obtain ⟨block, hblock, hblockhash⟩ := mem_map.mp hview
      exact .inr ⟨block, hblock, hblockhash.trans hhash.symm, .inl hhash⟩
  · obtain ⟨hash, hhash, heq⟩ := mem_map.mp hmem
    obtain ⟨block, hblock, rfl⟩ := mem_map.mp (above_subset (hpath.subset hhash))
    have hrowhash : block.hash = row.blockhash := congrArg Block.blockhash heq
    have hrowparent : headers.parentOf block.hash = row.parenthash := congrArg Block.parenthash heq
    exact .inr ⟨block, hblock, hrowhash, .inr ((view.parent block hblock).trans hrowparent)⟩

/-- One run under the condition. -/
theorem followsChain_of_shallow (hrows : rows = [] ∨ OnChain config headers rows)
    (hshallow : Shallow config rows view) :
    FollowsChain config rows view := by
  obtain ⟨initialized, blocks, path, hashes, hinit, hbefore, hupdate, hpre, hmap, hview⟩ :=
    updateTask_eq hrows hshallow
  constructor
  · rw [hupdate]
  · rw [hupdate, filter_isCurrent_tableOf]
    rfl
  · intro row hmet
    rw [hupdate] at hmet
    apply onView_of_mem hshallow.1 hpre
    cases hmet with
    | current hrow _ => exact hrow
    | parent _ _ hrow _ => exact hrow
  · intro initialized' indexBlocksList reverted first hinit' hbefore' hfirst
    rw [hinit] at hinit'
    cases hinit'
    rw [hbefore] at hbefore'
    cases hbefore'
    refine ⟨_, currentRow_tableOf path, (blockhash_lastRow path).trans ?_⟩
    have hhead : hashes.head? = some first.hash := by
      rw [← getLast?_reverse, ← hmap, getLast?_map, hfirst]
      rfl
    obtain ⟨rest, rfl⟩ := head?_eq_some_iff.mp hhead
    have hnext : path ++ [first.hash] <+: above config view := by
      refine IsPrefix.trans ?_ hpre
      exact (prefix_append_right_inj path).mpr (prefix_append [first.hash] rest)
    rw [row_eq_hashRow (hview first (mem_of_getLast? hfirst))]
    exact (parentHash_hashRow hshallow.1 hnext).1.symm

/-- A run under the condition leaves a path of a chain. -/
theorem onChain_of_shallow {rows' : List Block} (hrows : rows = [] ∨ OnChain config headers rows)
    (hshallow : Shallow config rows view) (h : runUpdateTask config rows view = .ok rows') :
    rows' = [] ∨ OnChain config headers rows' := by
  obtain ⟨_, _, path, hashes, _, _, hupdate, hpre, _, _⟩ := updateTask_eq hrows hshallow
  cases h
  rw [hupdate]
  exact .inr ⟨view, hshallow.1, path ++ hashes, hpre, rfl⟩

/-- In runs from an empty table, each of which sees a chain that no more than 500 rows of the
table are not on, the table follows the chain after each run. -/
theorem follows_chain (headers : Headers) (config : DiscprovConfig)
    (views : List (ChainView headers))
    (h : Along (runUpdateTask config) (Shallow config) [] views) :
    Along (runUpdateTask config) (FollowsChain config) [] views :=
  along_of_invariant (fun _ _ _ hrows hshallow hrun ↦ onChain_of_shallow hrows hshallow hrun)
    (fun _ _ hrows hshallow ↦ followsChain_of_shallow hrows hshallow) (.inl rfl) h

/-! ### Forks that are too deep -/

/-- The first run indexes the chain up to its target. -/
theorem updateTask_nil (hstart : HasStart config view) :
    ∃ k, targetNumber config view [] + 1 = base config headers + k ∧
      updateTask config view []
        = (tableOf config headers ((above config view).take k), .ok ()) := by
  obtain ⟨rows, hinit, ⟨view', _, path, _, rfl⟩, hsame⟩ :=
    initializeBlocksTableIfNecessary_eq hstart (.inl rfl)
  have hempty : tableOf config headers path = tableOf config headers [] := by
    refine (hsame.resolve_left fun heq ↦ ?_).2
    have hhashes := congrArg (map Block.blockhash) heq
    rw [blockhash_tableOf] at hhashes
    exact cons_ne_nil _ _ hhashes
  rw [hempty] at hinit
  have hpath : ([] : List BlockHash) ++ [] <+: above config view := nil_prefix
  have habove : above config view = [] ++ above config view := rfl
  have hown : ∀ hash ∈ above config view, hash ∉ ([] : List BlockHash) ++ [] :=
    fun _ _ ↦ not_mem_nil
  obtain ⟨blocks, k, hk, htarget, hbefore, hmap, hview⟩ :=
    beforeIndexing_eq hstart hstart hpath habove hown (Nat.zero_le _)
  have hbefore' : beforeIndexing config view (tableOf config headers [])
      = .ok (blocks, tableOf config headers []) := hbefore
  refine ⟨k, htarget, ?_⟩
  rw [updateTask, hinit]
  simp only [hbefore']
  exact indexBlockRows_tableOf [] _ ( take_prefix k _) blocks hview hmap

namespace DeepFork

/-- The characters of the hash of a block: its branch's letter, once more than its number. The
first block is on both branches. -/
def hashChars (letter : Char) : ℕ → List Char
  | 0 => ['0', 'a']
  | n + 1 => '0' :: letter :: List.replicate (n + 1) letter

/-- The hash of the block with the number on the branch of a letter. -/
def hashAt (letter : Char) (n : ℕ) : BlockHash := String.ofList (hashChars letter n)

/-- The headers of the branches: a hash names its branch and its number. -/
def branchHeaders : Headers where
  parentOf hash :=
    match hash.toList with
    | [_, letter, _] => hashAt letter 0
    | _ :: _ :: letter :: rest => String.ofList ('0' :: letter :: rest)
    | _ => defaultPaddedStartHash
  numberOf hash := hash.toList.length - 2

variable (letter : Char)

theorem numberOf_hashAt (n : ℕ) : branchHeaders.numberOf (hashAt letter n) = n := by
  rw [branchHeaders, hashAt]
  simp only [String.toList_ofList]
  cases n with
  | zero => rfl
  | succ n => simp [hashChars]

theorem parentOf_hashAt (n : ℕ) :
    branchHeaders.parentOf (hashAt letter (n + 1)) = hashAt letter n := by
  rw [branchHeaders, hashAt]
  simp only [String.toList_ofList]
  cases n with
  | zero => rfl
  | succ n => rfl

theorem parentOf_hashAt_zero :
    branchHeaders.parentOf (hashAt letter 0) = defaultPaddedStartHash := by
  rw [branchHeaders, hashAt]
  simp only [String.toList_ofList]
  rfl

/-- The hash of a block is none of those with a meaning of their own. -/
theorem hashAt_ne {letter : Char} (hletter : letter ≠ 'x') (n : ℕ) :
    hashAt letter n ≠ defaultPaddedStartHash ∧ hashAt letter n ≠ defaultConfigStartHash := by
  have hsecond : (hashAt letter n).toList[1]? ≠ some 'x' := by
    rw [hashAt, String.toList_ofList]
    cases n with
    | zero => simp [hashChars]
    | succ n => simpa [hashChars] using hletter
  constructor
  · intro heq
    rw [heq] at hsecond
    exact hsecond (by decide)
  · intro heq
    rw [heq] at hsecond
    exact hsecond (by decide)

/-- The chain of the first blocks of a branch. -/
def branch (letter : Char) (hletter : letter ≠ 'x') (length : ℕ) :
    ChainView branchHeaders where
  blocks := (List.range (length + 1)).map fun n ↦
    ⟨hashAt letter n, branchHeaders.parentOf (hashAt letter n), n, []⟩
  nonempty := by simp [List.range_succ]
  parent block hblock := by
    obtain ⟨n, -, rfl⟩ := List.mem_map.mp hblock
    rfl
  number block hblock := by
    obtain ⟨n, -, rfl⟩ := List.mem_map.mp hblock
    exact (numberOf_hashAt letter n).symm
  segment := by
    constructor
    · intro i hi
      simp [numberOf_hashAt]
    · intro i hi
      simp [parentOf_hashAt]
  first block hblock := by
    obtain ⟨n, -, rfl⟩ := List.mem_map.mp hblock
    cases n with
    | zero => exact iff_of_true (parentOf_hashAt_zero letter) rfl
    | succ n =>
      refine iff_of_false ?_ (Nat.succ_ne_zero n)
      show branchHeaders.parentOf (hashAt letter (n + 1)) ≠ _
      rw [parentOf_hashAt]
      exact (hashAt_ne hletter n).1
  proper block hblock := by
    obtain ⟨n, -, rfl⟩ := List.mem_map.mp hblock
    exact hashAt_ne hletter n

/-- Indexing starts below the first block, and a run goes 1000 blocks forward. -/
def fromFirst : DiscprovConfig := ⟨defaultConfigStartHash, 1000⟩

theorem above_branch (hletter : letter ≠ 'x') (length : ℕ) :
    above fromFirst (branch letter hletter length)
      = [hashAt letter 0] ++ (range length).map fun n ↦ hashAt letter (n + 1) := by
  have hbase : base fromFirst branchHeaders = 0 := rfl
  rw [above, hbase, drop_zero, ChainView.hashes, branch]
  simp only [map_map, range_succ_eq_map, map_cons]
  rfl

theorem targetNumber_branch {letter : Char} {hletter : letter ≠ 'x'} {length : ℕ}
    {path : List BlockHash} (hlength : length ≤ 1000) :
    targetNumber fromFirst (branch letter hletter length) path = length := by
  have hlatest : (branch letter hletter length).latest.number = length := by
    simp [ChainView.latest, branch]
  have hwindow : fromFirst.blockProcessingWindow = 1000 := rfl
  rw [targetNumber, hlatest, hwindow]
  omega

/-- Above the first block the two branches have no hash in common. -/
theorem hashAt_ne_hashAt {n m : ℕ} (hm : 0 < m) : hashAt 'a' n ≠ hashAt 'b' m := by
  intro heq
  have hsecond := congrArg (fun hash ↦ hash.toList[1]?) heq
  obtain ⟨m, rfl⟩ := Nat.exists_eq_succ_of_ne_zero (Nat.ne_of_gt hm)
  simp only [hashAt, String.toList_ofList] at hsecond
  cases n with
  | zero | succ => exact absurd hsecond (by simp [hashChars])

/-- The first run indexes its whole branch. -/
theorem updateTask_branch {letter : Char} {hletter : letter ≠ 'x'} {length : ℕ}
    (hlength : length ≤ 1000) :
    updateTask fromFirst (branch letter hletter length) []
      = (tableOf fromFirst branchHeaders (above fromFirst (branch letter hletter length)),
        .ok ()) := by
  have hstart : HasStart fromFirst (branch letter hletter length) := .inl rfl
  obtain ⟨k, htarget, hfirst⟩ := updateTask_nil hstart
  rw [targetNumber_branch hlength] at htarget
  have hbase : base fromFirst branchHeaders = 0 := rfl
  have hall : (above fromFirst (branch letter hletter length)).length ≤ k := by
    rw [above_branch, length_append, length_map, length_range, length_singleton]
    omega
  rw [hfirst, take_of_length_le hall]

end DeepFork

open DeepFork

/-- The runs see two branches that part above the first block. The second has the 501 rows of the
first reverted in part, and indexes its blocks on a row that is not their parent. -/
theorem deep_fork_not_followed :
    ¬ FollowsChain fromFirst
      (replay (runUpdateTask fromFirst) [] [branch 'a' (by decide) 501])
      (branch 'b' (by decide) 501) := by
  intro hfollows
  have hstart : ∀ letter hletter, HasStart fromFirst (branch letter hletter 501) :=
    fun _ _ ↦ .inl rfl
  have hrun : replay (runUpdateTask fromFirst) [] [branch 'a' (by decide) 501]
      = tableOf fromFirst branchHeaders (above fromFirst (branch 'a' (by decide) 501)) := by
    rw [replay_cons, replay_nil, attempt, runUpdateTask, updateTask_branch (by omega)]
  rw [hrun, above_branch] at hfollows
  have honchain : OnChain fromFirst branchHeaders
      (tableOf fromFirst branchHeaders (above fromFirst (branch 'a' (by decide) 501))) :=
    ⟨_, hstart 'a' (by decide), _, List.prefix_refl _, rfl⟩
  obtain ⟨rows, hinit, -, hsame⟩ :=
    initializeBlocksTableIfNecessary_eq (hstart 'b' (by decide)) (.inr honchain)
  have hrows : rows
      = tableOf fromFirst branchHeaders (above fromFirst (branch 'a' (by decide) 501)) := by
    refine hsame.resolve_right fun hempty ↦ ?_
    have hhashes := congrArg (List.map Block.blockhash) hempty.1
    rw [blockhash_tableOf] at hhashes
    exact List.cons_ne_nil _ _ hhashes
  rw [hrows, above_branch] at hinit
  have habove : above fromFirst (branch 'b' (by decide) 501)
      = [hashAt 'a' 0] ++ (List.range 501).map fun n ↦ hashAt 'b' (n + 1) :=
    above_branch 'b' _ 501
  have hpath : [hashAt 'a' 0] ++ (List.range 501).map (fun n ↦ hashAt 'a' (n + 1))
      <+: above fromFirst (branch 'a' (by decide) 501) :=
    (above_branch 'a' (by decide) 501).symm ▸ List.prefix_refl _
  have hown' : ∀ hash ∈ (List.range 501).map fun n ↦ hashAt 'b' (n + 1),
      hash ∉ [hashAt 'a' 0] ++ (List.range 501).map fun n ↦ hashAt 'a' (n + 1) := by
    intro hash hmem hmem'
    obtain ⟨m, -, rfl⟩ := List.mem_map.mp hmem
    rcases List.mem_append.mp hmem' with hmem' | hmem'
    · exact hashAt_ne_hashAt (Nat.succ_pos m) (List.mem_singleton.mp hmem').symm
    · obtain ⟨n, -, heq⟩ := List.mem_map.mp hmem'
      exact hashAt_ne_hashAt (Nat.succ_pos m) heq
  have hlength : ((List.range 501).map fun n ↦ hashAt 'a' (n + 1)).length = 501 := by
    rw [List.length_map, List.length_range]
  obtain ⟨blocks, k, -, htarget, hbefore, hmap, hview⟩ := beforeIndexing_eq (hstart 'b' (by decide))
    (hstart 'a' (by decide)) hpath habove hown' (by omega)
  -- All 501 blocks of the other branch are to be indexed, and one row above the fork is left.
  have hk : k = 501 := by
    have hbase : base fromFirst branchHeaders = 0 := rfl
    rw [targetNumber_branch (by omega), List.length_singleton] at htarget
    omega
  have hleft : [hashAt 'a' 0] ++ ((List.range 501).map fun n ↦ hashAt 'a' (n + 1)).take (501 - 500)
      = [hashAt 'a' 0, hashAt 'a' 1] := by
    rw [← List.map_take, List.take_range]
    rfl
  rw [hlength, hleft] at hbefore
  have hlast : (blocks.map ChainBlock.hash).getLast? = some (hashAt 'b' 1) := by
    rw [hmap, List.getLast?_reverse, hk, ← List.map_take, List.head?_map, List.take_range,
      List.head?_range]
    rfl
  rw [List.getLast?_map] at hlast
  obtain ⟨first, hfirst, hhash⟩ := Option.map_eq_some_iff.mp hlast
  obtain ⟨row, hrow, hparent⟩ := hfollows.onParent _ _ _ first hinit hbefore hfirst
  cases hrow
  rw [row_eq_hashRow (hview first (List.mem_of_getLast? hfirst)), hhash] at hparent
  have hrow : (lastRow fromFirst branchHeaders [hashAt 'a' 0, hashAt 'a' 1]).blockhash
      = hashAt 'a' 1 := blockhash_lastRow _
  have hbelow : Database.parentHash
      { hashRow branchHeaders (hashAt 'b' 1) with isCurrent := true } = hashAt 'b' 0 := by
    refine if_neg ?_
    exact (hashAt_ne (by decide) 0).1
  have heq : hashAt 'a' 1 = hashAt 'b' 0 := by
    exact hparent
  exact absurd heq (by decide)

/-- A run along one branch, and one along the other after it. -/
theorem follows_chain_branch :
    Along (runUpdateTask fromFirst) (FollowsChain fromFirst) []
      [branch 'a' (by decide) 1, branch 'b' (by decide) 2] := by
  apply follows_chain
  refine ⟨⟨.inl rfl, by decide⟩, ⟨.inl rfl, ?_⟩, trivial⟩
  decide

end ColivingSpec.Discovery
