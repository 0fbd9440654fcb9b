import ColivingSpec.Solana.AnchorProgram

/-!
# The batches of a run

The transactions that lie above the newest one in the table are divided into batches, the oldest
batch first, none of which shares a slot with another. A batch lists its transactions newest first,
and is turned round when it is saved.
-/

namespace ColivingSpec.Solana

open List

/-- Rows that agree with the history: a signature that both have is of one transaction. -/
structure RowsOf (history : History) where
  rows : List Tx
  same : ∀ row ∈ rows, ∀ tx ∈ history.txs, tx.signature = row.signature → tx = row

namespace RowsOf

variable {history : History}

/-- The transaction is not in the table. -/
def isNew (table : RowsOf history) (tx : Tx) : Bool :=
  decide (tx.signature ∉ table.rows.map Tx.signature)

/-- The transactions that are listed before the first one in the table. -/
def unindexed (table : RowsOf history) : List Tx := history.txs.takeWhile table.isNew

end RowsOf

/-- The transactions of the batches as they are saved: batch by batch, each turned round. -/
def saved (batches : List (List Tx)) : List Tx := (batches.map List.reverse).flatten

/-- The batches divide what is not indexed, oldest first and slot by slot; where they are as many as a
run takes, the newest slots may be left out. -/
structure DividesOldestFirst (unindexed : List Tx) (batches : List (List Tx)) : Prop where
  kept : ∃ newest, unindexed.reverse = saved batches ++ newest ∧
    (newest = [] ∨ batches.length = txSignaturesResizeLength) ∧
      ∀ tx ∈ saved batches, ∀ tx' ∈ newest, tx.slot < tx'.slot
  once : ((saved batches).map Tx.signature).Nodup
  ordered : (saved batches).Pairwise fun older newer ↦ older.slot ≤ newer.slot
  wholeSlots : batches.Pairwise fun b b' ↦ ∀ tx ∈ b, ∀ tx' ∈ b', tx.slot ≠ tx'.slot

/-- What is saved is what the batches hold, from behind. -/
theorem saved_eq (batches : List (List Tx)) : saved batches = batches.reverse.flatten.reverse := by
  rw [reverse_flatten, map_reverse, reverse_reverse]
  rfl

/-- Where the slots fall, the slots of one batch lie above those of the batches behind it. -/
theorem batchTxs_pairwise (previous : Tx) (batch txs : List Tx)
    (hordered : (batch ++ txs).Pairwise fun newer older ↦ older.slot ≤ newer.slot)
    (hmem : previous ∈ batch) (hprevious : ∀ tx ∈ batch, previous.slot ≤ tx.slot) :
    (batchTxs previous batch txs).Pairwise fun b b' ↦ ∀ tx ∈ b, ∀ tx' ∈ b', tx'.slot < tx.slot := by
  induction txs generalizing previous batch with
  | nil => exact pairwise_singleton _ _
  | cons tx txs ih =>
    obtain ⟨hbatch, hrest, hacross⟩ := pairwise_append.mp hordered
    unfold batchTxs
    split
    case isTrue hsplit =>
      have hin : ∀ b' ∈ batchTxs tx [tx] txs, ∀ tx' ∈ b', tx'.slot ≤ tx.slot := by
        intro b' hb' tx' htx'
        have hflat : tx' ∈ (batchTxs tx [tx] txs).flatten := mem_flatten.mpr ⟨b', hb', htx'⟩
        rw [batchTxs_flatten, singleton_append] at hflat
        rcases mem_cons.mp hflat with rfl | hflat
        · exact Nat.le_refl _
        · exact (pairwise_cons.mp hrest).1 tx' hflat
      refine pairwise_cons.mpr ⟨?_, ih tx [tx] hrest (mem_singleton_self tx) ?_⟩
      · intro b' hb' tx₁ htx₁ tx₂ htx₂
        have hle := hin b' hb' tx₂ htx₂
        have hfalls := hacross previous hmem tx mem_cons_self
        have hlast := hprevious tx₁ htx₁
        omega
      · intro tx' htx'
        rw [mem_singleton.mp htx']
    case isFalse =>
      rw [append_cons] at hordered
      refine ih tx (batch ++ [tx]) hordered (mem_append_right _ (mem_singleton_self tx)) ?_
      intro tx' htx'
      rcases mem_append.mp htx' with hin | hin
      · exact hacross tx' hin tx mem_cons_self
      · rw [mem_singleton.mp hin]

/-- The batches are those of the loop, all of them or as many of the oldest as a run takes. -/
theorem exists_transactionBatches {unindexed : List Tx}
    (hordered : unindexed.Pairwise fun newer older ↦ older.slot ≤ newer.slot) :
    ∃ all kept, all.flatten = unindexed ∧ kept <:+ all ∧
      (kept = all ∨ kept.length = txSignaturesResizeLength) ∧
      transactionBatches unindexed = kept.reverse ∧
      all.Pairwise fun b b' ↦ ∀ tx ∈ b, ∀ tx' ∈ b', tx'.slot < tx.slot := by
  unfold transactionBatches
  split
  case isTrue =>
    exact ⟨[unindexed], [unindexed], flatten_singleton, suffix_rfl, .inl rfl, rfl,
      pairwise_singleton _ _⟩
  case isFalse =>
    cases unindexed with
    | nil => exact ⟨[], [], rfl, suffix_rfl, .inl rfl, rfl, List.Pairwise.nil⟩
    | cons tx txs =>
      refine ⟨batchTxs tx [tx] txs, resize (batchTxs tx [tx] txs), ?_, resize_suffix _, ?_, rfl, ?_⟩
      · rw [batchTxs_flatten, singleton_append]
      · unfold resize
        split
        case isTrue hmany =>
          refine .inr ?_
          unfold txSignaturesMaxBatches at hmany
          unfold txSignaturesResizeLength
          rw [length_drop]
          omega
        case isFalse => exact .inl rfl
      · apply batchTxs_pairwise tx [tx] txs hordered (mem_singleton_self tx)
        intro tx' htx'
        rw [mem_singleton.mp htx']

/-- The batches of a list with no slot split: what they leave out lies above them. -/
theorem transactionBatches_divide {unindexed : List Tx}
    (hordered : unindexed.Pairwise fun newer older ↦ older.slot ≤ newer.slot)
    (hdistinct : (unindexed.map Tx.signature).Nodup) :
    DividesOldestFirst unindexed (transactionBatches unindexed) := by
  obtain ⟨all, kept, hall, hsuffix, hlength, hresult, hslots⟩ := exists_transactionBatches hordered
  obtain ⟨newest, rfl⟩ := hsuffix
  have hsaved : saved kept.reverse = kept.flatten.reverse := by
    rw [saved_eq, reverse_reverse]
  have hsplit : unindexed = newest.flatten ++ kept.flatten := by
    rw [← hall, flatten_append]
  have hsublist : kept.flatten.Sublist unindexed := hsplit ▸ sublist_append_right _ _
  rw [hresult]
  refine ⟨⟨newest.flatten.reverse, ?_, ?_, ?_⟩, ?_, ?_, ?_⟩
  · rw [hsaved, hsplit, reverse_append]
  · rw [length_reverse]
    rcases hlength with hsame | hlength
    · have hnil : newest = [] := append_left_eq_self.mp hsame.symm
      exact .inl (by rw [hnil]; rfl)
    · exact .inr hlength
  · intro tx htx tx' htx'
    rw [hsaved, mem_reverse] at htx
    rw [mem_reverse] at htx'
    obtain ⟨b, hb, htxb⟩ := mem_flatten.mp htx
    obtain ⟨b', hb', htxb'⟩ := mem_flatten.mp htx'
    exact (pairwise_append.mp hslots).2.2 b' hb' b hb tx' htxb' tx htxb
  · rw [hsaved, map_reverse, nodup_reverse]
    exact hdistinct.sublist (hsublist.map Tx.signature)
  · rw [hsaved, pairwise_reverse]
    exact hordered.sublist hsublist
  · rw [pairwise_reverse]
    refine (pairwise_append.mp hslots).2.1.imp ?_
    intro b b' hbelow tx htx tx' htx'
    have hlt := hbelow tx' htx' tx htx
    omega

/-- What a walk collects is what is not indexed. -/
theorem takeWhile_eq_unindexed {history : History} (table : RowsOf history) :
    history.txs.takeWhile (fun tx ↦ !isIntersection (highestSlot 0 (table.rows.map Tx.slot)) none
      (fun txSig ↦ decide (txSig ∈ table.rows.map Tx.signature)) tx) = table.unindexed := by
  have hagree : ∀ tx ∈ history.txs, (!isIntersection (highestSlot 0 (table.rows.map Tx.slot)) none
      (fun txSig ↦ decide (txSig ∈ table.rows.map Tx.signature)) tx) = table.isNew tx := by
    intro tx htx
    by_cases hsig : tx.signature ∈ table.rows.map Tx.signature
    · obtain ⟨row, hrow, hsame⟩ := mem_map.mp hsig
      obtain rfl := table.same row hrow tx htx hsame.symm
      have hslot := slot_le_highestSlot 0 (mem_map_of_mem (f := Tx.slot) hrow)
      simp [isIntersection, aboveMinimum, RowsOf.isNew, hsig, hslot]
    · simp [isIntersection, RowsOf.isNew, hsig]
  unfold RowsOf.unindexed
  generalize history.txs = txs at hagree
  induction txs with
  | nil => rfl
  | cons tx txs ih =>
    rw [takeWhile_cons, takeWhile_cons, hagree tx mem_cons_self,
      ih fun tx' htx' ↦ hagree tx' (mem_cons_of_mem tx htx')]

/-- The batches of a run divide the transactions that lie above the newest one in the table, oldest
first and slot by slot; and the run has them after a request more than there are transactions. -/
theorem batches_divide_unindexed (history : History) (table : RowsOf history) :
    (getTransactionBatchesToProcess history table.rows (history.txs.length + 1)).isSome ∧
      ∀ answers batches, getTransactionBatchesToProcess history table.rows answers = some batches →
        DividesOldestFirst table.unindexed batches := by
  constructor
  · unfold getTransactionBatchesToProcess
    rw [if_pos (overHistory_ends history _ _ _)]
    rfl
  · intro answers batches hbatches
    dsimp only [getTransactionBatchesToProcess] at hbatches
    split at hbatches
    case isFalse => cases hbatches
    case isTrue hended =>
      have hwalk := overHistory_addUnindexed hended
      rw [List.filter_true, takeWhile_eq_unindexed] at hwalk
      rw [← Option.some.inj hbatches, hwalk]
      have hsublist := (List.takeWhile_prefix table.isNew (l := history.txs)).sublist
      exact transactionBatches_divide (history.ordered.sublist hsublist)
        (history.distinct.sublist (hsublist.map Tx.signature))

/-- Two transactions in two slots. -/
def twoSlots : History where
  txs := [⟨"newer", 2⟩, ⟨"older", 1⟩]
  distinct := by decide
  ordered := by decide

/-- A table without rows. -/
def noRows : RowsOf twoSlots := ⟨[], fun _ hrow ↦ by cases hrow⟩

/-- The two are saved oldest first. -/
theorem batches_divide_twoSlots :
    (getTransactionBatchesToProcess twoSlots noRows.rows 3).isSome ∧
      DividesOldestFirst noRows.unindexed [twoSlots.txs] :=
  ⟨(batches_divide_unindexed twoSlots noRows).1,
    (batches_divide_unindexed twoSlots noRows).2 2 [twoSlots.txs] (by decide +kernel)⟩

/-- The one batch of the two lists the newer one first; and with the newer one in the table, the older
one is in no batch. -/
theorem batches_newest_first :
    getTransactionBatchesToProcess twoSlots [] 2 = some [[⟨"newer", 2⟩, ⟨"older", 1⟩]] ∧
      ¬ (([[⟨"newer", 2⟩, ⟨"older", 1⟩]] : List (List Tx)).flatten.Pairwise
        fun tx tx' ↦ tx.slot ≤ tx'.slot) ∧
      getTransactionBatchesToProcess twoSlots [⟨"newer", 2⟩] 2 = some [[]] := by
  decide +kernel

end ColivingSpec.Solana
