import ColivingSpec.Lib.Chunks
import ColivingSpec.Lib.Replay
import ColivingSpec.Solana.History

/-!
# The anchor program indexer

A run collects the transactions of the data program down to one that has been indexed, batches them
so that no slot is split, and hands on each batch in slices, each of which is parsed, put in chain
order and committed. It may fail in any step. What the instructions of a transaction change is not
kept, a slice is committed as a whole.
-/

namespace ColivingSpec.Solana

open Lib List

/-- `solana_program_indexer.py:229–253`: a page adds to the transactions to index. -/
def addUnindexed (latestProcessedSlot : ℕ) (colivingDataTxs unindexed page : List Tx) :
    List Tx × Bool :=
  let (txs, intersectionFound) := readPage latestProcessedSlot none
    (fun txSig ↦ txSig ∈ colivingDataTxs.map Tx.signature) page
  (unindexed ++ txs, intersectionFound)

/-- `solana_program_indexer.py:272–286`: the loop after the first transaction. -/
def batchTxs (previous : Tx) (batch : List Tx) : List Tx → List (List Tx)
  | [] => [batch]
  | tx :: txs =>
    -- transactions of one slot are batched together
    if batch.length ≥ writeTxSignaturesBatchSize ∧ previous.slot ≠ tx.slot then
      batch :: batchTxs tx [tx] txs
    else
      batchTxs tx (batch ++ [tx]) txs

/-- `solana_program_indexer.py:266–300`: the batches, oldest first. -/
def transactionBatches (unindexed : List Tx) : List (List Tx) :=
  if unindexed.length ≤ fetchTxSignaturesBatchSize then [unindexed]
  else match unindexed with
    | [] => []
    | tx :: txs => (resize (batchTxs tx [tx] txs)).reverse

/-- `solana_program_indexer.py:192–300`, unless a request fails. -/
def getTransactionBatchesToProcess (history : History) (colivingDataTxs : List Tx)
    (answers : ℕ) : Option (List (List Tx)) :=
  let latestProcessedSlot := highestSlot 0 (colivingDataTxs.map Tx.slot)
  let walk := overHistory history (addUnindexed latestProcessedSlot colivingDataTxs) answers none []
  if walk.2 then some (transactionBatches walk.1) else none

/-- The history of the program, the rows in the order in which they were added, and what a run has
yet to process. -/
structure AnchorIndexer where
  history : History
  colivingDataTxs : List Tx
  transactionSignatures : List (List Tx)

/-- What happens to the program and to the indexer. -/
inductive AnchorEvent where
  /-- A transaction of the program is finalized. -/
  | finalizes (tx : Tx)
  /-- A run starts, after whatever the last one left, and this many requests are answered. -/
  | starts (answers : ℕ)
  /-- The run processes its next slice. -/
  | processes
  deriving Repr

variable (s : AnchorIndexer)

/-- One event (`anchor_program_indexer.py:297–308`, `83–95`; `solana_program_indexer.py:152–180`). -/
def anchorStep : AnchorEvent → Except String AnchorIndexer
  | .finalizes tx =>
    if h : s.history.Accepts tx then .ok { s with history := s.history.add tx h }
    else .error "not the next transaction"
  | .starts answers =>
    .ok { s with
      transactionSignatures :=
        (getTransactionBatchesToProcess s.history s.colivingDataTxs answers).getD [] }
  | .processes =>
    match nextBatch s.transactionSignatures with
    | none => .error "nothing to process"
    | some (batch, batches) => do
      -- reversed, so that the oldest is first
      let parsed := (batch.take txSignaturesProcessingSize).reverse
      require ((s.colivingDataTxs ++ parsed).map Tx.signature).Nodup "UniqueViolation"
      return { s with
        colivingDataTxs := s.colivingDataTxs ++ parsed
        transactionSignatures := batch.drop txSignaturesProcessingSize :: batches }

/-- A program with any history, and an indexer that has not run. -/
def AnchorIndexer.start (history : History) : AnchorIndexer where
  history := history
  colivingDataTxs := []
  transactionSignatures := []

/-- The indexer after a run of events. -/
def anchorIndexer (history : History) (events : List AnchorEvent) : AnchorIndexer :=
  replay anchorStep (AnchorIndexer.start history) events

theorem addUnindexed_eq (latest : ℕ) (rows txs page : List Tx) :
    addUnindexed latest rows txs page =
      (txs ++ (page.takeWhile fun tx ↦ !isIntersection latest none
          (fun txSig ↦ decide (txSig ∈ rows.map Tx.signature)) tx).filter (fun _ ↦ true),
        page.any (isIntersection latest none fun txSig ↦ decide (txSig ∈ rows.map Tx.signature)))
    := by
  have hall : isTaken latest none = fun _ ↦ true := by
    funext tx
    simp [isTaken, aboveMinimum]
  simp only [addUnindexed, readPage_eq, hall]

/-- A walk that ends has collected what lies above the first row that it met. -/
theorem overHistory_addUnindexed {history : History} {latest answers : ℕ} {rows : List Tx}
    (hended : (overHistory history (addUnindexed latest rows) answers none []).2) :
    (overHistory history (addUnindexed latest rows) answers none []).1 =
      (history.txs.takeWhile fun tx ↦ !isIntersection latest none
        (fun txSig ↦ decide (txSig ∈ rows.map Tx.signature)) tx).filter (fun _ ↦ true) := by
  refine overHistory_collects Eq (fun txs ↦ txs) _ _ (fun _ ↦ rfl) (fun _ _ _ h h' ↦ h.trans h')
    (fun _ _ _ h ↦ by rw [h]) ?_ ?_ hended
  · exact fun txs page ↦ congrArg Prod.snd (addUnindexed_eq latest rows txs page)
  · exact fun txs page ↦ congrArg Prod.fst (addUnindexed_eq latest rows txs page)

theorem batchTxs_flatten (previous : Tx) (batch txs : List Tx) :
    (batchTxs previous batch txs).flatten = batch ++ txs := by
  induction txs generalizing previous batch with
  | nil => simp [batchTxs]
  | cons tx txs ih =>
    unfold batchTxs
    split <;> simp [ih]

/-- The batches are the oldest of the transactions to index. -/
theorem transactionBatches_suffix (unindexed : List Tx) :
    (transactionBatches unindexed).reverse.flatten <:+ unindexed := by
  unfold transactionBatches
  split
  case isTrue => simp
  case isFalse =>
    cases unindexed with
    | nil => simp
    | cons tx txs =>
      have hsuffix := flatten_suffix (resize_suffix (batchTxs tx [tx] txs))
      rw [batchTxs_flatten, singleton_append] at hsuffix
      rwa [reverse_reverse]

/-- The rows are the oldest transactions in the order of the chain, and what the run has yet to
process comes next. -/
def AnchorIndexer.InOrder : Prop :=
  s.transactionSignatures.reverse.flatten ++ s.colivingDataTxs.reverse <:+ s.history.txs

/-- The transactions applied so far, in the order in which they were applied, are the first of the
chain. -/
def AnchorIndexer.AppliesPrefix : Prop :=
  s.colivingDataTxs <+: s.history.txs.reverse

/-- The batch that is being processed fits in one slice. -/
def BatchFits (e : AnchorEvent) : Prop :=
  e = .processes → ∀ next ∈ nextBatch s.transactionSignatures,
    next.1.length ≤ txSignaturesProcessingSize

namespace AnchorIndexer.InOrder

variable {s : AnchorIndexer}

theorem appliesPrefix (h : s.InOrder) : s.AppliesPrefix := by
  have hrows : s.colivingDataTxs.reverse <:+ s.history.txs := (suffix_append _ _).trans h
  have hrev := reverse_prefix.mpr hrows
  rwa [reverse_reverse] at hrev

theorem finalizes (h : s.InOrder) (tx : Tx) (htx : s.history.Accepts tx) :
    { s with history := s.history.add tx htx : AnchorIndexer }.InOrder :=
  IsSuffix.trans h (suffix_cons tx s.history.txs)

/-- A run may start anywhere: it takes up the oldest that is not applied. -/
theorem starts (h : s.InOrder) (answers : ℕ) :
    { s with
      transactionSignatures :=
        (getTransactionBatchesToProcess s.history s.colivingDataTxs answers).getD [] :
          AnchorIndexer }.InOrder := by
  obtain ⟨newer, hnewer⟩ := (suffix_append _ s.colivingDataTxs.reverse).trans h
  cases hbatches : getTransactionBatchesToProcess s.history s.colivingDataTxs answers with
  | none =>
    exact ⟨newer, by simpa using hnewer⟩
  | some batches =>
    generalize hlatest : highestSlot 0 (s.colivingDataTxs.map Tx.slot) = latest
    simp only [getTransactionBatchesToProcess, hlatest] at hbatches
    split at hbatches
    case isFalse => cases hbatches
    case isTrue hended =>
      cases hbatches
      have hmem : ∀ tx ∈ s.colivingDataTxs, tx ∈ s.history.txs := by
        intro tx htx
        rw [← hnewer]
        exact mem_append_right _ (mem_reverse.mpr htx)
      have hsplit : s.history.txs.filter (fun _ ↦ true) = newer ++ s.colivingDataTxs.reverse := by
        rw [filter_true, hnewer]
      -- the walk stops at the newest row
      have hread : (s.history.txs.takeWhile fun tx ↦ !isIntersection latest none
          (fun txSig ↦ decide (txSig ∈ s.colivingDataTxs.map Tx.signature)) tx).filter
            (fun _ ↦ true) = newer := by
        apply filter_unread s.history (fun _ htx ↦ htx)
        · intro row hrow
          exact ⟨hmem row hrow, hlatest ▸ slot_le_highestSlot 0 (mem_map_of_mem hrow)⟩
        · exact fun _ _ _ ↦ rfl
        · exact hsplit
        · intro tx htx hrow
          have hnodup := hnewer ▸ s.history.nodup
          exact (nodup_append.mp hnodup).2.2 tx htx tx (mem_reverse.mpr hrow) rfl
        · exact fun tx htx ↦ ⟨mem_reverse.mp htx, rfl⟩
      have hwalk := (overHistory_addUnindexed hended).trans hread
      obtain ⟨front, hfront⟩ := transactionBatches_suffix newer
      refine ⟨front, ?_⟩
      rw [hwalk, ← hnewer]
      change front ++ ((transactionBatches newer).reverse.flatten ++ _) = _
      rw [← append_assoc, hfront]

variable {batch : List Tx} {batches : List (List Tx)}

/-- A batch that fits in one slice is applied as a whole. -/
theorem processes (h : s.InOrder)
    (hnext : nextBatch s.transactionSignatures = some (batch, batches))
    (hfits : batch.length ≤ txSignaturesProcessingSize) :
    { s with
      colivingDataTxs := s.colivingDataTxs ++ (batch.take txSignaturesProcessingSize).reverse
      transactionSignatures := batch.drop txSignaturesProcessingSize :: batches :
        AnchorIndexer }.InOrder := by
  unfold InOrder at h ⊢
  rw [reverse_flatten_of_nextBatch hnext] at h
  rw [take_of_length_le hfits, drop_of_length_le hfits]
  simpa using h

/-- The rows of a slice are new ones. -/
theorem parsed_distinct (h : s.InOrder)
    (hnext : nextBatch s.transactionSignatures = some (batch, batches)) :
    ((s.colivingDataTxs ++ (batch.take txSignaturesProcessingSize).reverse).map
      Tx.signature).Nodup := by
  unfold InOrder at h
  rw [reverse_flatten_of_nextBatch hnext, append_assoc] at h
  have hbatch : (batch ++ s.colivingDataTxs.reverse).Sublist s.history.txs :=
    ((suffix_append _ _).trans h).sublist
  have hslice := ((take_sublist txSignaturesProcessingSize batch).append_right _).trans hbatch
  have hnodup := s.history.distinct.sublist (hslice.map Tx.signature)
  rw [← nodup_reverse, ← map_reverse, reverse_append, reverse_reverse]
  exact hnodup

theorem step {s' : AnchorIndexer} {e : AnchorEvent} (h : s.InOrder) (hfits : BatchFits s e)
    (hstep : anchorStep s e = .ok s') : s'.InOrder := by
  cases e with
  | finalizes tx =>
    simp only [anchorStep] at hstep
    split at hstep
    case isTrue htx =>
      cases hstep
      exact h.finalizes tx htx
    case isFalse => cases hstep
  | starts answers =>
    cases hstep
    exact h.starts answers
  | processes =>
    simp only [anchorStep] at hstep
    split at hstep
    case h_1 => cases hstep
    case h_2 batch batches hnext =>
      obtain ⟨-, hs'⟩ := require_bind_eq_ok.mp hstep
      cases hs'
      exact h.processes hnext (hfits rfl (batch, batches) hnext)

/-- After the first slice of a larger batch an older transaction is missing. -/
theorem not_prefix (h : s.InOrder)
    (hnext : nextBatch s.transactionSignatures = some (batch, batches))
    (hlarge : txSignaturesProcessingSize < batch.length) :
    ¬ s.colivingDataTxs ++ (batch.take txSignaturesProcessingSize).reverse
      <+: s.history.txs.reverse := by
  intro happlied
  unfold InOrder at h
  rw [reverse_flatten_of_nextBatch hnext, append_assoc] at h
  have hbatch := (suffix_append _ _).trans h
  have htake : batch.take txSignaturesProcessingSize ≠ [] := by
    rw [Ne, take_eq_nil_iff]
    rintro (hzero | rfl)
    · cases hzero
    · cases hlarge
  have hdrop : batch.drop txSignaturesProcessingSize ≠ [] := by
    rw [Ne, drop_eq_nil_iff]
    omega
  obtain ⟨slice, newest, hslice⟩ := eq_nil_or_concat _ |>.resolve_left htake
  obtain ⟨rest, oldest, hrest⟩ := eq_nil_or_concat _ |>.resolve_left hdrop
  have hsplit := (take_append_drop txSignaturesProcessingSize batch).symm
  rw [hslice, hrest] at hsplit
  have holdest : oldest :: s.colivingDataTxs.reverse <:+ s.history.txs := by
    refine IsSuffix.trans ⟨slice ++ [newest] ++ rest, ?_⟩ hbatch
    simp [hsplit]
  have hnewest : newest :: s.colivingDataTxs.reverse <:+ s.history.txs := by
    have hrows := reverse_suffix.mpr happlied
    rw [hslice, reverse_reverse] at hrows
    refine IsSuffix.trans ⟨slice, ?_⟩ hrows
    simp
  -- both are the transaction right above the rows
  have hsame := (suffix_of_suffix_length_le holdest hnewest (Nat.le_refl _)).eq_of_length rfl
  have hnodup : batch.Nodup := (s.history.nodup.sublist hbatch.sublist).of_append_left
  rw [hsplit] at hnodup
  have hne := (nodup_append.mp hnodup).2.2 newest (by simp) oldest (by simp)
  exact hne (cons.inj hsame).1.symm

/-- The first slice of a larger batch is applied all the same. -/
theorem not_appliesPrefix (h : s.InOrder)
    (hnext : nextBatch s.transactionSignatures = some (batch, batches))
    (hlarge : txSignaturesProcessingSize < batch.length) :
    ¬ (attempt anchorStep s .processes).AppliesPrefix := by
  have hstep : anchorStep s .processes = .ok { s with
      colivingDataTxs := s.colivingDataTxs ++ (batch.take txSignaturesProcessingSize).reverse
      transactionSignatures := batch.drop txSignaturesProcessingSize :: batches } := by
    simp only [anchorStep, hnext, require, if_pos (h.parsed_distinct hnext)]
    rfl
  rw [attempt_of_ok _ hstep]
  exact h.not_prefix hnext hlarge

end AnchorIndexer.InOrder

/-- In a run of finalized transactions, starts and failures, the transactions applied are at all
times the first of the chain, in its order, if and only if each batch fits in one slice when it
comes to be processed. -/
theorem appliesPrefix_iff_batches_fit (history : History) (events : List AnchorEvent) :
    (∀ done, done <+: events → (anchorIndexer history done).AppliesPrefix) ↔
      Along anchorStep BatchFits (AnchorIndexer.start history) events := by
  apply prefixes_iff_along_of_invariant (J := AnchorIndexer.InOrder)
  · exact fun s hs ↦ hs.appliesPrefix
  · intro s e hs hfits
    exact attempt_invariant (fun _ _ _ hs hg hstep ↦ hs.step hg hstep) hs hfits
  · rintro s e hs happlied rfl ⟨batch, batches⟩ hnext
    by_contra hlarge
    exact hs.not_appliesPrefix hnext (Nat.lt_of_not_le hlarge) happlied
  · exact List.nil_suffix

/-- With one transaction more than a slice holds, the newest ones are applied first. -/
theorem newest_slice_first :
    ¬ (anchorIndexer onePerSlot101 [.starts 2, .processes]).AppliesPrefix := by
  have hstarted : (AnchorIndexer.start onePerSlot101).InOrder := List.nil_suffix
  have hin : (attempt anchorStep (.start onePerSlot101) (.starts 2)).InOrder :=
    attempt_invariant (fun _ _ _ hs hg hstep ↦ hs.step hg hstep) hstarted (fun he ↦ nomatch he)
  have hnext : nextBatch (attempt anchorStep (.start onePerSlot101)
      (.starts 2)).transactionSignatures = some (onePerSlot101.txs, []) := by
    decide +kernel
  rw [anchorIndexer, replay_cons, replay_cons, replay_nil]
  exact hin.not_appliesPrefix hnext (by decide +kernel)

end ColivingSpec.Solana
