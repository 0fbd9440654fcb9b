import ColivingSpec.Discovery.ChallengeEvents
import ColivingSpec.Discovery.UpdateTask

/-!
# The transactions that are skipped

A pass leaves out the transaction that the record of the last failure names, or the whole block,
and adds a row for it to `skipped_transactions`. The record is compared by its hash alone, and the
same routine saves it for each transaction to no account. Rows of the node level are not kept, no
pass reads them.
-/

namespace ColivingSpec.Discovery

open Lib List

/-- `skipped_transactions.py:20`. -/
def maxNetworkLevelSkippedTx : ℕ := 100

/-- A network-level row of `skipped_transactions`. -/
structure SkippedTransaction where
  blocknumber : ℕ
  blockhash : BlockHash
  txhash : Option TxHash
  deriving DecidableEq, Repr

variable (countAnswers : Bool) (c : Circumstances) (s : SkippingIndexer)

variable (rows : List SkippedTransaction) (skipTxHash : Option TxHash) (leftOut : LeftOut)

/-- `skipped_transactions.py:71–88`. Whether the count of the rows answers is met by the pass. -/
def addNetworkLevelSkippedTransaction (record : IndexingErrorRecord) :
    Except String (List SkippedTransaction) := do
  require (countAnswers = true) "OperationalError"
  require (rows.length < maxNetworkLevelSkippedTx) "No active exception to reraise"
  return rows ++ [⟨record.blocknumber, record.blockhash, record.txhash⟩]

/-- `index.py:414–426`: whatever is raised is caught. -/
def saveSkippedTx (indexingError : Option IndexingErrorRecord) :
    List SkippedTransaction :=
  match indexingError with
  | none => rows
  | some record =>
    match addNetworkLevelSkippedTransaction countAnswers rows record with
    | .ok rows' => rows'
    | .error _ => rows

/-- What a pass skips (`index.py:580`, `621–631`): the whole block, or its transactions to no
account and the one with the hash to skip. -/
def skipCalls (block : ChainBlock) : ℕ :=
  if skipTxHash = some "commit" then 1
  else ((sortBlockTransactions c.sortOrderStartBlock block).filter (shouldSkipTx skipTxHash)).length

/-- The rows in the session once the pass has skipped what it skips. -/
def skipRows (countAnswers : Bool) (rows : List SkippedTransaction) (indexer : Indexer)
    (block : ChainBlock) : List SkippedTransaction :=
  (fun rows ↦ saveSkippedTx countAnswers rows indexer.indexingError)^[
    skipCalls c (getTxHashToSkip indexer.indexingError) block] rows

/-- The pass with the rows in its session: one without a hash is refused when it is flushed, at
the latest by the query for the current block. -/
def Circumstances.flushing : Circumstances :=
  if rows.all fun row ↦ row.txhash.isSome then c
  else { c with txReceipts := .error "null value in column txhash violates not-null constraint" }

/-- What a pass leaves out because of the record it has read: the hashes, and `commit` for the
whole block. -/
def leftOutHashes (c : Circumstances) (block : ChainBlock) :
    List TxHash :=
  if skipTxHash = some "commit" then ["commit"]
  else ((sortBlockTransactions c.sortOrderStartBlock block).filter fun tx ↦
    decide (skipTxHash = some tx.hash)).map Transaction.hash

/-- Something that a committed pass left out because of a record: a transaction of the block, or
the whole block under the hash `commit`; with the record and the number of rows before. -/
structure LeftOut where
  block : ChainBlock
  txhash : TxHash
  record : IndexingErrorRecord
  rowsBefore : ℕ
  deriving DecidableEq, Repr

/-- The row that stands for it. -/
def LeftOut.row : SkippedTransaction :=
  ⟨leftOut.block.number, leftOut.block.hash, some leftOut.txhash⟩

/-- The failure that the record is of is the one of what was left out, and there was room. -/
def LeftOut.Justified : Prop :=
  leftOut.record.blocknumber = leftOut.block.number ∧
    leftOut.record.blockhash = leftOut.block.hash ∧
    leftOut.record.txhash = some leftOut.txhash ∧ leftOut.record.hasConsensus = true ∧
    leftOut.rowsBefore < maxNetworkLevelSkippedTx

/-- What the loop reads and writes, the committed rows, and what committed passes left out. -/
structure SkippingIndexer where
  indexer : Indexer
  skippedTransactions : List SkippedTransaction
  leftOut : List LeftOut

/-- What happens: a pass over a block, or a revert of the latest blocks. -/
inductive SkipEvent where
  | passes (c : Circumstances) (countAnswers : Bool) (block : ChainBlock)
  | reverts (revertBlocksList : List Block)

/-- What a pass over a block meets, with the rows of its session. -/
def SkippingIndexer.flushing (s : SkippingIndexer) (c : Circumstances) (countAnswers : Bool)
    (block : ChainBlock) : Circumstances :=
  c.flushing (skipRows c countAnswers s.skippedTransactions s.indexer block)

/-- What a pass over a block leaves out, if it commits. -/
def SkippingIndexer.leavesOut (c : Circumstances) (block : ChainBlock) : List LeftOut :=
  match s.indexer.indexingError with
  | none => []
  | some record =>
    (leftOutHashes (getTxHashToSkip (some record)) c block).map fun txhash ↦
      ⟨block, txhash, record, s.skippedTransactions.length⟩

/-- One event (`index.py:544–778`, `782–828`): the rows are committed with the row of the block. -/
def skipStep : SkipEvent → Except String SkippingIndexer
  | .passes c countAnswers block =>
    let (indexer, _) := indexBlock (s.flushing c countAnswers block) s.indexer block
    if indexer.blocks = s.indexer.blocks then .ok { s with indexer := indexer }
    else .ok {
      indexer := indexer
      skippedTransactions := skipRows c countAnswers s.skippedTransactions s.indexer block
      leftOut := s.leftOut ++ s.leavesOut c block }
  | .reverts revertBlocksList => do
    let blocks ← revertBlockRows s.indexer.blocks revertBlocksList
    return { s with indexer := { s.indexer with blocks := blocks } }

/-- A run that starts on a table of blocks, with a record of a failure or none. -/
def SkippingIndexer.start (blocks : List Block) (record : Option IndexingErrorRecord) :
    SkippingIndexer where
  indexer := ⟨blocks, ⟨[], []⟩, record⟩
  skippedTransactions := []
  leftOut := []

/-- The committed rows are those of what was left out, each once, and each was left out because
its own failure had been confirmed, as long as there was room. -/
def SkippingIndexer.SkipsSound : Prop :=
  s.skippedTransactions = s.leftOut.map LeftOut.row ∧ ∀ leftOut ∈ s.leftOut, leftOut.Justified

/-- The number of rows that a pass adds: one for each skip, up to the limit. -/
def addedRows (rows calls : ℕ) : ℕ :=
  if countAnswers then min calls (maxNetworkLevelSkippedTx - rows) else 0

/-- A pass that commits while a failure is recorded adds as many rows as it leaves something out
because of the record, and if it does so, the record is of its block. -/
def SkipsMatch : SkipEvent → Prop
  | .reverts _ => True
  | .passes c countAnswers block =>
    Commits (s.flushing c countAnswers block) s.indexer block →
      ∀ record ∈ s.indexer.indexingError,
        addedRows countAnswers s.skippedTransactions.length
            (skipCalls c (getTxHashToSkip (some record)) block)
          = (leftOutHashes (getTxHashToSkip (some record)) c block).length ∧
        (leftOutHashes (getTxHashToSkip (some record)) c block ≠ [] →
          record.blocknumber = block.number ∧ record.blockhash = block.hash)

section Rows

variable {c : Circumstances} {countAnswers : Bool} {block : ChainBlock}

/-- Saving again and again adds the record's row until the limit is reached. -/
theorem saveSkippedTx_iterate (record : IndexingErrorRecord) (rows : List SkippedTransaction)
    (calls : ℕ) :
    (fun rows ↦ saveSkippedTx countAnswers rows (some record))^[calls] rows =
      rows ++ replicate (addedRows countAnswers rows.length calls)
        ⟨record.blocknumber, record.blockhash, record.txhash⟩ := by
  induction calls generalizing rows with
  | zero => simp [addedRows]
  | succ calls ih =>
    rw [Function.iterate_succ_apply, ih]
    cases countAnswers with
    | false => simp [saveSkippedTx, addNetworkLevelSkippedTransaction, require, addedRows]
    | true =>
      by_cases hroom : rows.length < maxNetworkLevelSkippedTx
      · have hsave : saveSkippedTx true rows (some record) =
            rows ++ [⟨record.blocknumber, record.blockhash, record.txhash⟩] := by
          simp only [saveSkippedTx, addNetworkLevelSkippedTransaction, require, if_true, ok_bind,
            if_pos hroom]
          rfl
        have hcount : addedRows true rows.length (calls + 1) = addedRows true (rows.length + 1) calls
            + 1 := by
          simp only [addedRows, if_true]
          omega
        rw [hsave, length_append, length_singleton, hcount, replicate_succ,
          append_assoc, singleton_append]
      · have hsave : saveSkippedTx true rows (some record) = rows := by
          simp only [saveSkippedTx, addNetworkLevelSkippedTransaction, require, if_true, ok_bind,
            if_neg hroom, error_bind]
        have hcount : ∀ n, addedRows true rows.length n = 0 := by
          intro n
          simp only [addedRows, if_true]
          omega
        rw [hsave, hcount, hcount]

/-- What is left out because of a record has the record's hash. -/
theorem mem_leftOutHashes {record : IndexingErrorRecord} {txhash : TxHash}
    (h : txhash ∈ leftOutHashes (getTxHashToSkip (some record)) c block) :
    record.txhash = some txhash ∧ record.hasConsensus = true := by
  have hskip : getTxHashToSkip (some record) = some txhash := by
    unfold leftOutHashes at h
    split at h
    case isTrue hcommit =>
      rw [hcommit, mem_singleton.mp h]
    case isFalse =>
      obtain ⟨tx, htx, rfl⟩ := mem_map.mp h
      simpa using (mem_filter.mp htx).2
  unfold getTxHashToSkip at hskip
  cases hconsensus : record.hasConsensus with
  | true => simpa [hconsensus] using hskip
  | false => simp [hconsensus] at hskip

/-- The rows added are those of what is left out, and that is justified, just when their numbers
agree and the record is of the block. -/
theorem added_iff {record : IndexingErrorRecord} {rowsBefore : ℕ} {leftOut : List LeftOut}
    (hleftOut : ∀ l ∈ leftOut, l.Justified) :
    (replicate (addedRows countAnswers rowsBefore
            (skipCalls c (getTxHashToSkip (some record)) block))
          (⟨record.blocknumber, record.blockhash, record.txhash⟩ : SkippedTransaction)
        = ((leftOutHashes (getTxHashToSkip (some record)) c block).map fun txhash ↦
            (⟨block, txhash, record, rowsBefore⟩ : LeftOut)).map LeftOut.row ∧
      ∀ l, l ∈ leftOut ∨ l ∈ (leftOutHashes (getTxHashToSkip (some record)) c block).map
          (fun txhash ↦ (⟨block, txhash, record, rowsBefore⟩ : LeftOut)) → l.Justified) ↔
    addedRows countAnswers rowsBefore (skipCalls c (getTxHashToSkip (some record)) block)
        = (leftOutHashes (getTxHashToSkip (some record)) c block).length ∧
      (leftOutHashes (getTxHashToSkip (some record)) c block ≠ [] →
        record.blocknumber = block.number ∧ record.blockhash = block.hash) := by
  have hhashes : ∀ txhash ∈ leftOutHashes (getTxHashToSkip (some record)) c block,
      record.txhash = some txhash ∧ record.hasConsensus = true := fun txhash h ↦ mem_leftOutHashes h
  generalize leftOutHashes (getTxHashToSkip (some record)) c block = hashes at hhashes
  generalize hcalls : skipCalls c (getTxHashToSkip (some record)) block = calls
  constructor
  · rintro ⟨hrows, hjustified⟩
    refine ⟨by simpa using congrArg length hrows, fun hne ↦ ?_⟩
    obtain ⟨txhash, htxhash⟩ := exists_mem_of_ne_nil hashes hne
    have hl := hjustified _ (.inr (mem_map_of_mem htxhash))
    exact ⟨hl.1, hl.2.1⟩
  · rintro ⟨hcount, hblock⟩
    constructor
    · symm
      refine eq_replicate_iff.mpr ⟨by simp [hcount], fun row hrow ↦ ?_⟩
      simp only [map_map, mem_map, Function.comp_apply] at hrow
      obtain ⟨txhash, htxhash, rfl⟩ := hrow
      obtain ⟨hnumber, hhash⟩ := hblock (ne_nil_of_mem htxhash)
      rw [LeftOut.row, hnumber, hhash, (hhashes txhash htxhash).1]
    · rintro l (hl | hl)
      · exact hleftOut l hl
      · obtain ⟨txhash, htxhash, rfl⟩ := mem_map.mp hl
        obtain ⟨hnumber, hhash⟩ := hblock (ne_nil_of_mem htxhash)
        obtain ⟨hsame, hconsensus⟩ := hhashes txhash htxhash
        have hpos := length_pos_of_mem htxhash
        refine ⟨hnumber, hhash, hsame, hconsensus, ?_⟩
        show rowsBefore < maxNetworkLevelSkippedTx
        rw [← hcount] at hpos
        unfold addedRows at hpos
        split at hpos <;> omega

end Rows

/-- One pass keeps the skips sound just when they match. -/
theorem skipsSound_attempt_iff (e : SkipEvent) (hsound : s.SkipsSound) :
    (attempt skipStep s e).SkipsSound ↔ SkipsMatch s e := by
  cases e with
  | reverts revertBlocksList =>
    refine iff_of_true ?_ trivial
    rcases attempt_cases skipStep s (.reverts revertBlocksList) with hsame | hok
    · rw [hsame]
      exact hsound
    · obtain ⟨blocks, -, hstate⟩ := bind_eq_ok.mp hok
      rw [← pure_eq_ok.mp hstate]
      exact hsound
  | passes c countAnswers block =>
    by_cases hcommits : Commits (s.flushing c countAnswers block) s.indexer block
    · have hblocks : (indexBlock (s.flushing c countAnswers block) s.indexer block).1.blocks ≠
          s.indexer.blocks := fun heq ↦ (indexBlock_blocks_eq_iff ..).mp heq hcommits
      have hstep : attempt skipStep s (.passes c countAnswers block) = {
          indexer := (indexBlock (s.flushing c countAnswers block) s.indexer block).1
          skippedTransactions := skipRows c countAnswers s.skippedTransactions s.indexer block
          leftOut := s.leftOut ++ s.leavesOut c block } := by
        apply attempt_of_ok
        simp only [skipStep, if_neg hblocks]
      rw [hstep]
      simp only [SkippingIndexer.SkipsSound, SkipsMatch, hcommits, true_imp_iff,
        SkippingIndexer.leavesOut, skipRows]
      cases hrecord : s.indexer.indexingError with
      | none =>
        have hsave : (fun rows ↦ saveSkippedTx countAnswers rows none) = id := rfl
        refine iff_of_true ?_ (by simp)
        rw [hsave, Function.iterate_id, append_nil]
        exact hsound
      | some record =>
        rw [saveSkippedTx_iterate, map_append, ← hsound.1, append_cancel_left_eq]
        simp only [mem_append, Option.mem_some_iff, forall_eq']
        exact added_iff hsound.2
    · refine iff_of_true ?_ (fun h ↦ absurd h hcommits)
      have hstep : attempt skipStep s (.passes c countAnswers block) = { s with
          indexer := (indexBlock (s.flushing c countAnswers block) s.indexer block).1 } := by
        apply attempt_of_ok
        simp only [skipStep, if_pos (indexBlock_blocks_of_not_commits hcommits)]
      rw [hstep]
      exact hsound

/-- In every state of a run of passes and reverts the network-level rows are those of what was left
out because its own failure had been confirmed, with room for it, just when each pass that commits
while a failure is recorded adds as many rows as it leaves something out because of the record, and
leaves out only what the record is of. -/
theorem skipsSound_iff (blocks : List Block) (record : Option IndexingErrorRecord)
    (events : List SkipEvent) :
    (∀ done, done <+: events →
      (replay skipStep (SkippingIndexer.start blocks record) done).SkipsSound) ↔
      Along skipStep SkipsMatch (SkippingIndexer.start blocks record) events := by
  apply prefixes_iff_along (W := fun _ ↦ True) (fun _ _ _ _ _ ↦ trivial)
  · exact fun s e _ hsound ↦ skipsSound_attempt_iff s e hsound
  · trivial
  · exact ⟨rfl, fun _ hl ↦ nomatch hl⟩

/-- The failure of a transaction has been confirmed in a block that a reorganisation then drops; the
block in its place has a transaction to no account, and is committed with a row for the other. -/
theorem creation_saved_as_skipped :
    ¬ (replay skipStep (SkippingIndexer.start [⟨"0xb0", "0x0", some 0, true⟩]
        (some ⟨2, 1, "0xb1", some "0xt1", "invalid literal", true⟩))
      [.passes (profileUpdate (.ok ())) true
        ⟨"0xc1", "0xb0", 1, [⟨"0xt2", none, 0⟩]⟩]).SkipsSound := by
  rintro ⟨hrows, -⟩
  revert hrows
  decide +kernel

end ColivingSpec.Discovery
