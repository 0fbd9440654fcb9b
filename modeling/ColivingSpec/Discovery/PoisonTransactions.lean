import ColivingSpec.Discovery.ChallengeEvents

/-!
# A transaction that a handler cannot process

A handler raises an `IndexingError` that names its transaction. `index_blocks` catches it with all
other exceptions of the pass and records a failure of the block without a transaction, so that no
later pass leaves the transaction out.
-/

namespace ColivingSpec.Discovery

open Lib

/-- `indexing_errors.py:1–19`. -/
structure IndexingError where
  type : String
  blocknumber : ℕ
  blockhash : BlockHash
  txhash : Option TxHash
  message : String
  deriving DecidableEq, Repr

/-- The pass, when the handlers raise these errors; the pass reads no more of them than what `str`
gives, their message. -/
def Circumstances.raising (c : Circumstances)
    (raises : TxType → List Transaction → Option IndexingError) : Circumstances :=
  { c with
    handlers := fun txType txs ↦
      { c.handlers txType txs with raised := (raises txType txs).map IndexingError.message } }

/-- What the record is to be once the other nodes have confirmed the failure, and what each later
pass over the block is then to do: the record has the hash of the transaction, and the transaction
is not among those handed to the handler of its contract. -/
def SkippedAlone (failed : Indexer) (block : ChainBlock) (addresses : TxType → ChainAddress)
    (txType : TxType) (tx : Transaction) : Prop :=
  (∃ record ∈ failed.indexingError, record.hasConsensus = true ∧ record.txhash = some tx.hash) ∧
    ∀ c : Circumstances,
      tx ∉ txsGroupedByType c addresses (getTxHashToSkip failed.indexingError) block txType

section Failure

variable {c : Circumstances} {indexer : Indexer} {block : ChainBlock}
  {addresses : TxType → ChainAddress} {txType : TxType} {tx : Transaction}
  {skipTxHash : Option TxHash}

/-- What a handler is handed is a transaction of the block to its contract. -/
theorem mem_txsGroupedByType :
    tx ∈ txsGroupedByType c addresses skipTxHash block txType ↔ tx ∈ block.transactions ∧
      shouldSkipTx skipTxHash tx = false ∧ getContractTypeForTx addresses tx = some txType := by
  have hsorted : tx ∈ sortBlockTransactions c.sortOrderStartBlock block ↔
      tx ∈ block.transactions := by
    unfold sortBlockTransactions
    split <;> exact List.mem_insertionSort _
  simp [txsGroupedByType, hsorted]

/-- Without a hash to skip, only transactions to no account are skipped. -/
theorem mem_txsGroupedByType_none {c' : Circumstances}
    (h : tx ∈ txsGroupedByType c addresses skipTxHash block txType) :
    tx ∈ txsGroupedByType c' addresses none block txType := by
  rw [mem_txsGroupedByType] at h ⊢
  obtain ⟨hblock, hskip, htype⟩ := h
  refine ⟨hblock, ?_, htype⟩
  simp only [shouldSkipTx, decide_eq_false_iff_not, not_or] at hskip ⊢
  exact ⟨hskip.1, by simp⟩

variable (indexer) in
/-- A handler that raises fails the pass. -/
theorem addStateChanges_of_raised {handling : Handling}
    (hmem : handling ∈ handlings c addresses skipTxHash block) (hraised : handling.raised ≠ none) :
    ∃ bus message, addStateChanges c addresses skipTxHash indexer block = (bus, .error message) := by
  cases hchanges : addStateChanges c addresses skipTxHash indexer block with
  | mk bus outcome =>
    cases outcome with
    | error message => exact ⟨bus, message, rfl⟩
    | ok blocks =>
      have hok := (addStateChanges_eq_ok c addresses skipTxHash indexer block blocks).mp
        (by rw [hchanges])
      exact absurd (hok.2.2.2 handling hmem) hraised

/-- A record that is set is of the failure it is set for. -/
theorem setIndexingError_keys (record : Option IndexingErrorRecord) (txhash : Option TxHash)
    (message : String) (confirmed : Bool) :
    (setIndexingError record block txhash message confirmed).hasConsensus = confirmed ∧
      (setIndexingError record block txhash message confirmed).txhash = txhash := by
  unfold setIndexingError
  split
  · split
    case isTrue hsame => exact ⟨rfl, hsame.2.2⟩
    case isFalse => exact ⟨rfl, rfl⟩
  · exact ⟨rfl, rfl⟩

/-- The failure of a block without a transaction, once it is confirmed. -/
theorem createAndRaiseIndexingError_confirmed (indexer : Indexer) (block : ChainBlock)
    (bus : ChallengeEventBus) (message : String) (hconsensus : c.consensus = .ok true) :
    ∃ record, (createAndRaiseIndexingError c indexer bus block none message).1.indexingError
        = some record ∧ record.txhash = none := by
  refine ⟨setIndexingError (some (setIndexingError indexer.indexingError block none message false))
    block none message true, ?_, (setIndexingError_keys ..).2⟩
  simp only [createAndRaiseIndexingError, hconsensus, if_true]

/-- A failure of a block without a transaction leaves a record without one, or the old record. -/
theorem createAndRaiseIndexingError_txhash {bus : ChallengeEventBus} {message : String}
    (hrecord : ∀ record ∈ indexer.indexingError, record.txhash = none) :
    ∀ record ∈ (createAndRaiseIndexingError c indexer bus block none message).1.indexingError,
      record.txhash = none := by
  unfold createAndRaiseIndexingError
  split
  · exact hrecord
  · intro record hmem
    simp only [Option.mem_some_iff] at hmem
    subst hmem
    split <;> exact (setIndexingError_keys ..).2

/-- The pass hands the transaction to a handler that raises whenever it is handed it. -/
def MeetsPoison (addresses : TxType → ChainAddress) (txType : TxType) (tx : Transaction)
    (c : Circumstances) : Prop :=
  (∀ addresses', c.contractAddresses = .ok addresses' → addresses' = addresses) ∧
    ∀ txs, tx ∈ txs → (c.handlers txType txs).raised ≠ none

/-- One more pass over the block: it fails, and the record still has no transaction. -/
theorem indexBlock_of_meetsPoison (hpoison : MeetsPoison addresses txType tx c)
    (htx : tx ∈ txsGroupedByType c addresses none block txType)
    (hrecord : ∀ record ∈ indexer.indexingError, record.txhash = none) :
    (indexBlock c indexer block).1.blocks = indexer.blocks ∧
      ∀ record ∈ (indexBlock c indexer block).1.indexingError, record.txhash = none := by
  have hskip : getTxHashToSkip indexer.indexingError = none := by
    unfold getTxHashToSkip
    split
    · next record heq =>
      rw [hrecord record heq, ite_self]
    · rfl
  unfold indexBlock
  cases haddresses : c.contractAddresses with
  | error message => exact ⟨rfl, hrecord⟩
  | ok addresses' =>
    cases hreads : c.redisReads with
    | error message => exact ⟨rfl, hrecord⟩
    | ok u =>
      cases hpoison.1 addresses' haddresses
      have hmem : c.handlers txType (txsGroupedByType c addresses none block txType) ∈
          handlings c addresses none block :=
        List.mem_map_of_mem (by cases txType <;> decide)
      obtain ⟨bus, message, hchanges⟩ := addStateChanges_of_raised indexer hmem
        (hpoison.2 _ htx)
      simp only [hskip, reduceCtorEq, if_false, hchanges]
      exact ⟨createAndRaiseIndexingError_blocks .., createAndRaiseIndexingError_txhash hrecord⟩

/-- Passes over the block, one after another. -/
def repeatBlock (block : ChainBlock) (indexer : Indexer) (passes : List Circumstances) : Indexer :=
  passes.foldl (fun indexer c ↦ (indexBlock c indexer block).1) indexer

/-- The block is never committed while its handler raises. -/
theorem repeatBlock_blocks {passes : List Circumstances}
    (hpoison : ∀ c ∈ passes, MeetsPoison addresses txType tx c)
    (htx : ∀ c : Circumstances, tx ∈ txsGroupedByType c addresses none block txType)
    (hrecord : ∀ record ∈ indexer.indexingError, record.txhash = none) :
    (repeatBlock block indexer passes).blocks = indexer.blocks := by
  induction passes generalizing indexer with
  | nil => rfl
  | cons c passes ih =>
    obtain ⟨hblocks, hnext⟩ :=
      indexBlock_of_meetsPoison (hpoison c List.mem_cons_self) (htx c) hrecord
    have hrest := ih (fun c hc ↦ hpoison c (List.mem_cons_of_mem _ hc)) hnext
    exact hrest.trans hblocks

end Failure

/-- Whenever a handler raises an error that names a transaction it was handed, and the other nodes
confirm the failure, the record has no transaction; so the transaction is not skipped, each later
pass over the block hands it to its handler again, and the block is not committed as long as that
handler raises. -/
theorem poison_never_skipped (c : Circumstances)
    (raises : TxType → List Transaction → Option IndexingError) (indexer : Indexer)
    (block : ChainBlock) (addresses : TxType → ChainAddress) (txType : TxType) (tx : Transaction)
    (error : IndexingError) (haddresses : c.contractAddresses = .ok addresses)
    (hreads : c.redisReads = .ok ()) (hcommit : getTxHashToSkip indexer.indexingError ≠ some "commit")
    (htx : tx ∈ txsGroupedByType c addresses (getTxHashToSkip indexer.indexingError) block txType)
    (hraised : raises txType (txsGroupedByType c addresses
      (getTxHashToSkip indexer.indexingError) block txType) = some error)
    (hnamed : error.txhash = some tx.hash) (hconsensus : c.consensus = .ok true) :
    let failed := (indexBlock (c.raising raises) indexer block).1
    ¬ SkippedAlone failed block addresses txType tx ∧
      (∀ record ∈ failed.indexingError, record.txhash ≠ error.txhash) ∧
      (∀ next : Circumstances,
        tx ∈ txsGroupedByType next addresses (getTxHashToSkip failed.indexingError) block txType) ∧
      ∀ passes : List Circumstances, (∀ next ∈ passes, MeetsPoison addresses txType tx next) →
        (repeatBlock block failed passes).blocks = indexer.blocks := by
  intro failed
  have hmem : { c.handlers txType (txsGroupedByType c addresses
      (getTxHashToSkip indexer.indexingError) block txType) with
        raised := some error.message } ∈
      handlings (c.raising raises) addresses (getTxHashToSkip indexer.indexingError) block := by
    refine List.mem_map.mpr ⟨txType, by cases txType <;> decide, ?_⟩
    change { c.handlers txType _ with raised := (raises txType (txsGroupedByType c addresses
      (getTxHashToSkip indexer.indexingError) block txType)).map IndexingError.message } = _
    rw [hraised]
    rfl
  obtain ⟨bus, message, hchanges⟩ := addStateChanges_of_raised indexer hmem (by simp)
  have hfailed : failed =
      (createAndRaiseIndexingError (c.raising raises) indexer bus block none message).1 := by
    have hpass : (c.raising raises).contractAddresses = .ok addresses ∧
        (c.raising raises).redisReads = .ok () := ⟨haddresses, hreads⟩
    simp only [failed, indexBlock, hpass.1, hpass.2, if_neg hcommit, hchanges]
  obtain ⟨record, hrecord, hnone⟩ :=
    createAndRaiseIndexingError_confirmed indexer block bus message
      (c := c.raising raises) hconsensus
  rw [← hfailed] at hrecord
  have hskip : getTxHashToSkip failed.indexingError = none := by
    rw [hrecord, getTxHashToSkip, hnone, ite_self]
  have hagain : ∀ next : Circumstances, tx ∈ txsGroupedByType next addresses none block txType :=
    fun next ↦ mem_txsGroupedByType_none htx
  have hall : ∀ record' ∈ failed.indexingError, record'.txhash = none := by
    intro record' hmem'
    rw [hrecord] at hmem'
    cases hmem'
    exact hnone
  refine ⟨fun hskipped ↦ ?_, fun record' hmem' ↦ ?_, fun next ↦ hskip ▸ hagain next, fun passes
    hpoison ↦ ?_⟩
  · exact hskipped.2 c (hskip ▸ hagain c)
  · rw [hall record' hmem', hnamed]
    simp
  · have hblocks : failed.blocks = indexer.blocks :=
      hfailed ▸ createAndRaiseIndexingError_blocks ..
    rw [repeatBlock_blocks hpoison hagain hall, hblocks]

/-- The user handler raises for any transaction. -/
def failingHandler (txType : TxType) (txs : List Transaction) : Option IndexingError :=
  if txType = .userFactory ∧ txs ≠ [] then
    some ⟨"user", 1, "0xb1", some "0xt1", "invalid literal"⟩
  else none

/-- A pass with that handler, as on all other nodes. -/
def failingUpdate : Circumstances :=
  ({ profileUpdate (.ok ()) with consensus := .ok true } : Circumstances).raising failingHandler

/-- The block of the failing transaction is not committed in three passes. -/
theorem failingUpdate_not_committed :
    (repeatBlock oneUserUpdate
      (indexBlock failingUpdate ⟨[⟨"0xb0", "0x0", some 0, true⟩], ⟨[], []⟩, none⟩ oneUserUpdate).1
      [failingUpdate, failingUpdate]).blocks = [⟨"0xb0", "0x0", some 0, true⟩] := by
  have htx : (⟨"0xt1", some "0xf1", 0⟩ : Transaction) ∈ txsGroupedByType
      { profileUpdate (.ok ()) with consensus := .ok true }
      (fun txType ↦ if txType = TxType.userFactory then "0xf1" else "0xf2")
      (getTxHashToSkip none) oneUserUpdate .userFactory := by
    decide +kernel
  refine (poison_never_skipped _ failingHandler ⟨[⟨"0xb0", "0x0", some 0, true⟩], ⟨[], []⟩, none⟩ oneUserUpdate
    _ .userFactory _ ⟨"user", 1, "0xb1", some "0xt1", "invalid literal"⟩ rfl rfl (by decide) htx
    (if_pos ⟨rfl, List.ne_nil_of_mem htx⟩) rfl rfl).2.2.2 [failingUpdate, failingUpdate] ?_
  have hmeets : MeetsPoison (fun txType ↦ if txType = TxType.userFactory then "0xf1" else "0xf2")
      .userFactory ⟨"0xt1", some "0xf1", 0⟩ failingUpdate := by
    refine ⟨fun addresses' h ↦ (Except.ok.inj h).symm, fun txs hmem ↦ ?_⟩
    change (failingHandler .userFactory txs).map IndexingError.message ≠ none
    rw [failingHandler, if_pos ⟨rfl, List.ne_nil_of_mem hmem⟩]
    simp
  simp [hmeets]

/-- The record of the failing transaction does not name it. -/
theorem failingUpdate_not_skipped :
    ¬ SkippedAlone
      (indexBlock failingUpdate ⟨[⟨"0xb0", "0x0", some 0, true⟩], ⟨[], []⟩, none⟩ oneUserUpdate).1
      oneUserUpdate (fun txType ↦ if txType = TxType.userFactory then "0xf1" else "0xf2") .userFactory
      ⟨"0xt1", some "0xf1", 0⟩ := by
  rintro ⟨⟨record, hrecord, -, hhash⟩, -⟩
  have hset : (indexBlock failingUpdate ⟨[⟨"0xb0", "0x0", some 0, true⟩], ⟨[], []⟩, none⟩
      oneUserUpdate).1.indexingError = some ⟨2, 1, "0xb1", none, "invalid literal", true⟩ := by
    decide +kernel
  cases hrecord
  cases hhash

end ColivingSpec.Discovery
