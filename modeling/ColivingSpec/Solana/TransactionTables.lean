import ColivingSpec.Lib.Replay
import ColivingSpec.Solana.History

/-!
# The tables of reward manager and user bank transactions

The two indexers walk back from the newest transaction of their program to one that their table
holds, keep the oldest batches of what they have met, and commit them from the oldest on. Each run
may stop after any commit. What is parsed from a transaction and the caches of the last one are not
kept, no run reads them.
-/

namespace ColivingSpec.Solana

open Lib List

/-- The two tasks with a table of the transactions they have processed. -/
inductive TableTask where
  | rewardsManager
  | userBank
  deriving DecidableEq, Repr

/-- `index_rewards_manager.py:329–345`: while nothing is recorded, all slots are valid. -/
def getLatestRewardDisbursmentSlot (table : List Tx) : ℕ := highestSlot 0 (table.map Tx.slot)

/-- `index_user_bank.py:84–89`. -/
def getHighestUserBankTxSlot (minSlot : ℕ) (table : List Tx) : ℕ :=
  highestSlot minSlot (table.map Tx.slot)

variable (task : TableTask)

variable (minSlot : ℕ)

/-- The slot a run starts from. -/
def latestProcessedSlot (table : List Tx) : ℕ :=
  match task with
  | .rewardsManager => getLatestRewardDisbursmentSlot table
  | .userBank => getHighestUserBankTxSlot minSlot table

/-- `index_rewards_manager.py:348–356`, `index_user_bank.py:99–106`. -/
def getTxInDb (table : List Tx) (txSig : Signature) : Bool :=
  txSig ∈ table.map Tx.signature

/-- `index_rewards_manager.py:396–437`, `index_user_bank.py:437–480`: a page becomes a batch,
unless nothing of it is taken. -/
def addBatch (latestProcessedSlot minSlot : ℕ) (table : List Tx) (batches : List (List Tx))
    (page : List Tx) : List (List Tx) × Bool :=
  let (batch, intersectionFound) :=
    readPage latestProcessedSlot (some minSlot) (getTxInDb table) page
  (resize (if batch = [] then batches else batches ++ [batch]), intersectionFound)

/-- `index_rewards_manager.py:359–441`, `index_user_bank.py:406–486`: the batches to process, oldest
first, unless a request fails. -/
def getTransactionSignatures (history : History) (table : List Tx) (answers : ℕ) :
    Option (List (List Tx)) :=
  let walk := overHistory history
    (addBatch (latestProcessedSlot task minSlot table) minSlot table) answers none []
  if walk.2 then some walk.1.reverse else none

/-- The history of the program, the table, and what a run has yet to process. -/
structure TableIndexer where
  history : History
  table : List Tx
  transactionSignatures : List (List Tx)

/-- What happens to the program and to the indexer. -/
inductive TableEvent where
  /-- A transaction of the program is finalized. -/
  | finalizes (tx : Tx)
  /-- A run starts, after whatever the last one left, and this many requests are answered. -/
  | starts (answers : ℕ)
  /-- The run parses its next batch and commits it. -/
  | commits
  deriving Repr

/-- One event (`index_rewards_manager.py:444–537`, `index_user_bank.py:391–525`). -/
def tableStep (s : TableIndexer) :
    TableEvent → Except String TableIndexer
  | .finalizes tx =>
    if h : s.history.Accepts tx then .ok { s with history := s.history.add tx h }
    else .error "not the next transaction"
  | .starts answers =>
    .ok { s with
      transactionSignatures :=
        (getTransactionSignatures task minSlot s.history s.table answers).getD [] }
  | .commits =>
    match s.transactionSignatures with
    | [] => .error "nothing to process"
    | batch :: batches => do
      require ((s.table ++ batch).map Tx.signature).Nodup "UniqueViolation"
      return { s with table := s.table ++ batch, transactionSignatures := batches }

/-- A program with any history, and an indexer that has not run. -/
def TableIndexer.start (history : History) : TableIndexer where
  history := history
  table := []
  transactionSignatures := []

section Walk

variable {task : TableTask} {minSlot : ℕ} {history : History} {table : List Tx}

theorem slot_le_latest {tx : Tx} (h : tx ∈ table) :
    tx.slot ≤ latestProcessedSlot task minSlot table := by
  cases task with
  | rewardsManager => exact slot_le_highestSlot 0 (mem_map_of_mem h)
  | userBank => exact slot_le_highestSlot minSlot (mem_map_of_mem h)

/-- The user bank never goes below its minimum. -/
theorem minSlot_le_userBank (h : ∀ tx ∈ table, minSlot < tx.slot) :
    minSlot ≤ latestProcessedSlot .userBank minSlot table := by
  cases table with
  | nil => exact Nat.le_refl minSlot
  | cons tx table =>
    have htx := h tx mem_cons_self
    exact Nat.le_trans (Nat.le_of_lt htx) (slot_le_latest mem_cons_self)

/-- The batches of a walk are the end of what lies above the first known transaction. -/
theorem getTransactionSignatures_suffix {answers : ℕ} {batches : List (List Tx)}
    (h : getTransactionSignatures task minSlot history table answers = some batches) :
    batches.reverse.flatten <:+
      (history.txs.takeWhile fun tx ↦ !isIntersection (latestProcessedSlot task minSlot table)
        (some minSlot) (getTxInDb table) tx).filter
          (isTaken (latestProcessedSlot task minSlot table) (some minSlot)) := by
  simp only [getTransactionSignatures] at h
  split at h
  case isFalse => cases h
  case isTrue hended =>
    cases h
    rw [reverse_reverse]
    refine overHistory_collects (fun a b ↦ a <:+ b) flatten _ _ (fun _ ↦ suffix_rfl)
      (fun _ _ _ h h' ↦ h.trans h') suffix_append_right ?_ ?_ hended
    · intro batches page
      simp only [addBatch, readPage_eq]
    · intro batches page
      simp only [addBatch, readPage_eq]
      refine (flatten_suffix (resize_suffix _)).trans ?_
      split
      case isTrue hnil => exact ⟨[], by rw [hnil, append_nil, nil_append]⟩
      case isFalse => simp

end Walk

/-- What the tables hold: transactions of the program, once each; of those above the minimum all
from the oldest up to some point, and what the run has yet to process comes next. -/
structure TableIndexer.Consistent (task : TableTask) (minSlot : ℕ) (s : TableIndexer) : Prop where
  inHistory : ∀ tx ∈ s.table, tx ∈ s.history.txs
  distinct : (s.table.map Tx.signature).Nodup
  pending : ∀ tx ∈ s.transactionSignatures.flatten, tx ∈ s.history.txs
  oldest : ∃ newer older, s.history.txs.filter (aboveMinimum (some minSlot)) =
      newer ++ s.transactionSignatures.reverse.flatten.filter (aboveMinimum (some minSlot))
        ++ older ∧ (s.table.filter (aboveMinimum (some minSlot))).Perm older
  minimum : task = .userBank →
    (∀ tx ∈ s.table, minSlot < tx.slot) ∧
      ∀ tx ∈ s.transactionSignatures.flatten, minSlot < tx.slot

namespace TableIndexer.Consistent

variable {task : TableTask} {minSlot : ℕ} {s : TableIndexer}

theorem start (history : History) : (TableIndexer.start history).Consistent task minSlot where
  inHistory := by simp [TableIndexer.start]
  distinct := by simp [TableIndexer.start]
  pending := by simp [TableIndexer.start]
  oldest := ⟨history.txs.filter (aboveMinimum (some minSlot)), [], by simp [TableIndexer.start]⟩
  minimum := by simp [TableIndexer.start]

theorem finalizes (h : s.Consistent task minSlot) (tx : Tx) (htx : s.history.Accepts tx) :
    { s with history := s.history.add tx htx : TableIndexer }.Consistent task minSlot where
  inHistory row hrow := mem_cons_of_mem tx (h.inHistory row hrow)
  distinct := h.distinct
  pending row hrow := mem_cons_of_mem tx (h.pending row hrow)
  oldest := by
    obtain ⟨newer, older, hhistory, holder⟩ := h.oldest
    refine ⟨[tx].filter (aboveMinimum (some minSlot)) ++ newer, older, ?_, holder⟩
    rw [History.add_txs, ← singleton_append, filter_append, hhistory]
    simp only [append_assoc]
  minimum := h.minimum

/-- A run may start anywhere: it takes up what lies above the table. -/
theorem starts (h : s.Consistent task minSlot) (answers : ℕ) :
    { s with
      transactionSignatures :=
        (getTransactionSignatures task minSlot s.history s.table answers).getD [] :
          TableIndexer }.Consistent task minSlot := by
  obtain ⟨newer, older, hhistory, holder⟩ := h.oldest
  have hsplit : s.history.txs.filter (aboveMinimum (some minSlot)) =
      (newer ++ s.transactionSignatures.reverse.flatten.filter (aboveMinimum (some minSlot)))
        ++ older := hhistory
  generalize hunread : newer ++ s.transactionSignatures.reverse.flatten.filter
    (aboveMinimum (some minSlot)) = unread at hsplit
  cases hbatches : getTransactionSignatures task minSlot s.history s.table answers with
  | none => exact ⟨h.inHistory, h.distinct, by simp, ⟨unread, older, by simpa using hsplit, holder⟩,
      fun htask ↦ ⟨(h.minimum htask).1, by simp⟩⟩
  | some batches =>
    have hsuffix := getTransactionSignatures_suffix hbatches
    have hmem : ∀ tx ∈ batches.flatten, tx ∈ s.history.txs ∧
        isTaken (latestProcessedSlot task minSlot s.table) (some minSlot) tx = true := by
      intro tx htx
      have htx' : tx ∈ batches.reverse.flatten := by simpa using htx
      obtain ⟨htake, htaken⟩ := mem_filter.mp (hsuffix.subset htx')
      exact ⟨( takeWhile_prefix _).subset htake, htaken⟩
    -- above the minimum, the walk stops at the transactions of the table
    have hread : (s.history.txs.takeWhile fun tx ↦
        !isIntersection (latestProcessedSlot task minSlot s.table) (some minSlot)
          (getTxInDb s.table) tx).filter (aboveMinimum (some minSlot)) = unread := by
      apply filter_unread s.history (fun _ htx ↦ htx)
      · exact fun row hrow ↦ ⟨h.inHistory row hrow, slot_le_latest hrow⟩
      · exact fun _ _ hmin ↦ hmin
      · exact hsplit
      · intro tx htx hrow
        have hcounted : tx ∈ s.history.txs.filter (aboveMinimum (some minSlot)) :=
          hsplit ▸ mem_append_left _ htx
        have hold := holder.mem_iff.mp
          (mem_filter.mpr ⟨hrow, (mem_filter.mp hcounted).2⟩)
        have hnodup := hsplit ▸ s.history.nodup.filter _
        exact (nodup_append.mp hnodup).2.2 tx htx tx hold rfl
      · exact fun tx htx ↦ mem_filter.mp (holder.mem_iff.mpr htx)
    refine ⟨h.inHistory, h.distinct, fun tx htx ↦ (hmem tx htx).1, ?_, fun htask ↦ ?_⟩
    · obtain ⟨front, hfront⟩ := hsuffix
      have hcount := congrArg (filter (aboveMinimum (some minSlot))) hfront
      rw [filter_append, filter_filter] at hcount
      have htaken : (fun tx ↦ aboveMinimum (some minSlot) tx &&
          isTaken (latestProcessedSlot task minSlot s.table) (some minSlot) tx)
            = aboveMinimum (some minSlot) := by
        funext tx
        cases hmin : aboveMinimum (some minSlot) tx <;> simp [isTaken, hmin]
      rw [htaken, hread] at hcount
      exact ⟨front.filter (aboveMinimum (some minSlot)), older, by rw [hsplit, ← hcount]; rfl,
        holder⟩
    · subst htask
      refine ⟨(h.minimum rfl).1, fun tx htx ↦ ?_⟩
      have hmin := minSlot_le_userBank (h.minimum rfl).1
      have htaken := (hmem tx htx).2
      simp only [isTaken, aboveMinimum, Option.all_some, Bool.or_eq_true,
        decide_eq_true_eq] at htaken
      omega

theorem commits (h : s.Consistent task minSlot) {batch : List Tx} {batches : List (List Tx)}
    (hbatches : s.transactionSignatures = batch :: batches)
    (hnodup : ((s.table ++ batch).map Tx.signature).Nodup) :
    { s with table := s.table ++ batch, transactionSignatures := batches :
      TableIndexer }.Consistent task minSlot := by
  have hpending := h.pending
  have hminimum := h.minimum
  obtain ⟨newer, older, hhistory, holder⟩ := h.oldest
  simp only [hbatches, flatten_cons, mem_append] at hpending hminimum
  refine ⟨?_, hnodup, fun tx htx ↦ hpending tx (.inr htx), ?_, fun htask ↦ ⟨?_, fun tx htx ↦
    (hminimum htask).2 tx (.inr htx)⟩⟩
  · intro tx htx
    rcases mem_append.mp htx with htx | htx
    · exact h.inHistory tx htx
    · exact hpending tx (.inl htx)
  · refine ⟨newer, batch.filter (aboveMinimum (some minSlot)) ++ older, ?_, ?_⟩
    · simpa [hbatches] using hhistory
    · rw [filter_append]
      exact perm_append_comm.trans (holder.append_left _)
  · intro tx htx
    rcases mem_append.mp htx with htx | htx
    · exact (hminimum htask).1 tx htx
    · exact (hminimum htask).2 tx (.inl htx)

theorem step {s' : TableIndexer} {e : TableEvent} (h : s.Consistent task minSlot)
    (hstep : tableStep task minSlot s e = .ok s') : s'.Consistent task minSlot := by
  cases e with
  | finalizes tx =>
    simp only [tableStep] at hstep
    split at hstep
    case isTrue htx =>
      cases hstep
      exact h.finalizes tx htx
    case isFalse => cases hstep
  | starts answers =>
    cases hstep
    exact h.starts answers
  | commits =>
    simp only [tableStep] at hstep
    split at hstep
    case h_1 => cases hstep
    case h_2 batch batches hbatches =>
      obtain ⟨hnodup, hs'⟩ := require_bind_eq_ok.mp hstep
      cases hs'
      exact h.commits hbatches hnodup

end TableIndexer.Consistent

/-- The table holds, once each, just the transactions above the minimum from the oldest up to some
point of the chain. -/
def RecordsOldest (history : History) (table : List Tx) : Prop :=
  (table.map Tx.signature).Nodup ∧ ∃ newer older, history.txs = newer ++ older ∧
    ∀ tx, tx ∈ table ↔ tx ∈ older ∧ minSlot < tx.slot

/-- The indexer after a run of events. -/
def tableIndexer (history : History) (events : List TableEvent) : TableIndexer :=
  replay (tableStep task minSlot) (TableIndexer.start history) events

/-- In every run, of whatever starts, failures and finalized transactions, the rows above the
minimum are those of the oldest part of the chain, once each; the user bank has no other rows, and
those that the rewards manager may have besides are transactions of its program, once each. -/
theorem recordsOldest_above_minimum (task : TableTask) (minSlot : ℕ) (history : History)
    (events : List TableEvent) :
    let s := tableIndexer task minSlot history events
    RecordsOldest minSlot s.history (s.table.filter fun tx ↦ minSlot < tx.slot) ∧
      (s.table.map Tx.signature).Nodup ∧ (∀ tx ∈ s.table, tx ∈ s.history.txs) ∧
      (task = .userBank → RecordsOldest minSlot s.history s.table) := by
  intro s
  have h : s.Consistent task minSlot :=
    replay_invariant' (TableIndexer.Consistent task minSlot)
      (fun _ _ _ hs hstep ↦ hs.step hstep) events (TableIndexer.Consistent.start history)
  obtain ⟨newer, older, hhistory, holder⟩ := h.oldest
  obtain ⟨later, earlier, htxs, -, hearlier⟩ := List.filter_eq_append_iff.mp hhistory
  have hrows : ∀ tx, tx ∈ s.table ∧ minSlot < tx.slot ↔ tx ∈ earlier ∧ minSlot < tx.slot := by
    intro tx
    have hmem := holder.mem_iff (a := tx)
    rw [← hearlier] at hmem
    simpa [aboveMinimum] using hmem
  have habove : RecordsOldest minSlot s.history (s.table.filter fun tx ↦ minSlot < tx.slot) := by
    refine ⟨?_, later, earlier, htxs, fun tx ↦ ?_⟩
    · exact h.distinct.sublist (List.filter_sublist.map Tx.signature)
    · simpa using hrows tx
  refine ⟨habove, h.distinct, h.inHistory, fun htask ↦ ?_⟩
  have hall : s.table.filter (fun tx ↦ minSlot < tx.slot) = s.table :=
    List.filter_eq_self.mpr fun tx htx ↦ by simpa using (h.minimum htask).1 tx htx
  rwa [hall] at habove

/-- An empty rewards manager table takes a transaction that is not above the minimum. -/
theorem rewardsManager_below_minimum :
    ¬ RecordsOldest 10 ⟨[⟨"tx", 5⟩], by decide, by decide⟩
      (tableIndexer .rewardsManager 10 ⟨[⟨"tx", 5⟩], by decide, by decide⟩
        [.starts 2, .commits]).table := by
  have hrow : (⟨"tx", 5⟩ : Tx) ∈ (tableIndexer .rewardsManager 10
      ⟨[⟨"tx", 5⟩], by decide, by decide⟩ [.starts 2, .commits]).table := by
    decide +kernel
  rintro ⟨-, newer, older, -, hrows⟩
  have hslot : 10 < 5 := ((hrows _).mp hrow).2
  omega

end ColivingSpec.Solana
