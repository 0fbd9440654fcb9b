import ColivingSpec.Lib.Chunks
import ColivingSpec.Lib.Replay
import ColivingSpec.Solana.History

/-!
# The spl-token indexer

A run walks back from the newest transaction of the token mint, or from a cached one, to the slot
that was scanned last, and scans what it has met in slices, from the oldest page on. Each slice
stores the slot of its newest transaction as the one scanned last. The users whose balances are
refreshed are not kept, no run reads them.
-/

namespace ColivingSpec.Solana

open Lib

/-- `index_spl_token.py:354–384`: a page becomes a batch, unless nothing of it is above the latest
slot. Without a latest slot the first page is the only one. -/
def addSplTokenPage (latestProcessedSlot : Option ℕ) (walk : Walk) (page : List Tx) :
    Walk × Bool :=
  let (batch, intersectionFound) :=
    match latestProcessedSlot with
    | none => (page, true)
    | some slot => readPage slot none (fun _ ↦ true) page
  ({ batches := resize (if batch = [] then walk.batches else walk.batches ++ [batch])
     traversed := cachePage walk.traversed page },
    intersectionFound)

/-- The history of the token mint, the values of `last_scanned_slot` so far, latest first, the
transactions scanned, the queue in Redis, and what a run has yet to process. -/
structure SplTokenIndexer where
  history : History
  lastScannedSlots : List ℕ
  scanned : List Tx
  traversed : List Tx
  transactionSignatures : List (List Tx)

/-- What happens to the token mint and to the indexer. -/
inductive SplTokenEvent where
  /-- A transaction of the mint is finalized. -/
  | finalizes (tx : Tx)
  /-- A run starts, after whatever the last one left, and this many requests are answered. -/
  | starts (answers : ℕ)
  /-- The run scans its next slice and commits. -/
  | parses
  deriving Repr

variable (s : SplTokenIndexer)

/-- `index_spl_token.py:302–396`: the walk of a run. -/
def SplTokenIndexer.walk (answers : ℕ) : Walk × Bool :=
  let latestProcessedSlot := s.lastScannedSlots.head?
  let cached :=
    match latestProcessedSlot with
    | none => (none, s.traversed)
    | some slot => fetchTraversedTxFromCache slot s.traversed
  overHistory s.history (addSplTokenPage latestProcessedSlot) answers (cached.1.map Tx.signature)
    ⟨[], cached.2⟩

/-- One event (`index_spl_token.py:146–262`, `302–410`). -/
def splTokenStep : SplTokenEvent → Except String SplTokenIndexer
  | .finalizes tx =>
    if h : s.history.Accepts tx then .ok { s with history := s.history.add tx h }
    else .error "not the next transaction"
  | .starts answers =>
    let walk := s.walk answers
    .ok { s with
      traversed := walk.1.traversed
      transactionSignatures := if walk.2 then walk.1.batches.reverse else [] }
  | .parses =>
    match nextBatch s.transactionSignatures with
    | none => .error "nothing to process"
    | some (batch, batches) =>
      let records := batch.take txSignaturesProcessingSize
      .ok { s with
        lastScannedSlots := (records.head?.map Tx.slot).toList ++ s.lastScannedSlots
        scanned := s.scanned ++ records
        transactionSignatures := batch.drop txSignaturesProcessingSize :: batches }

/-- A mint with any history, and an indexer that has not run. -/
def SplTokenIndexer.start (history : History) : SplTokenIndexer where
  history := history
  lastScannedSlots := []
  scanned := []
  traversed := []
  transactionSignatures := []

/-- The indexer after a run of events. -/
def splTokenIndexer (history : History) (events : List SplTokenEvent) : SplTokenIndexer :=
  replay splTokenStep (SplTokenIndexer.start history) events

/-- The stored slot has never decreased, and what lies above the first one, up to the stored one,
has been scanned. -/
def SplTokenIndexer.Covers : Prop :=
  s.lastScannedSlots.Pairwise (· ≥ ·) ∧
    ∀ first ∈ s.lastScannedSlots.getLast?, ∀ stored ∈ s.lastScannedSlots.head?,
      ∀ tx ∈ s.history.txs, first < tx.slot → tx.slot ≤ stored → tx ∈ s.scanned

/-- No transaction comes in late, at or below the stored slot; and once a slot is stored, a slice
does not start below it, and a slice that starts above the first stored slot is all that is left of
its page and has all transactions of the slot it starts with. -/
def CoversNext : SplTokenEvent → Prop
  | .finalizes tx => s.history.Accepts tx →
    ∀ first ∈ s.lastScannedSlots.getLast?, ∀ stored ∈ s.lastScannedSlots.head?,
      first < tx.slot → stored < tx.slot
  | .starts _ => True
  | .parses => ∀ next ∈ nextBatch s.transactionSignatures, ∀ newest ∈ next.1.head?,
    ∀ first ∈ s.lastScannedSlots.getLast?, ∀ stored ∈ s.lastScannedSlots.head?,
      stored ≤ newest.slot ∧ (first < newest.slot →
        next.1.length ≤ txSignaturesProcessingSize ∧
          ∀ tx ∈ s.history.txs, tx.slot = newest.slot → tx ∈ next.1)

/-- What is left of the first run's page, none of it above the first stored slot. -/
def SplTokenIndexer.InFirstPage : Prop :=
  s.transactionSignatures.flatten.Sublist s.history.txs ∧
    ∀ first ∈ s.lastScannedSlots.getLast?, ∀ tx ∈ s.transactionSignatures.flatten, tx.slot ≤ first

/-- A slot is stored, and what the run has yet to process lies above it, next to what has been
scanned. -/
def SplTokenIndexer.AboveScanned : Prop :=
  ∃ first ∈ s.lastScannedSlots.getLast?, ∃ stored ∈ s.lastScannedSlots.head?,
    (∀ tx ∈ s.transactionSignatures.flatten, stored < tx.slot) ∧
      ∃ newer older, s.history.txs = newer ++ (s.transactionSignatures.reverse.flatten ++ older) ∧
        ∀ tx ∈ older, first < tx.slot → tx ∈ s.scanned

/-- What holds between the events of a run that covers what it stores. -/
structure SplTokenIndexer.Consistent (s : SplTokenIndexer) : Prop where
  covers : s.Covers
  inHistory : ∀ tx ∈ s.scanned, tx ∈ s.history.txs
  scannedBelow : ∀ tx ∈ s.scanned, ∃ stored ∈ s.lastScannedSlots.head?, tx.slot ≤ stored
  pending : s.InFirstPage ∨ s.AboveScanned

section Walk

variable {s : SplTokenIndexer} {answers stored : ℕ}

/-- Without a stored slot, the walk is at most one page. -/
theorem walk_of_none (hnone : s.lastScannedSlots = []) :
    (s.walk answers).1.batches.reverse.flatten.Sublist s.history.txs := by
  simp only [SplTokenIndexer.walk, hnone, List.head?_nil, Option.map_none]
  unfold overHistory overPages
  cases answers with
  | zero => exact List.nil_sublist _
  | succ answers =>
    simp only [getSignaturesForAddress, after]
    cases hpage : s.history.txs.take fetchTxSignaturesBatchSize with
    | nil => exact List.nil_sublist _
    | cons tx txs =>
      have hone : resize [tx :: txs] = [tx :: txs] := rfl
      simp only [addSplTokenPage, reduceCtorEq, if_false, List.nil_append, hone, if_true,
        List.reverse_singleton, List.flatten_cons, List.flatten_nil, List.append_nil]
      exact hpage ▸ List.take_sublist _ _

theorem addSplTokenPage_of_some (walk : Walk) (page : List Tx) :
    (addSplTokenPage (some stored) walk page).1.batches.flatten <:+
        walk.batches.flatten ++ (page.takeWhile fun tx ↦ !decide (tx.slot ≤ stored)).filter
          (fun _ ↦ true) ∧
      (addSplTokenPage (some stored) walk page).2 = page.any fun tx ↦ decide (tx.slot ≤ stored) := by
  have hstop : isIntersection stored none (fun _ ↦ true) = fun tx ↦ decide (tx.slot ≤ stored) := by
    funext tx
    simp [isIntersection, aboveMinimum]
  have hall : isTaken stored none = fun _ ↦ true := by
    funext tx
    simp [isTaken, aboveMinimum]
  simp only [addSplTokenPage, readPage_eq, hstop, hall, and_true]
  refine (flatten_suffix (resize_suffix _)).trans ?_
  split
  case isTrue hnil => exact ⟨[], by rw [hnil, List.append_nil, List.nil_append]⟩
  case isFalse => simp

/-- With a stored slot, the batches are the end of what lies above it. -/
theorem walk_of_some (hstored : s.lastScannedSlots.head? = some stored)
    (hended : (s.walk answers).2) :
    ∃ before, (s.walk answers).1.batches.flatten <:+
      (after Tx.signature s.history.txs before).takeWhile fun tx ↦ !decide (tx.slot ≤ stored) := by
  simp only [SplTokenIndexer.walk, hstored] at hended ⊢
  refine ⟨(fetchTraversedTxFromCache stored s.traversed).1.map Tx.signature, ?_⟩
  have hwalk := overHistory_collects (fun a b ↦ a <:+ b) (fun walk ↦ walk.batches.flatten) _ _
    (fun _ ↦ List.suffix_rfl) (fun _ _ _ h h' ↦ h.trans h')
    suffix_append_right
    (fun walk page ↦ (addSplTokenPage_of_some walk page).2)
    (fun walk page ↦ (addSplTokenPage_of_some walk page).1) hended
  rwa [List.filter_true] at hwalk

end Walk

namespace SplTokenIndexer.Consistent

variable {s : SplTokenIndexer}

theorem start (history : History) : (SplTokenIndexer.start history).Consistent where
  covers := ⟨List.Pairwise.nil, fun _ hfirst ↦ nomatch hfirst⟩
  inHistory _ htx := nomatch htx
  scannedBelow _ htx := nomatch htx
  pending := .inl ⟨List.nil_sublist _, fun _ hfirst ↦ nomatch hfirst⟩

/-- The first stored slot is not above the stored one. -/
theorem first_le (h : s.Consistent) {first stored : ℕ}
    (hfirst : first ∈ s.lastScannedSlots.getLast?) (hstored : stored ∈ s.lastScannedSlots.head?) :
    first ≤ stored := by
  have hsorted := h.covers.1
  obtain ⟨slots, hslots⟩ := List.head?_eq_some_iff.mp hstored
  rw [hslots] at hsorted hfirst
  rcases List.mem_cons.mp (List.mem_of_getLast? hfirst) with rfl | hmem
  · exact Nat.le_refl first
  · exact (List.pairwise_cons.mp hsorted).1 first hmem

/-- A transaction that comes in time. -/
theorem finalizes (h : s.Consistent) (tx : Tx) (htx : s.history.Accepts tx)
    (hcovers : CoversNext s (.finalizes tx)) :
    { s with history := s.history.add tx htx : SplTokenIndexer }.Consistent where
  covers := by
    refine ⟨h.covers.1, fun first hfirst stored hstored tx' htx' habove hbelow ↦ ?_⟩
    rcases List.mem_cons.mp htx' with rfl | htx'
    · have := hcovers htx first hfirst stored hstored habove
      omega
    · exact h.covers.2 first hfirst stored hstored tx' htx' habove hbelow
  inHistory row hrow := List.mem_cons_of_mem tx (h.inHistory row hrow)
  scannedBelow := h.scannedBelow
  pending := by
    rcases h.pending with ⟨hsub, hbelow⟩ | ⟨first, hfirst, stored, hstored, habove, hsplit⟩
    · exact .inl ⟨hsub.trans (List.sublist_cons_self tx _), hbelow⟩
    · obtain ⟨newer, older, hhistory, holder⟩ := hsplit
      refine .inr ⟨first, hfirst, stored, hstored, habove, tx :: newer, older, ?_, holder⟩
      rw [History.add_txs, hhistory, List.cons_append]

/-- A run may start anywhere: it takes up what lies above the stored slot. -/
theorem starts (h : s.Consistent) (answers : ℕ) :
    { s with
      traversed := (s.walk answers).1.traversed
      transactionSignatures :=
        if (s.walk answers).2 then (s.walk answers).1.batches.reverse else [] :
          SplTokenIndexer }.Consistent where
  covers := h.covers
  inHistory := h.inHistory
  scannedBelow := h.scannedBelow
  pending := by
    split
    case isFalse => exact .inl ⟨List.nil_sublist _, fun _ _ _ htx ↦ nomatch htx⟩
    case isTrue hended =>
      cases hstored : s.lastScannedSlots.head? with
      | none =>
        have hslots := List.head?_eq_none_iff.mp hstored
        refine .inl ⟨walk_of_none hslots, fun first hfirst ↦ ?_⟩
        have hfirst' : first ∈ s.lastScannedSlots.getLast? := hfirst
        simp [hslots] at hfirst'
      | some stored =>
        obtain ⟨first, hfirst⟩ : ∃ first, first ∈ s.lastScannedSlots.getLast? := by
          refine ⟨_, List.getLast?_eq_some_getLast fun hslots ↦ ?_⟩
          simp [hslots] at hstored
        obtain ⟨before, front, hfront⟩ := walk_of_some hstored hended
        obtain ⟨skipped, hskipped⟩ := after_suffix Tx.signature s.history.txs before
        generalize hrest : after Tx.signature s.history.txs before = rest at hfront hskipped
        have hsplit := List.takeWhile_append_dropWhile (p := fun tx : Tx ↦ !decide (tx.slot ≤ stored))
          (l := rest)
        refine .inr ⟨first, hfirst, stored, hstored, fun tx htx ↦ ?_, skipped ++ front,
          rest.dropWhile fun tx ↦ !decide (tx.slot ≤ stored), ?_, ?_⟩
        · have hmem : tx ∈ rest.takeWhile fun tx ↦ !decide (tx.slot ≤ stored) := by
            rw [← hfront]
            exact List.mem_append_right _ (by simpa using htx)
          simpa using List.mem_takeWhile_imp hmem
        · rw [List.reverse_reverse, List.append_assoc, ← List.append_assoc front, hfront, hsplit,
            hskipped]
        · intro tx htx habove
          -- the transaction that stopped the walk is not above the stored slot, nor is one after it
          have hold : rest.dropWhile (fun tx ↦ !decide (tx.slot ≤ stored)) <:+ s.history.txs :=
            (List.dropWhile_suffix _).trans ⟨skipped, hskipped⟩
          have hbelow : tx.slot ≤ stored := by
            cases hdrop : rest.dropWhile fun tx ↦ !decide (tx.slot ≤ stored) with
            | nil => simp [hdrop] at htx
            | cons stop older =>
              have hstop := List.head_dropWhile_not (fun tx : Tx ↦ !decide (tx.slot ≤ stored))
                (by simp [hdrop] : rest.dropWhile _ ≠ [])
              simp only [hdrop, List.head_cons, Bool.not_eq_false', decide_eq_true_eq] at hstop
              rw [hdrop] at htx hold
              have hold' : [stop] ++ older <:+ s.history.txs := hold
              rcases List.mem_cons.mp htx with rfl | htx
              · exact hstop
              · exact Nat.le_trans (s.history.slot_le hold' (List.mem_singleton.mpr rfl) htx) hstop
          exact h.covers.2 first hfirst stored hstored tx (hold.subset htx) habove hbelow

end SplTokenIndexer.Consistent

/-- The state after the slice that starts with `newest`. -/
def SplTokenIndexer.parsed (newest : Tx) (more : List Tx) (batches : List (List Tx)) :
    SplTokenIndexer :=
  { s with
    lastScannedSlots := newest.slot :: s.lastScannedSlots
    scanned := s.scanned ++ (newest :: more).take txSignaturesProcessingSize
    transactionSignatures := (newest :: more).drop txSignaturesProcessingSize :: batches }

theorem splTokenStep_parses {s : SplTokenIndexer} {newest : Tx} {more : List Tx}
    {batches : List (List Tx)}
    (hnext : nextBatch s.transactionSignatures = some (newest :: more, batches)) :
    splTokenStep s .parses = .ok (s.parsed newest more batches) := by
  simp only [splTokenStep, hnext]
  rfl

namespace SplTokenIndexer.Consistent

variable {s : SplTokenIndexer} {newest : Tx} {more : List Tx} {batches : List (List Tx)}

theorem slot_le_newest {txs : List Tx} (hsub : (newest :: txs).Sublist s.history.txs) :
    ∀ tx ∈ newest :: txs, tx.slot ≤ newest.slot := by
  intro tx htx
  rcases List.mem_cons.mp htx with rfl | htx
  · exact Nat.le_refl tx.slot
  · exact (List.pairwise_cons.mp (s.history.ordered.sublist hsub)).1 tx htx

/-- The stored slots stay sorted when the next is not below the last one. -/
theorem sorted_cons (h : s.Consistent) {slot : ℕ}
    (hslot : ∀ stored ∈ s.lastScannedSlots.head?, stored ≤ slot) :
    (slot :: s.lastScannedSlots).Pairwise (· ≥ ·) := by
  refine List.pairwise_cons.mpr ⟨fun slot' hslot' ↦ ?_, h.covers.1⟩
  have hsorted := h.covers.1
  cases hslots : s.lastScannedSlots with
  | nil => simp [hslots] at hslot'
  | cons stored slots =>
    rw [hslots] at hslot' hsorted
    have hle := hslot stored (by simp [hslots])
    rcases List.mem_cons.mp hslot' with rfl | hslot'
    · exact hle
    · exact Nat.le_trans ((List.pairwise_cons.mp hsorted).1 slot' hslot') hle

/-- A slice is scanned up to its first slot. -/
theorem scannedBelow_parsed (h : s.Consistent) (batches : List (List Tx))
    (hbatch : (newest :: more).Sublist s.history.txs)
    (hslot : ∀ stored ∈ s.lastScannedSlots.head?, stored ≤ newest.slot) :
    ∀ tx ∈ (s.parsed newest more batches).scanned, tx ∈ s.history.txs ∧ tx.slot ≤ newest.slot := by
  intro tx htx
  rcases List.mem_append.mp htx with htx | htx
  · obtain ⟨stored, hstored, hle⟩ := h.scannedBelow tx htx
    exact ⟨h.inHistory tx htx, Nat.le_trans hle (hslot stored hstored)⟩
  · have hmem := List.mem_of_mem_take htx
    exact ⟨hbatch.subset hmem, slot_le_newest hbatch tx hmem⟩

/-- A slice of the first run's page stores the first slot, or stores it again. -/
theorem parses_firstPage (h : s.Consistent)
    (hnext : nextBatch s.transactionSignatures = some (newest :: more, batches))
    (hfirstPage : s.InFirstPage)
    (hslot : ∀ stored ∈ s.lastScannedSlots.head?, stored ≤ newest.slot) :
    (s.parsed newest more batches).Consistent := by
  obtain ⟨hsub, hbelow⟩ := hfirstPage
  rw [flatten_of_nextBatch hnext] at hsub hbelow
  have hleft : (s.parsed newest more batches).transactionSignatures.flatten.Sublist
      (newest :: (more ++ batches.flatten)) := (List.drop_sublist _ (newest :: more)).append_right _
  have hscanned := h.scannedBelow_parsed batches
    ((List.sublist_append_left (newest :: more) batches.flatten).trans hsub) hslot
  have hfirst : ∀ first ∈ (s.parsed newest more batches).lastScannedSlots.getLast?,
      newest.slot ≤ first := by
    intro first hfirst
    cases hslots : s.lastScannedSlots with
    | nil =>
      simp only [parsed, hslots, List.getLast?_singleton, Option.mem_some_iff] at hfirst
      omega
    | cons stored slots =>
      have hfirst' : first ∈ s.lastScannedSlots.getLast? := by
        simpa [parsed, hslots, List.getLast?_cons_cons] using hfirst
      exact hbelow first hfirst' newest (by simp)
  refine ⟨⟨h.sorted_cons hslot, ?_⟩, fun tx htx ↦ (hscanned tx htx).1,
    fun tx htx ↦ ⟨newest.slot, rfl, (hscanned tx htx).2⟩, .inl ⟨hleft.trans hsub, ?_⟩⟩
  · intro first hfirst' stored hstored tx _ habove hle
    have hnewest := hfirst first hfirst'
    cases hstored
    omega
  · intro first hfirst' tx htx
    exact Nat.le_trans (slot_le_newest hsub tx (hleft.subset htx)) (hfirst first hfirst')

/-- A slice above the scanned transactions that is a whole page and splits no slot. -/
theorem parses_above (h : s.Consistent)
    (hnext : nextBatch s.transactionSignatures = some (newest :: more, batches))
    (habove : s.AboveScanned) (hfits : (newest :: more).length ≤ txSignaturesProcessingSize)
    (hwhole : ∀ tx ∈ s.history.txs, tx.slot = newest.slot → tx ∈ newest :: more) :
    (s.parsed newest more batches).Consistent := by
  obtain ⟨first, hfirst, stored, hstored, hstoredlt, newer, older, hhistory, holder⟩ := habove
  rw [flatten_of_nextBatch hnext] at hstoredlt
  rw [reverse_flatten_of_nextBatch hnext, List.append_assoc, ← List.append_assoc newer] at hhistory
  have hbatch : (newest :: more) ++ older <:+ s.history.txs := ⟨_, hhistory.symm⟩
  have hnewest := hstoredlt newest (by simp)
  have hslot : ∀ stored' ∈ s.lastScannedSlots.head?, stored' ≤ newest.slot := by
    intro stored' hstored'
    cases Option.mem_unique hstored hstored'
    exact Nat.le_of_lt hnewest
  have hscanned := h.scannedBelow_parsed batches
    ((List.sublist_append_left _ _).trans hbatch.sublist) hslot
  have htake := List.take_of_length_le hfits
  have hlast : (s.parsed newest more batches).lastScannedSlots.getLast? = some first := by
    obtain ⟨slots, hslots⟩ := List.head?_eq_some_iff.mp hstored
    simpa [parsed, hslots, List.getLast?_cons_cons] using hfirst
  have hcovered : ∀ tx ∈ (newest :: more) ++ older, first < tx.slot →
      tx ∈ (s.parsed newest more batches).scanned := by
    intro tx htx hgt
    simp only [parsed, htake]
    rcases List.mem_append.mp htx with htx | htx
    · exact List.mem_append_right _ htx
    · exact List.mem_append_left _ (holder tx htx hgt)
  -- what is listed before the slice is above its first slot
  have hlater : ∀ tx ∈ newer ++ batches.reverse.flatten, newest.slot < tx.slot := by
    intro tx htx
    have hle := s.history.slot_le (hhistory ▸ List.suffix_rfl) htx
      (List.mem_append_left older (List.mem_cons_self (a := newest) (l := more)))
    rcases Nat.lt_or_eq_of_le hle with hlt | heq
    · exact hlt
    · have hmem := hwhole tx (hhistory ▸ List.mem_append_left _ htx) heq.symm
      have hnodup := hhistory ▸ s.history.nodup
      exact absurd rfl ((List.nodup_append.mp hnodup).2.2 tx htx tx (List.mem_append_left _ hmem))
  refine ⟨⟨h.sorted_cons hslot, ?_⟩, fun tx htx ↦ (hscanned tx htx).1,
    fun tx htx ↦ ⟨newest.slot, rfl, (hscanned tx htx).2⟩, .inr ⟨first, hlast, newest.slot, rfl, ?_,
      newer, (newest :: more) ++ older, ?_, hcovered⟩⟩
  · intro first' hfirst' stored' hstored' tx htx hgt hle
    cases Option.mem_unique hlast hfirst'
    cases hstored'
    have htx' : tx ∈ newer ++ batches.reverse.flatten ++ ((newest :: more) ++ older) :=
      hhistory ▸ htx
    rcases List.mem_append.mp htx' with htx' | htx'
    · have := hlater tx htx'
      omega
    · exact hcovered tx htx' hgt
  · intro tx htx
    simp only [parsed, List.drop_of_length_le hfits, List.flatten_cons, List.nil_append] at htx
    exact hlater tx (List.mem_append_right _ (by simpa using htx))
  · simp only [parsed, List.drop_of_length_le hfits, List.reverse_cons, List.flatten_append,
      List.flatten_cons, List.flatten_nil, List.append_nil]
    rw [hhistory, List.append_assoc]

theorem step {s' : SplTokenIndexer} {e : SplTokenEvent} (h : s.Consistent)
    (hcovers : CoversNext s e) (hstep : splTokenStep s e = .ok s') : s'.Consistent := by
  cases e with
  | finalizes tx =>
    simp only [splTokenStep] at hstep
    split at hstep
    case isTrue htx =>
      cases hstep
      exact h.finalizes tx htx hcovers
    case isFalse => cases hstep
  | starts answers =>
    cases hstep
    exact h.starts answers
  | parses =>
    cases hnext : nextBatch s.transactionSignatures with
    | none => simp [splTokenStep, hnext] at hstep
    | some next =>
      obtain ⟨batch, batches⟩ := next
      cases batch with
      | nil => exact absurd rfl (nextBatch_eq_some hnext).1
      | cons newest more =>
        rw [splTokenStep_parses hnext] at hstep
        cases hstep
        have hnewest := hcovers (newest :: more, batches) hnext newest rfl
        rcases h.pending with hfirstPage | habove
        · refine h.parses_firstPage hnext hfirstPage fun stored hstored ↦ ?_
          obtain ⟨first, hfirst⟩ : ∃ first, first ∈ s.lastScannedSlots.getLast? := by
            refine ⟨_, List.getLast?_eq_some_getLast fun hslots ↦ ?_⟩
            simp [hslots] at hstored
          exact (hnewest first hfirst stored hstored).1
        · obtain ⟨first, hfirst, stored, hstored, hstoredlt, -⟩ := id habove
          rw [flatten_of_nextBatch hnext] at hstoredlt
          have hlt := hstoredlt newest (by simp)
          have hle := h.first_le hfirst hstored
          obtain ⟨hfits, hwhole⟩ := (hnewest first hfirst stored hstored).2 (by omega)
          exact h.parses_above hnext habove hfits hwhole

/-- A slice that leaves its state covered met the condition. -/
theorem needed (h : s.Consistent)
    (hnext : nextBatch s.transactionSignatures = some (newest :: more, batches))
    (hcovers : (s.parsed newest more batches).Covers) {first stored : ℕ}
    (hfirst : first ∈ s.lastScannedSlots.getLast?) (hstored : stored ∈ s.lastScannedSlots.head?) :
    stored ≤ newest.slot ∧ (first < newest.slot →
      (newest :: more).length ≤ txSignaturesProcessingSize ∧
        ∀ tx ∈ s.history.txs, tx.slot = newest.slot → tx ∈ newest :: more) := by
  obtain ⟨slots, hslots⟩ := List.head?_eq_some_iff.mp hstored
  have hsorted := hcovers.1
  simp only [parsed, hslots] at hsorted
  refine ⟨(List.pairwise_cons.mp hsorted).1 stored List.mem_cons_self, fun hlt ↦ ?_⟩
  have hlast : (s.parsed newest more batches).lastScannedSlots.getLast? = some first := by
    simpa [parsed, hslots, List.getLast?_cons_cons] using hfirst
  rcases h.pending with ⟨-, hbelow⟩ | ⟨_, -, stored', hstored', hstoredlt, newer, older, hhistory, -⟩
  · rw [flatten_of_nextBatch hnext] at hbelow
    have := hbelow first hfirst newest (by simp)
    omega
  · cases Option.mem_unique hstored hstored'
    rw [flatten_of_nextBatch hnext] at hstoredlt
    rw [reverse_flatten_of_nextBatch hnext, List.append_assoc, ← List.append_assoc newer]
      at hhistory
    have hbatch : (newest :: more) ++ older <:+ s.history.txs := ⟨_, hhistory.symm⟩
    have hsub := (List.sublist_append_left _ _).trans hbatch.sublist
    -- what lies above the stored slot has not been scanned before
    have hrecords : ∀ tx ∈ s.history.txs, stored < tx.slot → first < tx.slot →
        tx.slot ≤ newest.slot → tx ∈ (newest :: more).take txSignaturesProcessingSize := by
      intro tx htx habove hgt hle
      have hscanned := hcovers.2 first hlast newest.slot rfl tx htx hgt hle
      refine (List.mem_append.mp hscanned).resolve_left fun hbefore ↦ ?_
      obtain ⟨stored', hstored', hle'⟩ := h.scannedBelow tx hbefore
      cases Option.mem_unique hstored hstored'
      omega
    have hle := h.first_le hfirst hstored
    constructor
    · by_contra hlarge
      have hdrop : (newest :: more).drop txSignaturesProcessingSize ≠ [] := by
        rw [Ne, List.drop_eq_nil_iff]
        exact hlarge
      obtain ⟨tx, htx⟩ := List.exists_mem_of_ne_nil _ hdrop
      have hmem := List.mem_of_mem_drop htx
      have habove := hstoredlt tx (List.mem_append_left _ hmem)
      have htake := hrecords tx (hsub.subset hmem) habove (by omega)
        (slot_le_newest hsub tx hmem)
      have hnodup := s.history.nodup.sublist hsub
      rw [← List.take_append_drop txSignaturesProcessingSize (newest :: more)] at hnodup
      exact (List.nodup_append.mp hnodup).2.2 tx htake tx htx rfl
    · intro tx htx hslot
      have habove := hstoredlt newest (by simp)
      exact List.mem_of_mem_take (hrecords tx htx (by omega) (by omega) (by omega))

end SplTokenIndexer.Consistent

/-- In a run of finalized transactions, starts and failures, the stored slot never decreases and
all above the first one is scanned up to it at all times, if and only if each transaction comes in
above the stored slot, and each slice that follows a stored slot is not below it and, unless it is
of the first page, is a whole page that splits no slot. -/
theorem covers_iff_pages_whole (history : History) (events : List SplTokenEvent) :
    (∀ done, done <+: events → (splTokenIndexer history done).Covers) ↔
      Along splTokenStep CoversNext (SplTokenIndexer.start history) events := by
  apply prefixes_iff_along_of_invariant (J := SplTokenIndexer.Consistent)
  · exact fun s hs ↦ hs.covers
  · intro s e hs hcovers
    exact attempt_invariant (fun _ _ _ hs hg hstep ↦ hs.step hg hstep) hs hcovers
  · intro s e hs hcovers
    cases e with
    | finalizes tx =>
      intro htx first hfirst stored hstored hlt
      have hstep : splTokenStep s (.finalizes tx) = .ok { s with history := s.history.add tx htx } := by
        simp only [splTokenStep, dif_pos htx]
      rw [attempt_of_ok _ hstep] at hcovers
      by_contra hlate
      have hscanned := hcovers.2 first hfirst stored hstored tx List.mem_cons_self hlt (by omega)
      exact htx.1 (List.mem_map_of_mem (hs.inHistory tx hscanned))
    | starts answers => trivial
    | parses =>
      rintro ⟨batch, batches⟩ hnext newest hnewest first hfirst stored hstored
      obtain ⟨more, rfl⟩ := List.head?_eq_some_iff.mp hnewest
      rw [attempt_of_ok _ (splTokenStep_parses hnext)] at hcovers
      exact hs.needed hnext hcovers hfirst hstored
  · exact SplTokenIndexer.Consistent.start history

/-- A first page of one transaction more than a slice holds moves the stored slot back. -/
theorem stored_slot_decreases :
    ¬ (splTokenIndexer onePerSlot101 [.starts 1, .parses, .parses]).Covers := by
  rintro ⟨hsorted, -⟩
  have hslots : (splTokenIndexer onePerSlot101 [.starts 1, .parses, .parses]).lastScannedSlots
      = [0, 100] := by
    decide +kernel
  exact absurd hsorted (by decide)

end ColivingSpec.Solana
