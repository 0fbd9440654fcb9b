import ColivingSpec.Lib.Chunks
import ColivingSpec.Lib.Replay
import ColivingSpec.Solana.History

/-!
# The indexer of plays

A run walks back from the newest transaction of the listen-count program, or from a cached one, to
a transaction with a play in the table, and parses what it has met in slices, from the oldest page
on; the plays of a slice are committed together. It may stop after any slice. Challenge events and
the caches of the last play are not kept, no run reads them.
-/

namespace ColivingSpec.Solana

open Lib

/-- A row of `plays`: who listened to what from where, with the slot and the signature. -/
structure Play (π : Type) where
  info : π
  slot : ℕ
  signature : Signature
  deriving DecidableEq, Repr

section Model

variable {π : Type} (parse : Signature → Option π)

/-- `parse_sol_play_transaction`: the play in a transaction, unless it failed or has none. -/
def parseSolPlayTransaction (tx : Tx) : Option (Play π) :=
  (parse tx.signature).map fun info ↦ ⟨info, tx.slot, tx.signature⟩

/-- `index_solana_plays.py:603–643`: a page becomes a batch, unless its first transaction has a play
in the table. -/
def addPlaysPage (latestProcessedSlot : ℕ) (signatures : List Signature) (walk : Walk)
    (page : List Tx) : Walk × Bool :=
  let (batch, intersectionFound) :=
    readPage latestProcessedSlot none (fun txSig ↦ txSig ∈ signatures) page
  ({ batches := if batch = [] then walk.batches else walk.batches ++ [batch]
     traversed := cachePage walk.traversed page },
    intersectionFound)

/-- The history of the program, the rows of `plays`, the queue in Redis, and the run: the history
that it has walked, what it has parsed of its present page, and what it has yet to parse. -/
structure PlaysIndexer (π : Type) where
  history : History
  plays : List (Play π)
  traversed : List Tx
  walked : Option (List Tx)
  parsed : List Tx
  transactionSignatures : List (List Tx)

/-- What happens to the program and to the indexer. -/
inductive PlaysEvent where
  /-- A transaction of the program is finalized. -/
  | finalizes (tx : Tx)
  /-- A run starts, after whatever the last one left, and this many requests are answered. -/
  | starts (answers : ℕ)
  /-- The run parses its next slice and commits the plays. -/
  | parses
  deriving Repr

variable (s : PlaysIndexer π)

/-- `index_solana_plays.py:231–249`. -/
def PlaysIndexer.latestSlot : ℕ := highestSlot 0 (s.plays.map Play.slot)

/-- The cached transaction that a run starts from, and what it leaves in the queue. -/
def PlaysIndexer.cachedOffset : Option Tx × List Tx :=
  fetchTraversedTxFromCache s.latestSlot s.traversed

/-- `index_solana_plays.py:546–650`: the walk of a run. -/
def PlaysIndexer.walk (answers : ℕ) : Walk × Bool :=
  overHistory s.history (addPlaysPage s.latestSlot (s.plays.map Play.signature)) answers
    (s.cachedOffset.1.map Tx.signature) ⟨[], s.cachedOffset.2⟩

/-- One event (`index_solana_plays.py:342–485`, `534–657`). -/
def playsStep : PlaysEvent → Except String (PlaysIndexer π)
  | .finalizes tx =>
    if h : s.history.Accepts tx then .ok { s with history := s.history.add tx h }
    else .error "not the next transaction"
  | .starts answers =>
    let walk := s.walk answers
    .ok { s with
      traversed := walk.1.traversed
      walked := if walk.2 then some s.history.txs else none
      parsed := []
      transactionSignatures := if walk.2 then walk.1.batches.reverse else [] }
  | .parses =>
    match nextBatch s.transactionSignatures with
    | none => .error "nothing to process"
    | some (batch, batches) =>
      let records := batch.take txSignaturesProcessingSize
      let left := batch.drop txSignaturesProcessingSize
      let plays := records.filterMap (parseSolPlayTransaction parse)
      .ok { s with
        plays := s.plays ++ plays
        -- a slice without plays wipes the cache
        traversed := if plays = [] then [] else s.traversed
        parsed := if left = [] then [] else s.parsed ++ records
        transactionSignatures := left :: batches }

/-- A program with any history, and an indexer that has not run. -/
def PlaysIndexer.start (history : History) : PlaysIndexer π where
  history := history
  plays := []
  traversed := []
  walked := none
  parsed := []
  transactionSignatures := []

/-- The indexer after a run of events. -/
def playsIndexer (history : History) (events : List PlaysEvent) : PlaysIndexer π :=
  replay (playsStep parse) (PlaysIndexer.start history) events

/-- The transaction has a play. -/
def isPlay (tx : Tx) : Bool := (parse tx.signature).isSome

/-- When a run has completed, the rows are the plays of the history that it has walked, once
each. -/
def PlaysIndexer.Exact : Prop :=
  ∀ txs ∈ s.walked, nextBatch s.transactionSignatures = none →
    s.plays.Perm (txs.filterMap (parseSolPlayTransaction parse))

/-- A run does not start after one that has stopped within a page, with plays in the parsed part
and plays in the rest; and a transaction that it starts from has no play before it, nor itself one,
that is not in the table. -/
def StartsClean : PlaysEvent → Prop
  | .starts _ =>
    (∀ next ∈ nextBatch s.transactionSignatures, s.parsed.any (isPlay parse) = true →
      next.1.any (isPlay parse) = false) ∧
    ∀ tx ∈ s.cachedOffset.1, ∀ tx' ∈ s.history.txs,
      tx' ∉ after Tx.signature s.history.txs (some tx.signature) → isPlay parse tx' = true →
        tx'.signature ∈ s.plays.map Play.signature
  | _ => True

/-- How the plays of the history lie between the events of a run, newest first: those finalized
since, those of the later pages, those of the present page that are parsed and those that are left,
and the older ones, which are in the table. -/
structure PlaysIndexer.Split (s : PlaysIndexer π) (newer later left older : List Tx) : Prop where
  history : s.history.txs.filter (isPlay parse) =
    newer ++ (later.filter (isPlay parse) ++ (s.parsed.filter (isPlay parse) ++
      (left.filter (isPlay parse) ++ older)))
  pending : s.transactionSignatures.reverse.flatten = later ++ left
  present : s.parsed ≠ [] → ∃ batches,
    nextBatch s.transactionSignatures = some (left, batches) ∧ later = batches.reverse.flatten
  rows : s.plays.Perm ((s.parsed ++ older).filterMap (parseSolPlayTransaction parse))
  walked : ∀ txs ∈ s.walked, txs.filter (isPlay parse) =
    later.filter (isPlay parse) ++ (s.parsed.filter (isPlay parse) ++
      (left.filter (isPlay parse) ++ older))

/-- What holds between the events of a run that starts clean. -/
def PlaysIndexer.Consistent : Prop :=
  ∃ newer later left older, s.Split parse newer later left older

variable {parse}

/-- What has no play adds no row. -/
theorem filterMap_filter_isPlay (txs : List Tx) :
    (txs.filter (isPlay parse)).filterMap (parseSolPlayTransaction parse) =
      txs.filterMap (parseSolPlayTransaction parse) := by
  rw [List.filterMap_filter]
  congr 1
  funext tx
  cases hparse : parse tx.signature <;> simp [isPlay, parseSolPlayTransaction, hparse]

/-- Rows carry the signatures and the slots of their transactions. -/
theorem map_signature_filterMap {txs : List Tx} (h : ∀ tx ∈ txs, isPlay parse tx = true) :
    (txs.filterMap (parseSolPlayTransaction parse)).map Play.signature = txs.map Tx.signature ∧
      (txs.filterMap (parseSolPlayTransaction parse)).map Play.slot = txs.map Tx.slot := by
  induction txs with
  | nil => exact ⟨rfl, rfl⟩
  | cons tx txs ih =>
    obtain ⟨info, hinfo⟩ := Option.isSome_iff_exists.mp (h tx List.mem_cons_self)
    obtain ⟨hsigs, hslots⟩ := ih fun tx' htx' ↦ h tx' (List.mem_cons_of_mem tx htx')
    have hplay : parseSolPlayTransaction parse tx = some ⟨info, tx.slot, tx.signature⟩ := by
      simp only [parseSolPlayTransaction, hinfo, Option.map_some]
    simp only [List.filterMap_cons_some hplay, List.map_cons, hsigs, hslots, and_self]

theorem addPlaysPage_eq (latest : ℕ) (signatures : List Signature) (walk : Walk) (page : List Tx) :
    (addPlaysPage latest signatures walk page).1.batches.flatten =
        walk.batches.flatten ++ (page.takeWhile fun tx ↦ !isIntersection latest none
          (fun txSig ↦ decide (txSig ∈ signatures)) tx).filter (fun _ ↦ true) ∧
      (addPlaysPage latest signatures walk page).2 =
        page.any (isIntersection latest none fun txSig ↦ decide (txSig ∈ signatures)) := by
  have hall : isTaken latest none = fun _ ↦ true := by
    funext tx
    simp [isTaken, aboveMinimum]
  simp only [addPlaysPage, readPage_eq, hall, and_true]
  split
  case isTrue hnil => rw [hnil, List.append_nil]
  case isFalse => simp

/-- A walk that ends has collected what lies above the first transaction with a row. -/
theorem plays_walk_eq {s : PlaysIndexer π} {answers : ℕ} (hended : (s.walk answers).2) :
    (s.walk answers).1.batches.flatten =
      (after Tx.signature s.history.txs (s.cachedOffset.1.map Tx.signature)).takeWhile fun tx ↦
        !isIntersection s.latestSlot none
          (fun txSig ↦ decide (txSig ∈ s.plays.map Play.signature)) tx := by
  have hwalk := overHistory_collects Eq (fun walk ↦ walk.batches.flatten) _ _ (fun _ ↦ rfl)
    (fun _ _ _ h h' ↦ h.trans h') (fun _ _ _ h ↦ by rw [h])
    (fun walk page ↦ (addPlaysPage_eq s.latestSlot (s.plays.map Play.signature) walk page).2)
    (fun walk page ↦ (addPlaysPage_eq s.latestSlot (s.plays.map Play.signature) walk page).1)
    hended
  rwa [List.filter_true] at hwalk

namespace PlaysIndexer

variable {s : PlaysIndexer π} {newer later left older : List Tx}

/-- When a run stops so that another starts clean, the rows are the oldest plays. -/
theorem Split.oldest (h : s.Split parse newer later left older)
    (hclean : ∀ next ∈ nextBatch s.transactionSignatures, s.parsed.any (isPlay parse) = true →
      next.1.any (isPlay parse) = false) :
    ∃ unread known, s.history.txs.filter (isPlay parse) = unread ++ known ∧
      s.plays.Perm (known.filterMap (parseSolPlayTransaction parse)) := by
  have hrows := h.rows
  rw [List.filterMap_append, ← filterMap_filter_isPlay s.parsed, ← List.filterMap_append] at hrows
  by_cases hparsed : s.parsed.filter (isPlay parse) = []
  · refine ⟨newer ++ (later.filter (isPlay parse) ++ left.filter (isPlay parse)), older, ?_, ?_⟩
    · rw [h.history, hparsed]
      simp only [List.nil_append, List.append_assoc]
    · rwa [hparsed, List.nil_append] at hrows
  · have hne : s.parsed ≠ [] := fun hnil ↦ hparsed (by rw [hnil, List.filter_nil])
    obtain ⟨batches, hnext, -⟩ := h.present hne
    have hany : s.parsed.any (isPlay parse) = true := by
      rw [← Bool.not_eq_false, List.any_eq_false]
      exact fun hnone ↦ hparsed (List.filter_eq_nil_iff.mpr hnone)
    have hleft : left.filter (isPlay parse) = [] :=
      List.filter_eq_nil_iff.mpr (List.any_eq_false.mp (hclean _ hnext hany))
    refine ⟨newer ++ later.filter (isPlay parse), s.parsed.filter (isPlay parse) ++ older, ?_,
      hrows⟩
    rw [h.history, hleft]
    simp only [List.nil_append, List.append_assoc]

/-- From an offset that skips no play without a row, the walk takes up all such plays. -/
theorem filter_walk {unread known : List Tx} {answers : ℕ}
    (hsplit : s.history.txs.filter (isPlay parse) = unread ++ known)
    (hrows : s.plays.Perm (known.filterMap (parseSolPlayTransaction parse)))
    (hoffset : ∀ tx ∈ s.cachedOffset.1, ∀ tx' ∈ s.history.txs,
      tx' ∉ after Tx.signature s.history.txs (some tx.signature) → isPlay parse tx' = true →
        tx'.signature ∈ s.plays.map Play.signature)
    (hended : (s.walk answers).2) :
    (s.walk answers).1.batches.flatten.filter (isPlay parse) = unread := by
  have hknown : ∀ tx ∈ known, tx ∈ s.history.txs ∧ isPlay parse tx = true := fun tx htx ↦
    List.mem_filter.mp (hsplit ▸ List.mem_append_right unread htx)
  obtain ⟨hsigs, hslots⟩ := map_signature_filterMap fun tx htx ↦ (hknown tx htx).2
  have htable : ∀ txSig, txSig ∈ s.plays.map Play.signature ↔ txSig ∈ known.map Tx.signature := by
    intro txSig
    rw [← hsigs]
    exact (hrows.map Play.signature).mem_iff
  have hnot : ∀ tx ∈ unread, tx ∉ known := by
    intro tx htx htx'
    have hnodup := hsplit ▸ s.history.nodup.filter (isPlay parse)
    exact (List.nodup_append.mp hnodup).2.2 tx htx tx htx' rfl
  obtain ⟨skipped, hskipped⟩ :=
    after_suffix Tx.signature s.history.txs (s.cachedOffset.1.map Tx.signature)
  have hskip : ∀ tx ∈ skipped, isPlay parse tx = true → tx ∈ known := by
    intro tx htx hplay
    have hhist : tx ∈ s.history.txs := hskipped ▸ List.mem_append_left _ htx
    have hsig : tx.signature ∈ known.map Tx.signature := by
      rw [← htable]
      cases hcached : s.cachedOffset.1 with
      | none =>
        rw [hcached] at hskipped
        have hnil : skipped = [] := by simpa [after] using hskipped
        simp [hnil] at htx
      | some offset =>
        refine hoffset offset hcached tx hhist (fun hafter ↦ ?_) hplay
        rw [hcached, Option.map_some] at hskipped
        have hnodup := hskipped ▸ s.history.nodup
        exact (List.nodup_append.mp hnodup).2.2 tx htx tx hafter rfl
    exact (s.history.signature_mem_iff (fun row hrow ↦ (hknown row hrow).1) hhist).mp hsig
  generalize hrest : after Tx.signature s.history.txs (s.cachedOffset.1.map Tx.signature) = rest
    at hskipped
  have hplays : skipped.filter (isPlay parse) ++ rest.filter (isPlay parse) = unread ++ known := by
    rw [← List.filter_append, hskipped, hsplit]
  -- an unread play is not among the skipped ones, so that nothing is skipped before it
  obtain ⟨known', hknown', hrestplays⟩ : ∃ known', (∀ tx ∈ known', tx ∈ known) ∧
      rest.filter (isPlay parse) = unread ++ known' := by
    rcases List.append_eq_append_iff.mp hplays with ⟨more, hunread, hmore⟩ | ⟨more, hskip', hmore⟩
    · cases hcut : skipped.filter (isPlay parse) with
      | nil => exact ⟨known, fun _ htx ↦ htx, by simpa [hcut] using hplays⟩
      | cons tx txs =>
        have htx : tx ∈ skipped.filter (isPlay parse) := hcut ▸ List.mem_cons_self
        obtain ⟨hmem, hplay⟩ := List.mem_filter.mp htx
        exact absurd (hskip tx hmem hplay) (hnot tx (hunread ▸ List.mem_append_left _ htx))
    · cases unread with
      | nil => exact ⟨rest.filter (isPlay parse), fun tx htx ↦ hmore ▸ List.mem_append_right _ htx,
          rfl⟩
      | cons tx unread =>
        have htx : tx ∈ skipped.filter (isPlay parse) := hskip' ▸ List.mem_cons_self
        obtain ⟨hmem, hplay⟩ := List.mem_filter.mp htx
        exact absurd (hskip tx hmem hplay) (hnot tx List.mem_cons_self)
  rw [plays_walk_eq hended, hrest]
  simp only [htable]
  apply filter_unread s.history
  · exact fun tx htx ↦ hskipped ▸ List.mem_append_right _ htx
  · intro row hrow
    refine ⟨(hknown row hrow).1, slot_le_highestSlot 0 ?_⟩
    rw [(hrows.map Play.slot).mem_iff, hslots]
    exact List.mem_map_of_mem hrow
  · exact fun row hrow _ ↦ (hknown row hrow).2
  · exact hrestplays
  · exact hnot
  · exact fun tx htx ↦ ⟨hknown' tx htx, rfl⟩

theorem Split.finalizes (h : s.Split parse newer later left older) (tx : Tx)
    (htx : s.history.Accepts tx) :
    { s with history := s.history.add tx htx : PlaysIndexer π }.Split parse
      ([tx].filter (isPlay parse) ++ newer) later left older where
  history := by
    rw [History.add_txs, ← List.singleton_append, List.filter_append, h.history]
    simp only [List.append_assoc]
  pending := h.pending
  present := h.present
  rows := h.rows
  walked := h.walked

/-- The parsed part of a page and what is left of it lie next to each other. -/
theorem Split.of_nextBatch (h : s.Split parse newer later left older) {batch : List Tx}
    {batches : List (List Tx)} (hnext : nextBatch s.transactionSignatures = some (batch, batches)) :
    s.Split parse newer batches.reverse.flatten batch older := by
  have hpending := reverse_flatten_of_nextBatch hnext
  by_cases hparsed : s.parsed = []
  · have hsame : later.filter (isPlay parse) ++ (s.parsed.filter (isPlay parse) ++
        (left.filter (isPlay parse) ++ older)) = batches.reverse.flatten.filter (isPlay parse) ++
          (s.parsed.filter (isPlay parse) ++ (batch.filter (isPlay parse) ++ older)) := by
      have heq := congrArg (List.filter (isPlay parse)) (h.pending.symm.trans hpending)
      rw [List.filter_append, List.filter_append] at heq
      rw [hparsed, List.filter_nil, List.nil_append, List.nil_append, ← List.append_assoc, heq,
        List.append_assoc]
    exact ⟨hsame ▸ h.history, hpending, fun hne ↦ absurd hparsed hne, h.rows, hsame ▸ h.walked⟩
  · obtain ⟨batches', hnext', hlater⟩ := h.present hparsed
    cases hnext.symm.trans hnext'
    exact hlater ▸ h

/-- A slice adds its plays, and no others. -/
theorem Split.parses (h : s.Split parse newer later left older)
    {batch : List Tx} {batches : List (List Tx)}
    (hnext : nextBatch s.transactionSignatures = some (batch, batches)) {s' : PlaysIndexer π}
    (hstep : playsStep parse s .parses = .ok s') : s'.Consistent parse := by
  have h := h.of_nextBatch hnext
  simp only [playsStep, hnext, Except.ok.injEq] at hstep
  have hbatch := (List.take_append_drop txSignaturesProcessingSize batch).symm
  generalize hrecords : batch.take txSignaturesProcessingSize = records at hstep hbatch
  generalize hrest : batch.drop txSignaturesProcessingSize = rest at hstep hbatch
  have hcut : batch.filter (isPlay parse) =
      records.filter (isPlay parse) ++ rest.filter (isPlay parse) := by
    rw [hbatch, List.filter_append]
  have hplays : (s.plays ++ records.filterMap (parseSolPlayTransaction parse)).Perm
      ((s.parsed ++ records ++ older).filterMap (parseSolPlayTransaction parse)) := by
    have hrows := h.rows.append_right (records.filterMap (parseSolPlayTransaction parse))
    rw [← List.filterMap_append] at hrows
    refine hrows.trans (List.Perm.filterMap _ ?_)
    rw [List.append_assoc, List.append_assoc]
    exact List.perm_append_comm.append_left s.parsed
  have hhistory := h.history
  have hwalked := h.walked
  rw [hcut] at hhistory hwalked
  subst hstep
  cases rest with
  | nil =>
    -- the page is done
    refine ⟨newer, batches.reverse.flatten, [], s.parsed.filter (isPlay parse) ++
      (records.filter (isPlay parse) ++ older), ?_, ?_, ?_, ?_, ?_⟩
    · simpa using hhistory
    · simp
    · simp
    · simpa [List.filterMap_append, filterMap_filter_isPlay] using hplays
    · simpa using hwalked
  | cons tx rest =>
    refine ⟨newer, batches.reverse.flatten, tx :: rest, older, ?_, ?_, ?_, ?_, ?_⟩
    · simpa only [reduceCtorEq, if_false, List.filter_append, List.append_assoc] using hhistory
    · simp
    · exact fun _ ↦ ⟨batches, rfl, rfl⟩
    · simpa only [reduceCtorEq, if_false] using hplays
    · simpa only [reduceCtorEq, if_false, List.filter_append, List.append_assoc] using hwalked

theorem Consistent.step {s' : PlaysIndexer π} {e : PlaysEvent} (h : s.Consistent parse)
    (hclean : StartsClean parse s e) (hstep : playsStep parse s e = .ok s') :
    s'.Consistent parse := by
  obtain ⟨newer, later, left, older, h⟩ := h
  cases e with
  | finalizes tx =>
    simp only [playsStep] at hstep
    split at hstep
    case isTrue htx =>
      cases hstep
      exact ⟨_, later, left, older, h.finalizes tx htx⟩
    case isFalse => cases hstep
  | starts answers =>
    obtain ⟨unread, known, hsplit, hrows⟩ := h.oldest hclean.1
    cases hstep
    by_cases hended : (s.walk answers).2 = true
    · have hread := filter_walk hsplit hrows hclean.2 hended
      refine ⟨[], (s.walk answers).1.batches.flatten, [], known, ?_, ?_, ?_, ?_, ?_⟩
      · simpa [hread] using hsplit
      · simp [hended]
      · simp
      · simpa using hrows
      · simpa [hended, hread] using hsplit
    · refine ⟨unread, [], [], known, ?_, ?_, ?_, ?_, ?_⟩
      · simpa using hsplit
      · simp [hended]
      · simp
      · simpa using hrows
      · simp [hended]
  | parses =>
    cases hnext : nextBatch s.transactionSignatures with
    | none => simp [playsStep, hnext] at hstep
    | some next => exact h.parses hnext hstep

/-- Once nothing is left to parse, the rows are those of the history that was walked. -/
theorem Consistent.exact (h : s.Consistent parse) : s.Exact parse := by
  obtain ⟨newer, later, left, older, h⟩ := h
  intro txs htxs hnone
  have hpending := h.pending
  have hparsed : s.parsed = [] := by
    by_contra hne
    obtain ⟨batches, hnext, -⟩ := h.present hne
    rw [hnone] at hnext
    cases hnext
  have hnil : s.transactionSignatures.reverse.flatten = [] := by
    have hflat := flatten_eq_nil_of_nextBatch hnone
    simpa using hflat
  obtain ⟨hlater, hleft⟩ := List.append_eq_nil_iff.mp (hpending.symm.trans hnil)
  have hwalked := h.walked txs htxs
  have hrows := h.rows
  rw [hlater, hleft, hparsed] at hwalked
  rw [hparsed, List.nil_append] at hrows
  rw [← filterMap_filter_isPlay txs, hwalked]
  exact hrows

end PlaysIndexer

/-- In a run of finalized transactions, starts and failures whose starts are clean, the rows are at
all times that a run has completed the plays of the history visible to it, once each. -/
theorem plays_exact_of_clean_starts (history : History) (events : List PlaysEvent)
    (hclean : Along (playsStep parse) (StartsClean parse) (.start history) events) :
    ∀ done, done <+: events → (playsIndexer parse history done).Exact parse := by
  rintro done ⟨rest, rfl⟩
  apply PlaysIndexer.Consistent.exact
  apply replay_invariant (PlaysIndexer.Consistent parse)
  · exact fun _ _ _ hs hg hstep ↦ hs.step hg hstep
  · refine ⟨history.txs.filter (isPlay parse), [], [], [], ?_, rfl, ?_, .nil, ?_⟩
    · simp [PlaysIndexer.start]
    · simp [PlaysIndexer.start]
    · simp [PlaysIndexer.start]
  · exact (along_append.mp hclean).1

end Model

/-- The plays of a first run. -/
theorem plays_exact_of_first_run :
    (playsIndexer (fun _ ↦ some ()) ⟨[⟨"b", 2⟩, ⟨"a", 1⟩], by decide, by decide⟩
      [.starts 2, .parses]).Exact fun _ ↦ some () :=
  plays_exact_of_clean_starts _ [.starts 2, .parses]
    ⟨⟨fun _ hnext ↦ (nomatch hnext), fun _ hoffset ↦ (nomatch hoffset)⟩, trivial, trivial⟩
    [.starts 2, .parses] (List.prefix_refl _)

/-- A run that stops between the two slices of a page loses the play of the second. -/
theorem stopped_run_loses_play :
    ¬ (playsIndexer (fun _ ↦ some ()) onePerSlot101 [.starts 2, .parses, .starts 1]).Exact
      fun _ ↦ some () := by
  intro hexact
  have hwalked : (playsIndexer (fun _ ↦ some ()) onePerSlot101
      [.starts 2, .parses, .starts 1]).walked = some onePerSlot101.txs := by
    decide +kernel
  have hlength := (hexact _ hwalked (by decide +kernel)).length_eq
  revert hlength
  decide +kernel

end ColivingSpec.Solana
