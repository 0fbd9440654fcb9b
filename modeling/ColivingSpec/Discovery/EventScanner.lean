import ColivingSpec.Lib.Chunks
import Mathlib.Data.List.Induction
import Mathlib.Order.Lattice

/-!
# The Ethereum event scanner

`event_scanner.py` reads the transfer events of a range of blocks in chunks. A request that fails is
tried again on half the range, the size of the next chunk depends on the events of the last one, and
after each chunk the last block of it is saved. `index_eth.py` scans from some blocks before the last
saved one to the end that the scanner suggests.
-/

namespace ColivingSpec.Discovery

open List

namespace EventScanner

open Lib (between mem_between between_append Covers Contiguous)

/-- `event_scanner.py:27–45`. -/
def maxRequestRetries : ℕ := 30

def minScanChunkSize : ℕ := 10

def maxChunkScanSize : ℕ := 10000

def chunkSizeIncrease : ℕ := 2

def startChunkSize : ℕ := 20

def ethBlockTailOffset : ℤ := 1

def minScanStartBlock : ℤ := 11103292

/-- `index_eth.py:16`. -/
def chainReorgSafetyBlocks : ℤ := 10

/-- What the scanner itself reads of an event. -/
structure TransferEvent where
  logIndex : Option ℕ
  transactionHash : String
  blockNumber : ℤ
  deriving DecidableEq

/-- How a call of `save` ends. -/
inductive Saving where
  | saves
  | redisRaises
  | dbRaises
  deriving DecidableEq

/-- What a run finds: the last block of the chain, the logs of each block, and the calls that fail:
requests for logs by chunk and attempt, calls of `process_event` and of `save` by their number. -/
structure Env where
  latestChainBlock : ℤ
  logs : ℤ → List TransferEvent
  requestFails : ℕ → ℕ → Bool
  processFails : ℕ → Bool
  saving : ℕ → Saving

/-- What outlives a run: the last scanned block in redis and that in the database. -/
structure Store where
  redis : Option ℤ
  db : Option ℤ
  deriving DecidableEq

/-- `event_scanner.py:101–112`. -/
def Store.restore (s : Store) : ℤ :=
  match s.redis with
  | some restored => restored
  | none =>
    match s.db with
    | some restored => if restored ≠ 0 then restored else minScanStartBlock
    | none => minScanStartBlock

/-- `event_scanner.py:114–133`. The flag says that the call returns. -/
def Store.save (s : Store) (blockNumber : ℤ) : Saving → Store × Bool
  | .saves => (⟨some blockNumber, some blockNumber⟩, true)
  | .redisRaises => (s, false)
  | .dbRaises => (⟨some blockNumber, s.db⟩, false)

/-- `event_scanner.py:146–151`. -/
def Env.suggestedScanEndBlock (env : Env) : ℤ := env.latestChainBlock - ethBlockTailOffset

/-- The events of a range of blocks: `event_scanner.py:400–452`. -/
def Env.getLogs (env : Env) (fromBlock toBlock : ℤ) : List TransferEvent :=
  (between fromBlock toBlock).flatMap env.logs

/-- `event_scanner.py:353–397`, from an attempt on with the given number of retries left: the end of
the range that was answered. -/
def retryWeb3Call (fails : ℕ → Bool) (startBlock : ℤ) : ℕ → ℕ → ℤ → Option ℤ
  | 0, _, _ => none
  | retries + 1, i, endBlock =>
    if fails i then retryWeb3Call fails startBlock retries (i + 1)
      (startBlock + (endBlock - startBlock) / 2)
    else some endBlock

/-- The loop over the events of a chunk, from a number of call of `process_event` on:
`event_scanner.py:240–259`. -/
def processEvents (env : Env) : ℕ → List TransferEvent → Option (List TransferEvent)
  | _, [] => some []
  | i, evt :: events =>
    if evt.logIndex = none then none
    else if env.processFails i then none
    else (processEvents env (i + 1) events).map (evt :: ·)

/-- `event_scanner.py:203–261`. -/
def scanChunk (env : Env) (chunk processed : ℕ) (startBlock endBlock : ℤ) :
    Option (ℤ × List TransferEvent) := do
  let endBlock ← retryWeb3Call (env.requestFails chunk) startBlock maxRequestRetries 0 endBlock
  let allProcessed ← processEvents env processed (env.getLogs startBlock endBlock)
  return (endBlock, allProcessed)

/-- `event_scanner.py:263–291`. -/
def estimateNextChunkSize (currentChunkSize eventFoundCount : ℕ) : ℕ :=
  let currentChunkSize :=
    if 0 < eventFoundCount then minScanChunkSize else currentChunkSize * chunkSizeIncrease
  min maxChunkScanSize (max minScanChunkSize currentChunkSize)

/-- A scan that goes on: the chunks scanned, the events passed to processing, and what is saved. -/
structure Progress where
  store : Store
  chunks : List (ℤ × ℤ)
  allProcessed : List TransferEvent

/-- One round of the loop: the next block, the next size of a chunk, and the progress; or the progress
when an exception is raised. -/
def scanNext (env : Env) (currentBlock : ℤ) (chunkSize : ℕ) (p : Progress) :
    Except Progress (ℤ × ℕ × Progress) :=
  let estimatedEndBlock := min (currentBlock + chunkSize) env.suggestedScanEndBlock
  match scanChunk env p.chunks.length p.allProcessed.length currentBlock estimatedEndBlock with
  | none => .error p
  | some (currentEnd, newEntries) =>
    let saved := p.store.save (min currentEnd env.suggestedScanEndBlock)
      (env.saving p.chunks.length)
    let p := ⟨saved.1, p.chunks ++ [(currentBlock, currentEnd)], p.allProcessed ++ newEntries⟩
    if saved.2 then
      .ok (currentEnd + 1, estimateNextChunkSize chunkSize newEntries.length, p)
    else .error p

/-- How a scan stands after a number of rounds. -/
inductive Exit where
  | returned
  | raised
  | running
  deriving DecidableEq

/-- `event_scanner.py:293–350`, for at most the given number of rounds. -/
def scan (env : Env) (endBlock : ℤ) : ℕ → ℤ → ℕ → Progress → Progress × Exit
  | 0, currentBlock, _, p =>
    if currentBlock ≤ endBlock then (p, .running) else (p, .returned)
  | rounds + 1, currentBlock, chunkSize, p =>
    if currentBlock ≤ endBlock then
      match scanNext env currentBlock chunkSize p with
      | .error p => (p, .raised)
      | .ok (currentBlock, chunkSize, p) => scan env endBlock rounds currentBlock chunkSize p
    else (p, .returned)

/-- As many rounds as there are blocks. -/
def enoughRounds (startBlock endBlock : ℤ) : ℕ := (endBlock + 1 - startBlock).toNat

/-- `index_eth.py:37–77`: what is saved, and the chunks scanned. -/
def indexEthTransferEvents (env : Env) (s : Store) : Store × List (ℤ × ℤ) :=
  let sinceBlock := s.restore - chainReorgSafetyBlocks
  let startBlock := max sinceBlock 0
  let endBlock := env.suggestedScanEndBlock
  if startBlock > endBlock then (s, [])
  else
    let scanned := scan env endBlock (enoughRounds startBlock endBlock) startBlock startChunkSize
      ⟨s, [], []⟩
    match scanned.2 with
    | .returned =>
      ((scanned.1.store.save endBlock (env.saving scanned.1.chunks.length)).1, scanned.1.chunks)
    | _ => (scanned.1.store, scanned.1.chunks)

/-- What happens: a run of the task, or redis loses its keys. -/
inductive Event where
  | indexes (env : Env)
  | redisLoses

/-- What is saved, and all chunks scanned so far. -/
structure History where
  store : Store
  scanned : List (ℤ × ℤ)

def History.apply (h : History) : Event → History
  | .indexes env =>
    ⟨(indexEthTransferEvents env h.store).1,
      h.scanned ++ (indexEthTransferEvents env h.store).2⟩
  | .redisLoses => ⟨⟨none, h.store.db⟩, h.scanned⟩

/-- The history from an empty store on. -/
def historyOf (events : List Event) : History := events.foldl History.apply ⟨⟨none, none⟩, []⟩

variable {env : Env}

/-! ### One chunk -/

variable {startBlock : ℤ} {i : ℕ} {endBlock currentBlock : ℤ} {scanned : List (ℤ × ℤ)} {s : Store}

/-- The range that is answered begins at the start, and its end is not moved beyond the given one. -/
theorem retryWeb3Call_bounds {fails : ℕ → Bool} {retries : ℕ} {answered : ℤ}
    (hle : startBlock ≤ endBlock)
    (h : retryWeb3Call fails startBlock retries i endBlock = some answered) :
    startBlock ≤ answered ∧ answered ≤ endBlock := by
  induction retries generalizing i endBlock with
  | zero => cases h
  | succ retries ih =>
    unfold retryWeb3Call at h
    split at h
    · have hbounds := ih (by omega) h
      omega
    · cases h
      exact ⟨hle, le_refl _⟩

/-- One attempt that does not fail is enough. -/
theorem exists_retryWeb3Call {fails : ℕ → Bool} (startBlock : ℤ) {retries : ℕ} (endBlock : ℤ)
    (h : ∃ attempt, i ≤ attempt ∧ attempt < i + retries ∧ fails attempt = false) :
    ∃ answered, retryWeb3Call fails startBlock retries i endBlock = some answered := by
  induction retries generalizing i endBlock with
  | zero =>
    omega
  | succ retries ih =>
    unfold retryWeb3Call
    by_cases hfails : fails i = true
    · rw [if_pos hfails]
      apply ih
      obtain ⟨attempt, hge, hlt, hok⟩ := h
      refine ⟨attempt, ?_, ?_, hok⟩
      · rcases Nat.lt_or_ge i attempt with hi | hi
        · exact hi
        · have hi : i = attempt := by omega
          rw [hi, hok] at hfails
          cases hfails
      · omega
    · rw [if_neg hfails]
      exact ⟨endBlock, rfl⟩

/-- Events that are processed are processed in their order. -/
theorem processEvents_eq_some {events processed : List TransferEvent}
    (h : processEvents env i events = some processed) : processed = events := by
  induction events generalizing i processed with
  | nil =>
    cases h
    rfl
  | cons evt events ih =>
    unfold processEvents at h
    split at h
    · cases h
    · split at h
      · cases h
      · obtain ⟨rest, hrest, rfl⟩ := Option.map_eq_some_iff.mp h
        rw [ih hrest]

/-- A chunk that is scanned begins at its start, ends at most at its end, and all of its events have
been processed. -/
theorem scanChunk_eq_some {chunk processed : ℕ} {actualEnd : ℤ} {entries : List TransferEvent}
    (hle : startBlock ≤ endBlock)
    (h : scanChunk env chunk processed startBlock endBlock = some (actualEnd, entries)) :
    startBlock ≤ actualEnd ∧ actualEnd ≤ endBlock ∧ entries = env.getLogs startBlock actualEnd := by
  obtain ⟨answered, hanswered, hrest⟩ := Option.bind_eq_some_iff.mp h
  obtain ⟨events, hevents, hpair⟩ := Option.bind_eq_some_iff.mp hrest
  cases hpair
  obtain ⟨hstart, hend⟩ := retryWeb3Call_bounds hle hanswered
  exact ⟨hstart, hend, processEvents_eq_some hevents⟩

/-! ### The loop -/

/-- The progress after a chunk whose last block is given: it is recorded before it is known whether
the call of `save` returns. -/
def Progress.extend (env : Env) (p : Progress) (currentBlock currentEnd : ℤ) : Progress :=
  ⟨(p.store.save currentEnd (env.saving p.chunks.length)).1, p.chunks ++ [(currentBlock, currentEnd)],
    p.allProcessed ++ env.getLogs currentBlock currentEnd⟩

/-- A round raises and leaves the progress as it was, or scans a chunk from the current block on. -/
theorem scanNext_cases (hle : currentBlock ≤ env.suggestedScanEndBlock) (chunkSize : ℕ)
    (p : Progress) :
    scanNext env currentBlock chunkSize p = .error p ∨
      ∃ currentEnd size, currentBlock ≤ currentEnd ∧
        (scanNext env currentBlock chunkSize p = .error (p.extend env currentBlock currentEnd) ∨
          scanNext env currentBlock chunkSize p =
            .ok (currentEnd + 1, size, p.extend env currentBlock currentEnd)) := by
  unfold scanNext
  dsimp only
  cases hchunk : scanChunk env p.chunks.length p.allProcessed.length currentBlock
      (min (currentBlock + chunkSize) env.suggestedScanEndBlock) with
  | none => exact .inl rfl
  | some chunk =>
    obtain ⟨currentEnd, newEntries⟩ := chunk
    obtain ⟨hstart, hend, rfl⟩ := scanChunk_eq_some (by omega) hchunk
    refine .inr ⟨currentEnd, estimateNextChunkSize chunkSize
      (env.getLogs currentBlock currentEnd).length, hstart, ?_⟩
    have hmin : min currentEnd env.suggestedScanEndBlock = currentEnd := by omega
    simp only [hmin]
    split
    · exact .inr rfl
    · exact .inl rfl

/-- What every chunk preserves holds of the progress that a scan ends with, however it ends; and it
does end, behind the end block if it returns. -/
theorem scan_invariant (I : ℤ → Progress → Prop) (hend : endBlock ≤ env.suggestedScanEndBlock)
    (hstep : ∀ currentBlock currentEnd p, I currentBlock p → currentBlock ≤ currentEnd →
      I (currentEnd + 1) (p.extend env currentBlock currentEnd)) {rounds : ℕ} (chunkSize : ℕ)
    {p : Progress} (hp : I currentBlock p) (hrounds : enoughRounds currentBlock endBlock ≤ rounds) :
    ∃ nextBlock, I nextBlock (scan env endBlock rounds currentBlock chunkSize p).1 ∧
      (scan env endBlock rounds currentBlock chunkSize p).2 ≠ .running ∧
      ((scan env endBlock rounds currentBlock chunkSize p).2 = .returned →
        endBlock < nextBlock) := by
  unfold enoughRounds at hrounds
  induction rounds generalizing currentBlock chunkSize p with
  | zero =>
    have hover : ¬ currentBlock ≤ endBlock := by omega
    unfold scan
    rw [if_neg hover]
    exact ⟨currentBlock, hp, Exit.noConfusion, fun _ ↦ by omega⟩
  | succ rounds ih =>
    unfold scan
    by_cases hover : currentBlock ≤ endBlock
    · rw [if_pos hover]
      rcases scanNext_cases (le_trans hover hend) chunkSize p with
        hraised | ⟨currentEnd, size, hle, hraised | hok⟩
      · rw [hraised]
        exact ⟨currentBlock, hp, Exit.noConfusion, Exit.noConfusion⟩
      · rw [hraised]
        exact ⟨currentEnd + 1, hstep _ _ _ hp hle, Exit.noConfusion, Exit.noConfusion⟩
      · rw [hok]
        apply ih size (hstep _ _ _ hp hle)
        omega
    · rw [if_neg hover]
      exact ⟨currentBlock, hp, Exit.noConfusion, fun _ ↦ by omega⟩

/-- Every request for logs is answered within the retries, and no other call fails. -/
structure Env.Healthy (env : Env) : Prop where
  answers : ∀ chunk, ∃ attempt < maxRequestRetries, env.requestFails chunk attempt = false
  mined : ∀ block, ∀ evt ∈ env.logs block, evt.logIndex ≠ none
  processes : ∀ i, env.processFails i = false
  saves : ∀ i, env.saving i = .saves

theorem Env.Healthy.processEvents (h : env.Healthy) (i : ℕ) {events : List TransferEvent}
    (hmined : ∀ evt ∈ events, evt.logIndex ≠ none) :
    EventScanner.processEvents env i events = some events := by
  induction events generalizing i with
  | nil => rfl
  | cons evt events ih =>
    have hnot : ¬ env.processFails i = true := by
      rw [h.processes]
      exact Bool.false_ne_true
    unfold EventScanner.processEvents
    rw [if_neg (hmined evt mem_cons_self), if_neg hnot,
      ih (i + 1) fun evt' hevt' ↦ hmined evt' (mem_cons_of_mem evt hevt')]
    rfl

theorem Env.Healthy.scanNext (h : env.Healthy) (currentBlock : ℤ) (chunkSize : ℕ) (p : Progress) :
    ∃ next, EventScanner.scanNext env currentBlock chunkSize p = .ok next := by
  obtain ⟨attempt, hlt, hanswers⟩ := h.answers p.chunks.length
  have hattempt : ∃ attempt, 0 ≤ attempt ∧ attempt < 0 + maxRequestRetries ∧
      env.requestFails p.chunks.length attempt = false :=
    ⟨attempt, Nat.zero_le attempt, by omega, hanswers⟩
  obtain ⟨answered, hanswered⟩ := exists_retryWeb3Call currentBlock
    (min (currentBlock + chunkSize) env.suggestedScanEndBlock) hattempt
  have hmined : ∀ evt ∈ env.getLogs currentBlock answered, evt.logIndex ≠ none := by
    intro evt hevt
    obtain ⟨block, -, hmem⟩ := mem_flatMap.mp hevt
    exact h.mined block evt hmem
  have hprocessed := h.processEvents p.allProcessed.length hmined
  have hchunk : scanChunk env p.chunks.length p.allProcessed.length currentBlock
      (min (currentBlock + chunkSize) env.suggestedScanEndBlock) =
      some (answered, env.getLogs currentBlock answered) := by
    unfold scanChunk
    rw [hanswered]
    show (EventScanner.processEvents env p.allProcessed.length
      (env.getLogs currentBlock answered)).bind (fun entries ↦ some (answered, entries)) = _
    rw [hprocessed]
    rfl
  unfold EventScanner.scanNext
  simp only [hchunk, h.saves]
  exact ⟨_, rfl⟩

/-- In a run in which calls do not fail a scan does not raise. -/
theorem Env.Healthy.scan_ne_raised (h : env.Healthy) (endBlock : ℤ) (rounds : ℕ) (currentBlock : ℤ)
    (chunkSize : ℕ) (p : Progress) :
    (scan env endBlock rounds currentBlock chunkSize p).2 ≠ .raised := by
  induction rounds generalizing currentBlock chunkSize p with
  | zero =>
    unfold scan
    split
    · exact Exit.noConfusion
    · exact Exit.noConfusion
  | succ rounds ih =>
    unfold scan
    split
    · obtain ⟨⟨nextBlock, size, next⟩, hnext⟩ := h.scanNext currentBlock chunkSize p
      rw [hnext]
      exact ih nextBlock size next
    · exact Exit.noConfusion

/-- The chunks scanned so far reach up to the next block, and their events have been processed. -/
structure Reached (env : Env) (startBlock nextBlock : ℤ) (p : Progress) : Prop where
  contiguous : Contiguous startBlock p.chunks nextBlock
  processed : p.allProcessed = env.getLogs startBlock (nextBlock - 1)

theorem Reached.extend {currentEnd : ℤ} {p : Progress} (h : Reached env startBlock currentBlock p)
    (hle : currentBlock ≤ currentEnd) :
    Reached env startBlock (currentEnd + 1) (p.extend env currentBlock currentEnd) := by
  refine ⟨h.contiguous.concat hle, ?_⟩
  have hstart := h.contiguous.le
  have hbetween : between startBlock (currentBlock - 1) ++ between currentBlock currentEnd =
      between startBlock currentEnd := by
    have happend := @between_append startBlock (currentBlock - 1) currentEnd (by omega) (by omega)
    rwa [Int.sub_add_cancel] at happend
  show p.allProcessed ++ env.getLogs currentBlock currentEnd =
    env.getLogs startBlock (currentEnd + 1 - 1)
  rw [h.processed, Int.add_sub_cancel]
  unfold Env.getLogs
  rw [← flatMap_append, hbetween]

theorem reached_start (env : Env) (s : Store) (startBlock : ℤ) :
    Reached env startBlock startBlock ⟨s, [], []⟩ := by
  refine ⟨rfl, ?_⟩
  unfold Env.getLogs
  rw [Lib.between_eq_nil (by omega)]
  rfl

/-! ### Runs of the task -/

/-- From the first block that the first run scans up to the given one, every block is scanned. -/
def ScannedUpTo (scanned : List (ℤ × ℤ)) (b : ℤ) : Prop :=
  ∀ n, minScanStartBlock - chainReorgSafetyBlocks ≤ n → n ≤ b → Covers scanned n

/-- What is saved has been scanned. -/
def SavedScanned (scanned : List (ℤ × ℤ)) (s : Store) : Prop :=
  ∀ b, s.redis = some b ∨ s.db = some b → ScannedUpTo scanned b

theorem ScannedUpTo.append_left {b : ℤ} (h : ScannedUpTo scanned b) (more : List (ℤ × ℤ)) :
    ScannedUpTo (scanned ++ more) b :=
  fun n hmin hn ↦ (h n hmin hn).append_left more

theorem SavedScanned.append_left (h : SavedScanned scanned s) (more : List (ℤ × ℤ)) :
    SavedScanned (scanned ++ more) s :=
  fun b hb ↦ (h b hb).append_left more

/-- Saving a block up to which all is scanned keeps the rule, however the call ends. -/
theorem SavedScanned.save (h : SavedScanned scanned s) {b : ℤ} (hb : ScannedUpTo scanned b)
    (saving : Saving) :
    SavedScanned scanned (s.save b saving).1 := by
  cases saving with
  | saves =>
    rintro _ (⟨⟨⟩⟩ | ⟨⟨⟩⟩)
    · exact hb
    · exact hb
  | redisRaises => exact h
  | dbRaises =>
    rintro b' (⟨⟨⟩⟩ | hdb)
    · exact hb
    · exact h b' (.inr hdb)

/-- The blocks before the start of a run have been scanned. -/
theorem SavedScanned.restore (h : SavedScanned scanned s) :
    ScannedUpTo scanned (max (s.restore - chainReorgSafetyBlocks) 0 - 1) := by
  have hsaved : ∀ b, s.redis = some b ∨ s.db = some b →
      ScannedUpTo scanned (max (b - chainReorgSafetyBlocks) 0 - 1) := by
    intro b hb n hmin hn
    apply h b hb n hmin
    unfold chainReorgSafetyBlocks minScanStartBlock at *
    omega
  have hfirst : ScannedUpTo scanned (max (minScanStartBlock - chainReorgSafetyBlocks) 0 - 1) := by
    intro n hmin hn
    unfold chainReorgSafetyBlocks minScanStartBlock at *
    omega
  unfold Store.restore
  cases hredis : s.redis with
  | some b => exact hsaved b (.inl hredis)
  | none =>
    cases hdb : s.db with
    | none => exact hfirst
    | some b =>
      dsimp only
      split
      · exact hsaved b (.inr hdb)
      · exact hfirst

/-- A run of the task keeps the rule. -/
theorem SavedScanned.indexEthTransferEvents (h : SavedScanned scanned s) (env : Env) :
    SavedScanned (scanned ++ (indexEthTransferEvents env s).2)
      (indexEthTransferEvents env s).1 := by
  unfold EventScanner.indexEthTransferEvents
  dsimp only
  split
  · rw [append_nil]
    exact h
  · obtain ⟨nextBlock, ⟨hsaved, hscanned⟩, -, hreturned⟩ := scan_invariant
      (fun nextBlock p ↦ SavedScanned (scanned ++ p.chunks) p.store ∧
        ScannedUpTo (scanned ++ p.chunks) (nextBlock - 1))
      (le_refl env.suggestedScanEndBlock) (fun currentBlock currentEnd p hp hle ↦ by
        have hscanned : ScannedUpTo (scanned ++ (p.extend env currentBlock currentEnd).chunks)
            currentEnd := by
          intro n hmin hn
          show Covers (scanned ++ (p.chunks ++ [(currentBlock, currentEnd)])) n
          rw [← append_assoc]
          by_cases hbefore : n ≤ currentBlock - 1
          · exact (hp.2 n hmin hbefore).append_left _
          · exact ⟨(currentBlock, currentEnd), mem_append_right _ mem_cons_self,
              by omega, hn⟩
        have hsaved : SavedScanned (scanned ++ (p.extend env currentBlock currentEnd).chunks)
            p.store := by
          show SavedScanned (scanned ++ (p.chunks ++ [(currentBlock, currentEnd)])) p.store
          rw [← append_assoc]
          exact hp.1.append_left _
        rw [Int.add_sub_cancel]
        exact ⟨hsaved.save hscanned _, hscanned⟩)
      startChunkSize
      (p := ⟨s, [], []⟩)
      ⟨by rw [append_nil]; exact h, by rw [append_nil]; exact h.restore⟩ (le_refl _)
    split
    · next hexit =>
      apply hsaved.save
      intro n hmin hn
      apply hscanned n hmin
      have := hreturned hexit
      omega
    · exact hsaved

theorem savedScanned_historyOf (events : List Event) :
    SavedScanned (historyOf events).scanned (historyOf events).store := by
  induction events using reverseRecOn with
  | nil => rintro b (⟨⟨⟩⟩ | ⟨⟨⟩⟩)
  | append_singleton events e ih =>
    unfold historyOf
    rw [foldl_append]
    cases e with
    | indexes env => exact ih.indexEthTransferEvents env
    | redisLoses =>
      rintro b (⟨⟨⟩⟩ | hdb)
      exact ih b (.inr hdb)

/-- A chain whose last block is given, without events, and without calls that fail. -/
def quietEnv (latestChainBlock : ℤ) : Env :=
  ⟨latestChainBlock, fun _ ↦ [], fun _ _ ↦ false, fun _ ↦ false, fun _ ↦ .saves⟩

/-- A chain with one event, where the first request for logs fails. -/
def rockyEnv : Env :=
  ⟨11103300, fun block ↦ if block = 11103295 then [⟨some 0, "0x1f", block⟩] else [],
    fun chunk attempt ↦ decide (chunk = 0 ∧ attempt = 0), fun _ ↦ false, fun _ ↦ .saves⟩

theorem healthy_rockyEnv : rockyEnv.Healthy := by
  refine ⟨?_, ?_, fun _ ↦ rfl, fun _ ↦ rfl⟩
  · intro chunk
    refine ⟨1, by decide, decide_eq_false ?_⟩
    omega
  · intro block evt hevt
    dsimp only [rockyEnv] at hevt
    split at hevt
    · rw [mem_singleton.mp hevt]
      exact Option.some_ne_none 0
    · cases hevt

/-- An end block that the scanner does not suggest is never reached. -/
theorem scan_quietEnv_running (rounds chunkSize : ℕ) (currentBlock : ℤ)
    (hcurrent : currentBlock = 5) (p : Progress) :
    (scan (quietEnv 5) 5 rounds currentBlock chunkSize p).2 = .running := by
  subst hcurrent
  induction rounds generalizing chunkSize p with
  | zero => rfl
  | succ rounds ih =>
    have hmin : min ((5 : ℤ) + chunkSize) 4 = 4 := by omega
    have hnext : ∃ size p', scanNext (quietEnv 5) 5 chunkSize p = .ok (5, size, p') := by
      unfold scanNext
      simp only [show (quietEnv 5).suggestedScanEndBlock = 4 from rfl, hmin]
      exact ⟨_, _, rfl⟩
    obtain ⟨size, p', hnext⟩ := hnext
    unfold scan
    rw [if_pos (le_refl 5), hnext]
    exact ih size p'

end EventScanner

open EventScanner in
/-- With an end that the scanner suggests, or an earlier one, a scan ends, whatever fails; when calls
do not fail for good, its chunks follow each other from the start to beyond the end, and their events
are processed in order, once. After any runs of the task every block from ten blocks before the first
start up to a saved one has been scanned. -/
theorem scan_covers_saved_scanned :
    (∀ (env : Env) (s : Store) (startBlock endBlock : ℤ) (chunkSize rounds : ℕ),
      endBlock ≤ env.suggestedScanEndBlock → enoughRounds startBlock endBlock ≤ rounds →
      (scan env endBlock rounds startBlock chunkSize ⟨s, [], []⟩).2 ≠ .running ∧
        (env.Healthy → ∃ p nextBlock,
          scan env endBlock rounds startBlock chunkSize ⟨s, [], []⟩ = (p, .returned) ∧
            Lib.Contiguous startBlock p.chunks nextBlock ∧ endBlock < nextBlock ∧
            p.allProcessed = env.getLogs startBlock (nextBlock - 1))) ∧
      ∀ (events : List EventScanner.Event) (b : ℤ),
        (historyOf events).store.redis = some b ∨ (historyOf events).store.db = some b →
        ∀ n, minScanStartBlock - chainReorgSafetyBlocks ≤ n → n ≤ b →
          Lib.Covers (historyOf events).scanned n := by
  refine ⟨?_, savedScanned_historyOf⟩
  intro env s startBlock endBlock chunkSize rounds hend hrounds
  obtain ⟨nextBlock, hreached, hended, hreturned⟩ := scan_invariant (Reached env startBlock) hend
    (fun _ _ _ hp hle ↦ hp.extend hle) chunkSize (reached_start env s startBlock) hrounds
  refine ⟨hended, fun hhealthy ↦ ?_⟩
  have hnot := hhealthy.scan_ne_raised endBlock rounds startBlock chunkSize ⟨s, [], []⟩
  generalize scan env endBlock rounds startBlock chunkSize ⟨s, [], []⟩ = result at *
  obtain ⟨p, exit⟩ := result
  cases exit with
  | raised => exact absurd rfl hnot
  | running => exact absurd rfl hended
  | returned => exact ⟨p, nextBlock, rfl, hreached.contiguous, hreturned rfl, hreached.processed⟩

open EventScanner in
/-- A scan of the last blocks of a chain, and the first run of the task. -/
theorem scan_covers_saved_scanned_first :
    (∃ p nextBlock, scan rockyEnv 11103299 20 11103282 startChunkSize ⟨⟨none, none⟩, [], []⟩ =
        (p, .returned) ∧
      Lib.Contiguous 11103282 p.chunks nextBlock ∧ 11103299 < nextBlock ∧
      p.allProcessed = rockyEnv.getLogs 11103282 (nextBlock - 1)) ∧
    Lib.Covers (historyOf [.indexes rockyEnv]).scanned 11103290 :=
  ⟨(scan_covers_saved_scanned.1 rockyEnv ⟨none, none⟩ 11103282 11103299 startChunkSize 20
      (by decide) (by decide)).2 healthy_rockyEnv,
    scan_covers_saved_scanned.2 [.indexes rockyEnv] 11103299 (.inl (by decide +kernel)) 11103290
      (by decide) (by decide)⟩

open EventScanner in
/-- A scan of the last block of the chain runs on for any number of rounds, and after the first run of
the task blocks before the saved one have not been scanned. -/
theorem scan_last_running_first_not_covered :
    (∀ rounds, (scan (quietEnv 5) 5 rounds 5 startChunkSize ⟨⟨none, none⟩, [], []⟩).2 = .running) ∧
      (historyOf [.indexes (quietEnv 11103300)]).store.redis = some 11103299 ∧
      ¬ Lib.Covers (historyOf [.indexes (quietEnv 11103300)]).scanned 11103281 :=
  ⟨fun rounds ↦ scan_quietEnv_running rounds startChunkSize 5 rfl _, by decide +kernel,
    by decide +kernel⟩

end ColivingSpec.Discovery
