import ColivingSpec.Discovery.IndexBlocks
import ColivingSpec.Lib.Replay

/-!
# The challenge events of the committed blocks

The queue is flushed when the scope of a pass is left, whether its session was committed or rolled
back. So Redis gets the events of the committed blocks, and of no others, as long as a pass that
fails has dispatched none before it does.
-/

namespace ColivingSpec.Discovery

open Lib

/-! ### One pass -/

/-- What is queued by the handlers in their order, up to one that raises. -/
def queued : List Handling → List InternalEvent
  | [] => []
  | handling :: rest =>
    handling.dispatches.filterMap Dispatch.toEvent
      ++ if handling.raised.isSome then [] else queued rest

variable (c : Circumstances) (indexer : Indexer)

variable (block : ChainBlock)

/-- What comes before the handlers. -/
def prepared : Except String (List Block) := do
  c.txReceipts
  c.cidMetadata
  addIndexedBlockToDb indexer.blocks block

/-- The events that the handlers of a pass dispatch. -/
def dispatchedEvents : List InternalEvent :=
  match c.contractAddresses, c.redisReads with
  | .ok addresses, .ok () =>
    if getTxHashToSkip indexer.indexingError = some "commit" then []
    else if (prepared c indexer block).isOk then
      queued (handlings c addresses (getTxHashToSkip indexer.indexingError) block)
    else []
  | _, _ => []

/-- Nothing that a pass meets raises before its session is committed, nor does the commit. -/
def Commits : Prop :=
  ∃ addresses, c.contractAddresses = .ok addresses ∧ c.redisReads = .ok () ∧
    (indexer.blocks.filter Block.isCurrent).length = 1 ∧ c.commit = .ok () ∧
    (getTxHashToSkip indexer.indexingError ≠ some "commit" →
      c.txReceipts = .ok () ∧ c.cidMetadata = .ok () ∧
        ∀ handling ∈ handlings c addresses (getTxHashToSkip indexer.indexingError) block,
          handling.raised = none)

theorem processStateChanges_bus (hs : List Handling) (bus : ChallengeEventBus) :
    (processStateChanges hs bus).1
      = { bus with inMemoryQueue := bus.inMemoryQueue ++ queued hs } := by
  induction hs generalizing bus with
  | nil => simp [processStateChanges, queued]
  | cons handling rest ih =>
    cases hraised : handling.raised with
    | some message =>
      simp [processStateChanges, queued, hraised, ChallengeEventBus.foldl_dispatch]
    | none =>
      simp [processStateChanges, queued, hraised, ChallengeEventBus.foldl_dispatch, ih]

theorem processStateChanges_eq_ok_iff (hs : List Handling) (bus : ChallengeEventBus) :
    (processStateChanges hs bus).2 = .ok () ↔ ∀ handling ∈ hs, handling.raised = none := by
  induction hs generalizing bus with
  | nil => simp [processStateChanges]
  | cons handling rest ih =>
    cases hraised : handling.raised with
    | some message => simp [processStateChanges, hraised]
    | none => simp [processStateChanges, hraised, ih]

variable (c : Circumstances) (indexer : Indexer) (bus : ChallengeEventBus) (block : ChainBlock)
  (skipTxHash : Option TxHash) (blocks : List Block)

variable (txhash : Option TxHash) (message : String)

theorem createAndRaiseIndexingError_bus :
    (createAndRaiseIndexingError c indexer bus block txhash message).1.bus
      = bus.flush c.pushes := by
  unfold createAndRaiseIndexingError
  split <;> rfl

theorem createAndRaiseIndexingError_blocks :
    (createAndRaiseIndexingError c indexer bus block txhash message).1.blocks = indexer.blocks := by
  unfold createAndRaiseIndexingError
  split <;> rfl

theorem commitBlock_bus :
    (commitBlock c skipTxHash indexer bus blocks block).1.bus = bus.flush c.pushes := by
  unfold commitBlock
  split
  · exact createAndRaiseIndexingError_bus ..
  · simp only
    split <;> rfl

theorem commitBlock_blocks :
    (commitBlock c skipTxHash indexer bus blocks block).1.blocks
      = if c.commit = .ok () then blocks else indexer.blocks := by
  unfold commitBlock
  split
  · next message hcommit =>
    rw [hcommit, if_neg (by simp)]
    exact createAndRaiseIndexingError_blocks ..
  · next hcommit =>
    rw [hcommit, if_pos rfl]
    split <;> rfl

variable (addresses : TxType → ChainAddress) {indexer : Indexer} {block : ChainBlock}

theorem addStateChanges_bus (skipTxHash : Option TxHash) (indexer : Indexer) (block : ChainBlock) :
    (addStateChanges c addresses skipTxHash indexer block).1 = { indexer.bus with
        inMemoryQueue := indexer.bus.inMemoryQueue ++
          if (prepared c indexer block).isOk then
            queued (handlings c addresses skipTxHash block) else [] } := by
  unfold addStateChanges prepared
  split
  · next message hprepared =>
    rw [hprepared]
    simp [Except.isOk, Except.toBool]
  · next blocks hprepared =>
    rw [hprepared]
    exact processStateChanges_bus ..

/-- The rows to commit are there when nothing was raised. -/
theorem addStateChanges_eq_ok (skipTxHash : Option TxHash) (indexer : Indexer) (block : ChainBlock)
    (blocks : List Block) :
    (addStateChanges c addresses skipTxHash indexer block).2 = .ok blocks ↔
      c.txReceipts = .ok () ∧ c.cidMetadata = .ok () ∧
        addIndexedBlockToDb indexer.blocks block = .ok blocks ∧
        ∀ handling ∈ handlings c addresses skipTxHash block, handling.raised = none := by
  rw [← processStateChanges_eq_ok_iff _ indexer.bus]
  unfold addStateChanges
  split
  · next message hprepared =>
    constructor
    · intro h
      cases h
    · rintro ⟨hreceipts, hmetadata, hadd, -⟩
      rw [hreceipts, hmetadata, ok_bind, ok_bind, hadd] at hprepared
      cases hprepared
  · next blocks' hprepared =>
    obtain ⟨⟨⟩, hreceipts, hprepared⟩ := bind_eq_ok.mp hprepared
    obtain ⟨⟨⟩, hmetadata, hadd⟩ := bind_eq_ok.mp hprepared
    simp only [hreceipts, hmetadata, hadd, true_and, Except.ok.injEq]
    cases (processStateChanges (handlings c addresses skipTxHash block) indexer.bus).2 with
    | error message => simp [Except.map]
    | ok u => simp [Except.map]

/-- The scopes of a pass flush what was dispatched in it, however they are left. -/
theorem indexBlock_bus {c : Circumstances} (hempty : indexer.bus.inMemoryQueue = []) :
    (indexBlock c indexer block).1.bus = ⟨[], indexer.bus.redisQueue ++
      ChallengeEventBus.pushed c.pushes (dispatchedEvents c indexer block)⟩ := by
  have hbus : indexer.bus = ⟨[], indexer.bus.redisQueue ++ []⟩ := by
    rw [List.append_nil, ← hempty]
  have hflush : indexer.bus.flush c.pushes = ⟨[], indexer.bus.redisQueue ++
      ChallengeEventBus.pushed c.pushes []⟩ := by
    rw [ChallengeEventBus.flush, hempty]
  unfold indexBlock dispatchedEvents
  cases haddresses : c.contractAddresses with
  | error message => exact hbus
  | ok addresses =>
    cases hreads : c.redisReads with
    | error message => exact hflush
    | ok u =>
      simp only
      split
      · split
        · exact hflush
        · rw [commitBlock_bus, hflush]
      · have hadd : (addStateChanges c addresses (getTxHashToSkip indexer.indexingError)
              indexer block).1.flush c.pushes = ⟨[], indexer.bus.redisQueue ++
            ChallengeEventBus.pushed c.pushes (if (prepared c indexer block).isOk then
              queued (handlings c addresses (getTxHashToSkip indexer.indexingError) block)
              else [])⟩ := by
          rw [addStateChanges_bus, ChallengeEventBus.flush, hempty, List.nil_append]
        rw [← hadd]
        split
        · next bus message hchanges =>
          rw [createAndRaiseIndexingError_bus, hchanges]
        · next bus blocks hchanges =>
          rw [commitBlock_bus, hchanges]

/-- The row of the block is added just when nothing raises up to the commit. -/
theorem indexBlock_blocks_of_commits {c : Circumstances} (h : Commits c indexer block) :
    (indexBlock c indexer block).1.blocks = indexer.blocks.map Block.demote ++ [block.row] := by
  obtain ⟨addresses, haddresses, hreads, hone, hcommit, hchanges⟩ := h
  have hadd := addIndexedBlockToDb_of_current block hone
  unfold indexBlock
  simp only [haddresses, hreads]
  split
  · rw [hadd]
    simp only [commitBlock_blocks, hcommit, if_true]
  · next hskip =>
    obtain ⟨hreceipts, hmetadata, hraised⟩ := hchanges hskip
    have hok := (addStateChanges_eq_ok c addresses (getTxHashToSkip indexer.indexingError) indexer
      block _).mpr ⟨hreceipts, hmetadata, hadd, hraised⟩
    split
    · next bus message heq =>
      rw [heq] at hok
      cases hok
    · next bus blocks heq =>
      rw [heq] at hok
      cases hok
      rw [commitBlock_blocks, if_pos hcommit]

/-- Else the table is as it was. -/
theorem indexBlock_blocks_of_not_commits {c : Circumstances} (h : ¬ Commits c indexer block) :
    (indexBlock c indexer block).1.blocks = indexer.blocks := by
  unfold indexBlock
  cases haddresses : c.contractAddresses with
  | error message => rfl
  | ok addresses =>
    cases hreads : c.redisReads with
    | error message => rfl
    | ok u =>
      simp only
      split
      · next hskip =>
        split
        · rfl
        · next blocks hadd =>
          rw [commitBlock_blocks]
          apply if_neg
          intro hcommit
          have hone := (addIndexedBlockToDb_eq_ok hadd).1
          exact h ⟨addresses, haddresses, hreads, hone, hcommit, fun hnot ↦ absurd hskip hnot⟩
      · split
        · exact createAndRaiseIndexingError_blocks ..
        · next bus blocks hchanges =>
          rw [commitBlock_blocks]
          apply if_neg
          intro hcommit
          have hok : (addStateChanges c addresses (getTxHashToSkip indexer.indexingError) indexer
              block).2 = .ok blocks := by rw [hchanges]
          obtain ⟨hreceipts, hmetadata, hadd, hraised⟩ :=
            (addStateChanges_eq_ok _ _ _ _ _ _).mp hok
          have hone := (addIndexedBlockToDb_eq_ok hadd).1
          exact h ⟨addresses, haddresses, hreads, hone, hcommit,
            fun _ ↦ ⟨hreceipts, hmetadata, hraised⟩⟩

/-- The table changes just when the session of the pass is committed. -/
theorem indexBlock_blocks_eq_iff :
    (indexBlock c indexer block).1.blocks = indexer.blocks ↔ ¬ Commits c indexer block := by
  constructor
  · intro heq h
    have hlength := congrArg List.length (heq.symm.trans (indexBlock_blocks_of_commits h))
    simp at hlength
  · exact indexBlock_blocks_of_not_commits

/-! ### Runs -/

/-- A run: what the loop reads and writes, the blocks that remain of the latest call with the next
one first, and the events dispatched in the passes whose sessions were committed. -/
structure Run where
  indexer : Indexer
  remaining : List ChainBlock
  committedEvents : List InternalEvent

/-- What happens in a run: `index_blocks` is called, or its loop makes a pass. -/
inductive Event where
  | call (blocksList : List ChainBlock)
  | pass (c : Circumstances)

variable (run : Run)

/-- `index.py:544–778`: the loop goes through the list from its end, and is left by a pass that
raises. -/
def step : Event → Except String Run
  | .call blocksList =>
    match run.remaining with
    | [] => .ok { run with remaining := blocksList.reverse }
    | _ :: _ => .error "The latest call has not returned"
  | .pass c =>
    match run.remaining with
    | [] => .error "The latest call has returned"
    | block :: rest =>
      let (indexer, outcome) := indexBlock c run.indexer block
      .ok {
        indexer := indexer
        remaining := if outcome.isOk then rest else []
        committedEvents := run.committedEvents ++
          if indexer.blocks = run.indexer.blocks then []
          else dispatchedEvents c run.indexer block }

/-- A run that starts on a table, with a record of a failure or none. -/
def start (blocks : List Block) (record : Option IndexingErrorRecord) : Run where
  indexer := ⟨blocks, ⟨[], []⟩, record⟩
  remaining := []
  committedEvents := []

/-- Redis got the events of the committed blocks, each once. -/
def EventsMatch : Prop :=
  run.indexer.bus.redisQueue.Perm run.committedEvents

/-- A pass that fails has dispatched no event that is pushed, and one that commits has every
event pushed. -/
def Sound : Event → Prop
  | .call _ => True
  | .pass c =>
    ∀ block rest, run.remaining = block :: rest →
      (¬ Commits c run.indexer block →
        ∀ i < (dispatchedEvents c run.indexer block).length, c.pushes i = false) ∧
      (Commits c run.indexer block →
        ∀ i < (dispatchedEvents c run.indexer block).length, c.pushes i = true)

/-- The queue in memory is empty between passes. -/
theorem step_inMemoryQueue (e : Event) (run' : Run) (h : run.indexer.bus.inMemoryQueue = [])
    (hstep : step run e = .ok run') :
    run'.indexer.bus.inMemoryQueue = [] := by
  cases e with
  | call blocksList =>
    simp only [step] at hstep
    split at hstep
    · cases hstep
      exact h
    · cases hstep
  | pass c =>
    simp only [step] at hstep
    split at hstep
    · cases hstep
    · cases hstep
      simp only [indexBlock_bus h]

/-- One step keeps the events matching just when it is sound. -/
theorem eventsMatch_attempt_iff (e : Event) (hempty : run.indexer.bus.inMemoryQueue = [])
    (hmatch : EventsMatch run) :
    EventsMatch (attempt step run e) ↔ Sound run e := by
  cases e with
  | call blocksList =>
    refine iff_of_true ?_ trivial
    unfold attempt step
    cases run.remaining with
    | nil => exact hmatch
    | cons block rest => exact hmatch
  | pass c =>
    cases hremaining : run.remaining with
    | nil =>
      refine iff_of_true ?_ ?_
      · simpa only [attempt, step, hremaining] using hmatch
      · intro block rest heq
        rw [hremaining] at heq
        cases heq
    | cons block rest =>
      have hrun : EventsMatch (attempt step run (.pass c)) ↔
          (ChallengeEventBus.pushed c.pushes (dispatchedEvents c run.indexer block)).Perm
            (if (indexBlock c run.indexer block).1.blocks = run.indexer.blocks then []
              else dispatchedEvents c run.indexer block) := by
        rw [EventsMatch, attempt, step, hremaining]
        rw [indexBlock_bus hempty]
        exact ((hmatch.append_right _).congr_left _).trans (List.perm_append_left_iff _)
      rw [hrun]
      by_cases hcommits : Commits c run.indexer block
      · rw [if_neg (fun heq ↦ (indexBlock_blocks_eq_iff ..).mp heq hcommits),
          ChallengeEventBus.pushed_perm_iff]
        constructor
        · intro hall block' rest' heq
          rw [hremaining] at heq
          cases heq
          exact ⟨fun hnot ↦ absurd hcommits hnot, fun _ ↦ hall⟩
        · intro hsound
          exact (hsound block rest hremaining).2 hcommits
      · rw [if_pos ((indexBlock_blocks_eq_iff ..).mpr hcommits), List.perm_nil,
          ChallengeEventBus.pushed_eq_nil_iff]
        constructor
        · intro hnone block' rest' heq
          rw [hremaining] at heq
          cases heq
          exact ⟨fun _ ↦ hnone, fun h ↦ absurd h hcommits⟩
        · intro hsound
          exact (hsound block rest hremaining).1 hcommits

/-- In every state of a run Redis got the events of the committed blocks, each once, just when
each pass is sound: one that fails has dispatched no event before, and one that commits has its
events pushed. -/
theorem eventsMatch_iff (blocks : List Block) (record : Option IndexingErrorRecord)
    (es : List Event) :
    (∀ fs, fs <+: es → EventsMatch (replay step (start blocks record) fs)) ↔
      Along step Sound (start blocks record) es := by
  apply prefixes_iff_along step_inMemoryQueue eventsMatch_attempt_iff
  · rfl
  · exact List.Perm.refl _

/-- A block of one transaction, to the user factory. -/
def oneUserUpdate : ChainBlock := ⟨"0xb1", "0xb0", 1, [⟨"0xt1", some "0xf1", 0⟩]⟩

/-- A pass in which the user handler dispatches an event for its transaction, and the commit
answers as given. -/
def profileUpdate (commit : Except String Unit) : Circumstances where
  sortOrderStartBlock := 0
  contractAddresses := .ok fun txType ↦ if txType = .userFactory then "0xf1" else "0xf2"
  redisReads := .ok ()
  txReceipts := .ok ()
  cidMetadata := .ok ()
  handlers txType txs :=
    { dispatches := if txType = .userFactory ∧ txs ≠ [] then
        [⟨some "profile_update", some 1, some 7, .none⟩] else []
      raised := none }
  commit := commit
  consensus := .ok false
  clearsError := .ok ()
  afterwards := .ok ()
  pushes _ := true

/-- The commit of the block fails and its event is pushed all the same; when the block is indexed
again the event is pushed a second time. -/
theorem events_not_matched :
    ¬ EventsMatch (replay step (start [⟨"0xb0", "0x0", some 0, true⟩] none)
        [.call [oneUserUpdate], .pass (profileUpdate (.error "deadlock detected"))]) ∧
      ¬ EventsMatch (replay step (start [⟨"0xb0", "0x0", some 0, true⟩] none)
        [.call [oneUserUpdate], .pass (profileUpdate (.error "deadlock detected")),
          .call [oneUserUpdate], .pass (profileUpdate (.ok ()))]) := by
  unfold EventsMatch
  decide +kernel

end ColivingSpec.Discovery
