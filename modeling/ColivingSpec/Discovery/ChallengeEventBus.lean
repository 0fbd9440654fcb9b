import Mathlib.Data.Int.Notation
import Mathlib.Data.List.Perm.Basic

/-!
# The challenge event bus

`challenge_event_bus.py`: handlers dispatch events to a queue in memory, which is flushed to a
Redis list at the end of the scope it is used in. A malformed event is dropped when it is
dispatched, and an event that cannot be pushed is dropped when it is flushed.
-/

namespace ColivingSpec.Discovery

open List

/-- `challenge_event_bus.py:33–37`. The dictionary of further data is kept as its text. -/
structure InternalEvent where
  event : String
  blockNumber : ℤ
  userId : ℤ
  extra : String
  deriving DecidableEq, Repr

/-- What a caller passes as the further data. -/
inductive Extra where
  | none
  | dict (text : String)
  | other
  deriving DecidableEq, Repr

/-- The arguments of a call of `dispatch`; one that is absent or of another type is `none`. -/
structure Dispatch where
  event : Option String
  blockNumber : Option ℤ
  userId : Option ℤ
  extra : Extra
  deriving DecidableEq, Repr

/-- `challenge_event_bus.py:94–114`: the event that is queued, unless it is malformed. -/
def Dispatch.toEvent (call : Dispatch) : Option InternalEvent :=
  match call.event, call.blockNumber, call.userId, call.extra with
  | some event, some blockNumber, some userId, .none =>
    some ⟨event, blockNumber, userId, "\x7b\x7d"⟩
  | some event, some blockNumber, some userId, .dict text =>
    some ⟨event, blockNumber, userId, text⟩
  | _, _, _, _ => none

/-- The queue in memory and the list in Redis, `challenges-event-queue`. -/
structure ChallengeEventBus where
  inMemoryQueue : List InternalEvent
  redisQueue : List InternalEvent
  deriving DecidableEq, Repr

namespace ChallengeEventBus

variable (bus : ChallengeEventBus) (pushes : ℕ → Bool)

/-- `challenge_event_bus.py:83–114`. -/
def dispatch (call : Dispatch) : ChallengeEventBus :=
  match call.toEvent with
  | some event => { bus with inMemoryQueue := bus.inMemoryQueue ++ [event] }
  | none => bus

variable (queue : List InternalEvent)

/-- The events of a queue that are pushed. The push of the event at position `i` answers when
`pushes i`; else it is logged and the event is gone. -/
def pushed : List InternalEvent :=
  (queue.zipIdx.filter fun event ↦ pushes event.2).map Prod.fst

/-- `challenge_event_bus.py:116–133`. -/
def flush : ChallengeEventBus where
  inMemoryQueue := []
  redisQueue := bus.redisQueue ++ pushed pushes bus.inMemoryQueue

/-- A list of calls queues the events that are not malformed, in their order. -/
theorem foldl_dispatch (calls : List Dispatch) :
    calls.foldl dispatch bus =
      { bus with inMemoryQueue := bus.inMemoryQueue ++ calls.filterMap Dispatch.toEvent } := by
  induction calls generalizing bus with
  | nil => simp
  | cons call calls ih =>
    rw [foldl_cons, ih]
    unfold dispatch
    cases hevent : call.toEvent with
    | none => rw [filterMap_cons_none hevent]
    | some event => simp [filterMap_cons_some hevent]

/-- All of a queue is pushed when, and only when, each push answers. -/
theorem pushed_perm_iff :
    (pushed pushes queue).Perm queue ↔ ∀ i < queue.length, pushes i = true := by
  constructor
  · intro hperm i hi
    have hlength : (queue.zipIdx.filter fun event ↦ pushes event.2).length
        = queue.zipIdx.length := by
      have := hperm.length_eq
      rwa [pushed, length_map, ← length_zipIdx (l := queue)] at this
    have hall := length_filter_eq_length_iff.mp hlength
    apply hall (queue[i], i)
    rw [mem_zipIdx_iff_getElem?]
    exact getElem?_eq_getElem hi
  · intro hall
    have hfilter : queue.zipIdx.filter (fun event ↦ pushes event.2) = queue.zipIdx := by
      apply filter_eq_self.mpr
      rintro ⟨event, i⟩ hmem
      obtain ⟨hi, -⟩ := List.getElem?_eq_some_iff.mp (mem_zipIdx_iff_getElem?.mp hmem)
      exact hall i hi
    rw [pushed, hfilter, zipIdx_map_fst]

/-- Nothing of a queue is pushed when, and only when, no push answers. -/
theorem pushed_eq_nil_iff :
    pushed pushes queue = [] ↔ ∀ i < queue.length, pushes i = false := by
  rw [pushed, map_eq_nil_iff, filter_eq_nil_iff]
  constructor
  · intro hnone i hi
    have := hnone (queue[i], i)
      (mem_zipIdx_iff_getElem?.mpr (getElem?_eq_getElem hi))
    simpa using this
  · rintro hnone ⟨event, i⟩ hmem
    obtain ⟨hi, -⟩ := List.getElem?_eq_some_iff.mp (mem_zipIdx_iff_getElem?.mp hmem)
    rw [hnone i hi]
    exact Bool.false_ne_true

end ChallengeEventBus

end ColivingSpec.Discovery
