import Mathlib.Order.Nat
import ColivingSpec.Lib.Replay

/-!
# The notification jobs

The two job loops of the identity service that index notifications (`notifications/index.js`),
one by blocks and one by Solana slots, with the process-wide buffers of
`notificationQueue.js`. The loops are alike and run side by side; every awaited call is a step
and may fail. What the handlers of the single notifications do inside the database transaction
is taken as a whole: it publishes messages, and it commits with the block numbers of the
actions it stored, or it fails.
-/

namespace ColivingSpec

open Lib

namespace Notifications

/-- The two loops. -/
inductive Kind where
  | blocks
  | slots
  deriving DecidableEq

inductive DeviceType where
  | mobile
  | browser
  deriving DecidableEq

/-- An entry of a buffer, `notificationQueue.js:28–33`, with the transaction it came from. -/
structure BufferObj where
  userId : ℕ
  message : String
  title : Option String
  playSound : Bool
  types : List DeviceType
  tx : ℕ
  deriving DecidableEq

/-- `minBlock` or `minSlot` of a job. What was read from Redis is a string. -/
structure Minimum where
  value : ℕ
  isString : Bool
  deriving DecidableEq

/-- The call a job waits for. -/
inductive Stage where
  | getMax
  | getNotifications
  | transaction (maximum : ℕ)
  | indexing (tx maximum : ℕ)
  | rollback (maximum : ℕ)
  | drain (maximum next : ℕ)
  | setMax (maximum : Minimum)
  | setSuccess (maximum : Minimum)
  | addNext (maximum : Minimum)
  | addSame
  deriving DecidableEq

/-- A job that is processed. -/
structure Job where
  minimum : Minimum
  stage : Stage
  deriving DecidableEq

/-- What belongs to one loop: `maxBlockNumber` or `maxSlot` in Redis, the jobs waiting and the one
processed, the buffer, and the block numbers in the table of actions. -/
structure Queue where
  cached : Option ℕ
  jobs : List Minimum
  running : Option Job
  buffer : List BufferObj
  actions : List ℕ

/-- A range whose transaction committed. -/
structure Batch where
  kind : Kind
  tx : ℕ
  low : ℕ
  high : ℕ

/-- The service, what is stored, and the push messages sent. -/
structure Service where
  queue : Kind → Queue
  committed : List Batch
  nextTx : ℕ
  sent : List (BufferObj × DeviceType)

/-- `notificationStartBlock`, `solanaNotificationStartSlot` and `minSolanaNotificationSlot`. -/
structure Config where
  start : Kind → ℕ
  minSolanaNotificationSlot : ℕ

/-- What a call returns. One that fails may have been carried out. -/
inductive Answer where
  | ok
  | fails (applied : Bool)
  | maximum (maximum : ℕ)
  | publishes (buffer : Kind) (bufferObj : BufferObj)
  | commits (actions : List ℕ)
  | commitFails (applied : Bool) (actions : List ℕ)

/-- `minBlock < oldMaxBlockNumber`: two strings are compared as strings. -/
def Minimum.before (minimum : Minimum) : Option ℕ → Bool
  | none => false
  | some old =>
    if minimum.isString then decide (toString minimum.value < toString old)
    else decide (minimum.value < old)

/-- `index.js:128`, `180`. -/
def Config.minimum (c : Config) : Kind → Minimum → Minimum
  | .blocks, minimum => minimum
  | .slots, minimum => ⟨max c.minSolanaNotificationSlot minimum.value, false⟩

/-- `utils.js:143–164`: `getHighestBlockNumber` and `getHighestSlot`. -/
def Config.getHighest (c : Config) (k : Kind) (q : Queue) : ℕ :=
  match q.actions.max? with
  | none | some 0 => c.start k
  | some highest => highest

/-- `notificationQueue.js:27–43`. -/
def addNotificationToBuffer (buffer : List BufferObj) (bufferObj : BufferObj) : List BufferObj :=
  if buffer.any fun entry ↦ entry.userId = bufferObj.userId ∧ entry.message = bufferObj.message ∧
      entry.title = bufferObj.title then buffer
  else buffer ++ [bufferObj]

/-- What is sent for an entry, `notificationQueue.js:80–90`. -/
def BufferObj.pushes (bufferObj : BufferObj) : List (BufferObj × DeviceType) :=
  (if bufferObj.types.contains .mobile then [(bufferObj, .mobile)] else []) ++
    if bufferObj.types.contains .browser then [(bufferObj, .browser)] else []

namespace Service

variable (s : Service)

/-- Replace what belongs to a loop. -/
def setQueue (k : Kind) (q : Queue) : Service :=
  { s with queue := Function.update s.queue k q }

/-- The job goes on to another call. -/
def goTo (k : Kind) (job : Job) (stage : Stage) : Service :=
  s.setQueue k { s.queue k with running := some { job with stage } }

/-- The job has ended, and may have left another one. -/
def ended (k : Kind) (jobs : List Minimum) : Service :=
  s.setQueue k { s.queue k with running := none, jobs := (s.queue k).jobs ++ jobs }

/-- Write the cached maximum. -/
def cache (k : Kind) (maximum : ℕ) : Service :=
  s.setQueue k { s.queue k with cached := some maximum }

/-- The transaction of a range is committed. -/
def store (k : Kind) (batch : Batch) (actions : List ℕ) : Service :=
  { s.setQueue k { s.queue k with actions := (s.queue k).actions ++ actions } with
    committed := s.committed ++ [batch] }

/-- `addNotificationToBuffer` on the buffer of `target`. -/
def publish (target : Kind) (bufferObj : BufferObj) : Service :=
  s.setQueue target
    { s.queue target with
      buffer := addNotificationToBuffer (s.queue target).buffer bufferObj }

/-! ### The steps of a job -/

variable (k : Kind) (job : Job)

/-- The transaction of `indexAll`, `index.js:344–394`, and of `indexAllSolanaNotifications`,
`index.js:414–437`. The catch of either rolls back. -/
def indexing (tx maximum : ℕ) : Answer → Except String Service
  | .publishes target bufferObj => .ok (s.publish target { bufferObj with tx })
  | .commits actions => do
    require (∀ number ∈ actions, number ≤ maximum) "actions of another range"
    let s := s.store k ⟨k, tx, job.minimum.value, maximum⟩ actions
    return s.goTo k job (.drain maximum 0)
  | .commitFails applied actions => do
    require (∀ number ∈ actions, number ≤ maximum) "actions of another range"
    let s := if applied then s.store k ⟨k, tx, job.minimum.value, maximum⟩ actions else s
    return s.goTo k job (.rollback maximum)
  | .fails _ => .ok (s.goTo k job (.rollback maximum))
  | _ => .error "another call"

/-- One turn of the loop of `drainPublishedMessages`, `notificationQueue.js:75–97`, or its
end. What cannot be sent is passed over. -/
def drain (maximum next : ℕ) : Service :=
  match (s.queue k).buffer[next]? with
  | some bufferObj =>
    { s.goTo k job (.drain maximum (next + 1)) with sent := s.sent ++ bufferObj.pushes }
  | none =>
    let s := s.setQueue k { s.queue k with buffer := [] }
    s.goTo k job (.setMax ⟨maximum, false⟩)

/-- The call of a job returns, `index.js:126–173` and `177–229`. After a rollback that succeeds
the maximum is returned as if the range was stored; `addSame` is in the catch of the job. -/
def proceed (answer : Answer) : Except String Service :=
  match job.stage, answer with
  | .getMax, .ok =>
    let old := (s.queue k).cached
    if job.minimum.before old then .ok (s.goTo k job (.setMax ⟨old.getD 0, true⟩))
    else .ok (s.goTo k job .getNotifications)
  | .getNotifications, .maximum maximum => .ok (s.goTo k job (.transaction maximum))
  | .transaction maximum, .ok =>
    .ok { s.goTo k job (.indexing s.nextTx maximum) with nextTx := s.nextTx + 1 }
  | .getMax, .fails _ | .getNotifications, .fails _ | .transaction _, .fails _ =>
    .ok (s.goTo k job .addSame)
  | .indexing tx maximum, answer => s.indexing k job tx maximum answer
  | .rollback maximum, .ok => .ok (s.goTo k job (.setMax ⟨maximum, false⟩))
  | .rollback _, .fails _ => .ok (s.goTo k job .addSame)
  | .drain maximum next, .ok => .ok (s.drain k job maximum next)
  | .setMax maximum, .ok => .ok ((s.cache k maximum.value).goTo k job (.setSuccess maximum))
  | .setMax maximum, .fails applied =>
    .ok ((if applied then s.cache k maximum.value else s).goTo k job .addSame)
  | .setSuccess maximum, .ok => .ok (s.goTo k job (.addNext maximum))
  | .setSuccess _, .fails _ => .ok (s.goTo k job .addSame)
  | .addNext maximum, .ok => .ok (s.ended k [maximum])
  | .addNext maximum, .fails applied =>
    let s := s.setQueue k { s.queue k with
      jobs := (s.queue k).jobs ++ if applied then [maximum] else [] }
    .ok (s.goTo k job .addSame)
  | .addSame, .ok => .ok (s.ended k [job.minimum])
  | .addSame, .fails applied => .ok (s.ended k (if applied then [job.minimum] else []))
  | _, _ => .error "another call"

/-- `init`, `index.js:112–120` and `288–312`: the queues are emptied and begin with the highest
block and slot stored. What was in memory is gone, and with it the open transactions. -/
def init (c : Config) : Service :=
  { s with
    queue := fun k ↦
      { s.queue k with
        jobs := [⟨c.getHighest k (s.queue k), false⟩]
        running := none
        buffer := [] } }

end Service

/-- What can happen: the service starts or starts again, the next job of a loop begins, or a call
of the job returns. -/
inductive Event where
  | init
  | begins (k : Kind)
  | returns (k : Kind) (answer : Answer)

/-- One event. A loop processes one job at a time. -/
def step (c : Config) (s : Service) : Event → Except String Service
  | .init => .ok (s.init c)
  | .begins k =>
    match (s.queue k).running, (s.queue k).jobs with
    | none, minimum :: rest =>
      .ok (s.setQueue k
        { s.queue k with jobs := rest, running := some ⟨c.minimum k minimum, .getMax⟩ })
    | _, _ => .error "no job to begin"
  | .returns k answer =>
    match (s.queue k).running with
    | none => .error "no job"
    | some job => s.proceed k job answer

end Notifications

end ColivingSpec
