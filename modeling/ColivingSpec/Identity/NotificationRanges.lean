import ColivingSpec.Identity.NotificationJobs

/-!
# Ranges of notifications

The cached maximum follows what is stored as long as the work on a range that the discovery
node answered for does not fail. The catch around the database transaction hides a failure from
the job, which then moves on past a range that was rolled back, with its messages still in the
buffer.
-/

namespace ColivingSpec

open Lib List

namespace Notifications

/-- The block or slot is in the range of the batch. -/
def Batch.Covers (k : Kind) (number : ℕ) (batch : Batch) : Prop :=
  batch.kind = k ∧ batch.low < number ∧ number ≤ batch.high

instance (k : Kind) (number : ℕ) : DecidablePred (Batch.Covers k number) :=
  fun _ ↦ inferInstanceAs (Decidable (_ ∧ _ ∧ _))

/-- How often the notifications of a block or slot are stored. -/
def timesStored (committed : List Batch) (k : Kind) (number : ℕ) : ℕ :=
  committed.countP fun batch ↦ decide (batch.Covers k number)

/-- The transaction committed. -/
def Committed (committed : List Batch) (tx : ℕ) : Prop := ∃ batch ∈ committed, batch.tx = tx

namespace Service

variable (s : Service)

/-- A service before its start; what was stored earlier is no higher than `base`. -/
structure Idle (c : Config) (base : Kind → ℕ) (s : Service) : Prop where
  jobs : ∀ k, (s.queue k).jobs = []
  running : ∀ k, (s.queue k).running = none
  buffer : ∀ k, (s.queue k).buffer = []
  committed : s.committed = []
  sent : s.sent = []
  cached : ∀ k, (s.queue k).cached.getD 0 ≤ base k
  actions : ∀ k, ∀ number ∈ (s.queue k).actions, number ≤ base k
  start : ∀ k, c.start k ≤ base k
  minimum : c.minSolanaNotificationSlot ≤ base .slots

end Service

/-- From the transaction of a range to the next job nothing fails, and no job is added by a call
that fails; the answer of the discovery node does not go back, and a loop publishes into its own
buffer. -/
def Job.Undisturbed (k : Kind) (job : Job) : Answer → Prop
  | .fails applied =>
    match job.stage with
    | .getMax | .getNotifications | .transaction _ => True
    | .setMax maximum | .setSuccess maximum => maximum.isString = true
    | .addNext maximum => maximum.isString = true ∧ applied = false
    | .addSame => applied = false
    | .indexing .. | .rollback _ | .drain .. => False
  | .commitFails _ _ => False
  | .maximum maximum => job.minimum.value ≤ maximum
  | .publishes target _ => target = k
  | _ => True

/-- The block or slot a job has stored up to, and is about to cache. -/
def Stage.ahead : Stage → Option ℕ
  | .drain maximum _ => some maximum
  | .setMax maximum => if maximum.isString then none else some maximum.value
  | _ => none

/-- A call of a job returns undisturbed, and the service does not start again between the commit of
a range and its being cached. -/
def Undisturbed (s : Service) : Event → Prop
  | .init => ∀ k job, (s.queue k).running = some job → job.stage.ahead = none
  | .begins _ => True
  | .returns k answer => ∀ job, (s.queue k).running = some job → job.Undisturbed k answer

/-! ### What is kept for each loop -/

/-- Up to where the notifications of a loop are stored. -/
def Queue.progress (q : Queue) : ℕ :=
  (q.running.bind fun job ↦ job.stage.ahead).getD (q.cached.getD 0)

/-- A job that begins here leaves nothing out. -/
def Minimum.Within (base cached : ℕ) (minimum : Minimum) : Prop :=
  minimum.value ≤ max base cached ∧ (minimum.isString = true → minimum.value = cached)

/-- What is known of a job at each of its calls. -/
def Job.Kept (base cached : ℕ) (job : Job) : Prop :=
  match job.stage with
  | .getMax | .addSame => job.minimum.Within base cached
  | .getNotifications => job.minimum.Within base cached ∧ cached ≤ job.minimum.value
  | .transaction maximum | .indexing _ maximum =>
    job.minimum.Within base cached ∧ cached ≤ job.minimum.value ∧ job.minimum.value ≤ maximum
  | .rollback _ => False
  | .drain .. => True
  | .setMax maximum =>
    maximum.isString = true → maximum.value = cached ∧ job.minimum.Within base cached
  | .setSuccess maximum | .addNext maximum =>
    maximum.value = cached ∧ (maximum.isString = true → job.minimum.Within base cached)

/-- What holds of a loop between any two calls. -/
structure Queue.Kept (base : ℕ) (k : Kind) (committed : List Batch) (q : Queue) : Prop where
  stored : ∀ number, base < number →
    timesStored committed k number = if number ≤ q.progress then 1 else 0
  cached_le : q.cached.getD 0 ≤ q.progress
  actions : ∀ number ∈ q.actions, number ≤ max base q.progress
  single : q.running.isSome = true → q.jobs = []
  length_le : q.jobs.length ≤ 1
  jobs : ∀ minimum ∈ q.jobs, minimum.Within base (q.cached.getD 0)
  running : ∀ job, q.running = some job → job.Kept base (q.cached.getD 0)
  buffer : ∀ bufferObj ∈ q.buffer, Committed committed bufferObj.tx ∨
    ∃ job maximum, q.running = some job ∧ job.stage = .indexing bufferObj.tx maximum

/-- What holds of the service. -/
structure Service.Kept (base : Kind → ℕ) (s : Service) : Prop where
  queue : ∀ k, (s.queue k).Kept (base k) k s.committed
  pushed : ∀ push ∈ s.sent, Committed s.committed push.1.tx

theorem Service.Idle.kept {c : Config} {base : Kind → ℕ} {s : Service} (hs : s.Idle c base) :
    s.Kept base where
  queue k := by
    have hprogress : (s.queue k).progress = (s.queue k).cached.getD 0 := by
      unfold Queue.progress
      rw [hs.running k]
      rfl
    refine ⟨fun number hbase ↦ ?_, hprogress.ge, fun number hnumber ↦ ?_, fun _ ↦ hs.jobs k, ?_,
      fun minimum hmem ↦ ?_, fun job hjob ↦ ?_, fun bufferObj hmem ↦ ?_⟩
    · have hcached := hs.cached k
      rw [hprogress, if_neg (by omega), hs.committed]
      rfl
    · exact (hs.actions k number hnumber).trans (le_max_left _ _)
    · rw [hs.jobs k]
      exact Nat.zero_le 1
    · rw [hs.jobs k] at hmem
      cases hmem
    · rw [hs.running k] at hjob
      cases hjob
    · rw [hs.buffer k] at hmem
      cases hmem
  pushed push hmem := by
    rw [hs.sent] at hmem
    cases hmem

/-! ### Steps of one loop -/

section Queue

variable {base : ℕ} {k : Kind} {committed committed' : List Batch} {q : Queue} {job : Job}

theorem progress_of_running (h : q.running = some job) :
    q.progress = job.stage.ahead.getD (q.cached.getD 0) := by
  unfold Queue.progress
  rw [h]
  rfl

theorem progress_of_idle (h : q.running = none) : q.progress = q.cached.getD 0 := by
  unfold Queue.progress
  rw [h]
  rfl

/-- What other loops commit does not matter. -/
theorem Queue.Kept.mono (hq : q.Kept base k committed)
    (hstored : ∀ number, timesStored committed' k number = timesStored committed k number)
    (hcommitted : ∀ tx, Committed committed tx → Committed committed' tx) :
    q.Kept base k committed' where
  stored number hbase := (hstored number).trans (hq.stored number hbase)
  cached_le := hq.cached_le
  actions := hq.actions
  single := hq.single
  length_le := hq.length_le
  jobs := hq.jobs
  running := hq.running
  buffer bufferObj hmem := (hq.buffer bufferObj hmem).imp_left (hcommitted _)

/-- A loop that got as far as before, with no transaction open. -/
theorem Queue.Kept.of_progress {q' : Queue} (hq : q.Kept base k committed)
    (hprogress : q'.progress = q.progress) (hcached : q'.cached.getD 0 ≤ q.progress)
    (hactions : q'.actions = q.actions) (hlength : q'.jobs.length ≤ 1)
    (hsingle : q'.running.isSome = true → q'.jobs = [])
    (hjobs : ∀ minimum ∈ q'.jobs, minimum.Within base (q'.cached.getD 0))
    (hrunning : ∀ job, q'.running = some job → job.Kept base (q'.cached.getD 0))
    (hbuffer : ∀ bufferObj ∈ q'.buffer, Committed committed bufferObj.tx) :
    q'.Kept base k committed where
  stored := by
    rw [hprogress]
    exact hq.stored
  cached_le := hcached.trans hprogress.ge
  actions := by
    rw [hprogress, hactions]
    exact hq.actions
  single := hsingle
  length_le := hlength
  jobs := hjobs
  running := hrunning
  buffer bufferObj hmem := .inl (hbuffer bufferObj hmem)

/-- A loop that has no transaction open has notifications of committed ones. -/
theorem Queue.Kept.committed_buffer (hq : q.Kept base k committed) (hjob : q.running = some job)
    (hstage : ∀ tx maximum, job.stage ≠ .indexing tx maximum) :
    ∀ bufferObj ∈ q.buffer, Committed committed bufferObj.tx := by
  intro bufferObj hmem
  rcases hq.buffer bufferObj hmem with hcommitted | ⟨j, maximum, hj, hindexing⟩
  · exact hcommitted
  · obtain rfl := Option.some.inj (hj.symm.trans hjob)
    exact absurd hindexing (hstage _ _)

/-- The job goes on to a call that caches as much as before. -/
theorem Queue.Kept.goTo (hq : q.Kept base k committed) (hjob : q.running = some job) {stage : Stage}
    (hahead : stage.ahead = job.stage.ahead)
    (hkept : Job.Kept base (q.cached.getD 0) { job with stage })
    (hbuffer : ∀ tx maximum, job.stage ≠ .indexing tx maximum) :
    Queue.Kept base k committed { q with running := some { job with stage } } := by
  have hprogress : Queue.progress { q with running := some { job with stage } } = q.progress := by
    rw [progress_of_running hjob, progress_of_running (q := { q with running := _ }) rfl, hahead]
  refine hq.of_progress hprogress hq.cached_le rfl hq.length_le
    (fun _ ↦ hq.single (by rw [hjob]; rfl)) hq.jobs (fun j hj ↦ ?_)
    (hq.committed_buffer hjob hbuffer)
  cases hj
  exact hkept

/-- The job ends, and leaves at most one that leaves nothing out. -/
theorem Queue.Kept.ended (hq : q.Kept base k committed) (hjob : q.running = some job)
    {jobs : List Minimum} (hahead : job.stage.ahead = none)
    (hbuffer : ∀ tx maximum, job.stage ≠ .indexing tx maximum) (hlength : jobs.length ≤ 1)
    (hjobs : ∀ minimum ∈ jobs, minimum.Within base (q.cached.getD 0)) :
    Queue.Kept base k committed { q with running := none, jobs := q.jobs ++ jobs } := by
  have hprogress : Queue.progress { q with running := none, jobs := q.jobs ++ jobs }
      = q.progress := by
    rw [progress_of_running hjob, hahead]
    rfl
  have hnone : q.jobs = [] := hq.single (by rw [hjob]; rfl)
  refine hq.of_progress hprogress hq.cached_le rfl ?_ (fun h ↦ by cases h) ?_
    (fun j hj ↦ by cases hj) (hq.committed_buffer hjob hbuffer)
  · rw [hnone]
    exact hlength
  · rw [hnone]
    exact hjobs

/-- The next job begins. -/
theorem Queue.Kept.begins {minimum minimum' : Minimum} {rest : List Minimum}
    (hq : q.Kept base k committed) (hnone : q.running = none) (hjobs : q.jobs = minimum :: rest)
    (hwithin : minimum'.Within base (q.cached.getD 0)) :
    Queue.Kept base k committed { q with jobs := rest, running := some ⟨minimum', .getMax⟩ } := by
  have hprogress : Queue.progress { q with jobs := rest, running := some ⟨minimum', .getMax⟩ }
      = q.progress := (progress_of_idle hnone).symm
  have hlength := hq.length_le
  rw [hjobs] at hlength
  have hrest : rest = [] := by
    simpa using hlength
  refine hq.of_progress hprogress hq.cached_le rfl ?_ (fun _ ↦ hrest) ?_ (fun j hj ↦ ?_)
    fun bufferObj hmem ↦ ?_
  · rw [hrest]
    exact Nat.zero_le 1
  · rw [hrest]
    exact fun _ h ↦ by cases h
  · cases hj
    exact hwithin
  · rcases hq.buffer bufferObj hmem with hcommitted | ⟨j, maximum, hj, -⟩
    · exact hcommitted
    · rw [hnone] at hj
      cases hj

/-- What is cached is where the loop got to. -/
theorem Queue.Kept.cache (hq : q.Kept base k committed) {minimum maximum : Minimum}
    (hjob : q.running = some ⟨minimum, .setMax maximum⟩) {stage : Stage}
    (hahead : stage.ahead = none)
    (hkept : Job.Kept base maximum.value ⟨minimum, stage⟩) :
    Queue.Kept base k committed
      { q with cached := some maximum.value, running := some ⟨minimum, stage⟩ } := by
  have hbefore := hq.running _ hjob
  have hprogress : q.progress = maximum.value := by
    rw [progress_of_running hjob]
    unfold Stage.ahead
    dsimp only
    split
    · next hstring => exact (hbefore hstring).1.symm
    · rfl
  have hafter : Queue.progress
      { q with cached := some maximum.value, running := some ⟨minimum, stage⟩ } = q.progress := by
    rw [progress_of_running (q := { q with cached := _, running := _ }) rfl, hahead, hprogress]
    rfl
  have hnone : q.jobs = [] := hq.single (by rw [hjob]; rfl)
  refine hq.of_progress hafter hprogress.ge rfl hq.length_le (fun _ ↦ hnone) ?_ (fun j hj ↦ ?_)
    (hq.committed_buffer hjob fun _ _ ↦ Stage.noConfusion)
  · dsimp only
    rw [hnone]
    exact fun _ h ↦ by cases h
  · cases hj
    exact hkept

theorem timesStored_concat (committed : List Batch) (batch : Batch) (k : Kind) (number : ℕ) :
    timesStored (committed ++ [batch]) k number
      = timesStored committed k number + if batch.Covers k number then 1 else 0 := by
  unfold timesStored
  simp

theorem committed_concat {committed : List Batch} {tx : ℕ} (h : Committed committed tx)
    (batch : Batch) : Committed (committed ++ [batch]) tx := by
  obtain ⟨b, hb, htx⟩ := h
  exact ⟨b, mem_append_left _ hb, htx⟩

/-- A committed range begins where the loop had got to. -/
theorem Queue.Kept.commit (hq : q.Kept base k committed) {minimum : Minimum} {tx maximum : ℕ}
    {actions : List ℕ} (hjob : q.running = some ⟨minimum, .indexing tx maximum⟩)
    (hactions : ∀ number ∈ actions, number ≤ maximum) :
    Queue.Kept base k (committed ++ [⟨k, tx, minimum.value, maximum⟩])
      { q with
        actions := q.actions ++ actions
        running := some ⟨minimum, .drain maximum 0⟩ } := by
  obtain ⟨⟨hwithin, -⟩, hle, hmaximum⟩ : minimum.Within base (q.cached.getD 0) ∧
    q.cached.getD 0 ≤ minimum.value ∧ minimum.value ≤ maximum := hq.running _ hjob
  have hprogress : q.progress = q.cached.getD 0 := progress_of_running hjob
  have hafter : Queue.progress
      { q with
        actions := q.actions ++ actions
        running := some ⟨minimum, .drain maximum 0⟩ } = maximum := rfl
  refine ⟨fun number hbase ↦ ?_, ?_, fun number hnumber ↦ ?_, fun _ ↦ hq.single (by rw [hjob]; rfl),
    hq.length_le, hq.jobs, fun j hj ↦ ?_, fun bufferObj hmem ↦ ?_⟩
  · have hcovers : Batch.Covers k number ⟨k, tx, minimum.value, maximum⟩
        ↔ minimum.value < number ∧ number ≤ maximum := by simp [Batch.Covers]
    rw [timesStored_concat, hafter, hq.stored number hbase, hprogress]
    by_cases hcached : number ≤ q.cached.getD 0
    · rw [if_pos hcached, if_neg (fun h ↦ by have := hcovers.mp h; omega), if_pos (by omega)]
    · by_cases hnumber : number ≤ maximum
      · rw [if_neg hcached, if_pos (hcovers.mpr (by omega)), if_pos hnumber]
      · rw [if_neg hcached, if_neg (fun h ↦ hnumber (hcovers.mp h).2), if_neg hnumber]
  · rw [hafter]
    exact hle.trans hmaximum
  · rw [hafter]
    rcases mem_append.mp hnumber with hold | hnew
    · have hbefore := hq.actions number hold
      omega
    · exact (hactions number hnew).trans (le_max_right _ _)
  · cases hj
    trivial
  · left
    rcases hq.buffer bufferObj hmem with hcommitted | ⟨j, maximum', hj, hstage⟩
    · exact committed_concat hcommitted _
    · obtain rfl := Option.some.inj (hj.symm.trans hjob)
      cases hstage
      exact ⟨_, mem_append_right _ mem_cons_self, rfl⟩

end Queue

/-! ### Steps of the service -/

namespace Service

variable {c : Config} {base : Kind → ℕ} {s s' : Service} {k : Kind} {answer : Answer} {job : Job}
  {minimum : Minimum}

theorem setQueue_self (q : Queue) : (s.setQueue k q).queue k = q := Function.update_self ..

theorem setQueue_of_ne {j : Kind} (q : Queue) (hj : j ≠ k) :
    (s.setQueue k q).queue j = s.queue j := Function.update_of_ne hj ..

/-- A loop goes on, the others stand. -/
theorem Kept.setQueue (hs : s.Kept base) {q : Queue} (hq : q.Kept (base k) k s.committed) :
    (s.setQueue k q).Kept base where
  queue j := by
    by_cases hj : j = k
    · subst hj
      rw [setQueue_self]
      exact hq
    · rw [setQueue_of_ne q hj]
      exact hs.queue j
  pushed := hs.pushed

/-- A call that leaves the range of the job alone. -/
theorem Kept.goTo (hs : s.Kept base) (hjob : (s.queue k).running = some job) (stage : Stage)
    (hahead : stage.ahead = job.stage.ahead)
    (hkept : Job.Kept (base k) ((s.queue k).cached.getD 0) { job with stage })
    (hbuffer : ∀ tx maximum, job.stage ≠ .indexing tx maximum) :
    (s.goTo k job stage).Kept base :=
  hs.setQueue ((hs.queue k).goTo hjob hahead hkept hbuffer)

end Service

variable {c : Config} {base : Kind → ℕ} {s : Service}

namespace Scenario

def config : Config := ⟨fun _ ↦ 0, 0⟩

/-- Nothing is cached or stored. -/
def service : Service := ⟨fun _ ↦ ⟨none, [], none, [], []⟩, [], 0, []⟩

/-- The first job of blocks, up to its open transaction. -/
def opened : List Event :=
  [.init, .begins .blocks, .returns .blocks .ok, .returns .blocks (.maximum 10),
    .returns .blocks .ok]

/-- The transaction fails and is rolled back, and the job goes on. -/
def rolledBack : List Event :=
  opened ++ [.returns .blocks (.fails false), .returns .blocks .ok, .returns .blocks .ok]

/-- The transaction publishes a message and commits, and the message is sent. -/
def pushed : List Event :=
  opened ++ [.returns .blocks (.publishes .blocks ⟨1, "message", none, true, [.mobile], 0⟩),
    .returns .blocks (.commits [7]), .returns .blocks .ok, .returns .blocks .ok,
    .returns .blocks .ok, .returns .blocks .ok, .returns .blocks .ok]

end Scenario

end Notifications

end ColivingSpec
