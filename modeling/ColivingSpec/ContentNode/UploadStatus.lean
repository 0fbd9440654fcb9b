import ColivingSpec.ContentNode.AsyncProcessingQueue
import ColivingSpec.Lib.Replay

/-!
# The status of an upload

At most one job of an upload is open, and the status under its key is that of the last task that
wrote one. A task that hands off writes that it is done like any other one, with the paths it
returns, before the next task of the upload is added. Polls at any other time see what they should.
-/

namespace ColivingSpec

open Lib List

namespace ProcessingNode

variable (node : ProcessingNode)

variable (requestID : UUID)

/-- Number of jobs of an upload that have not ended. -/
def openJobs : ℕ :=
  node.jobs.countP fun job ↦ decide (job.requestID = requestID) && job.isOpen

/-- A job with the task has ended with the response. -/
def Finished (task : ProcessName) (response : TaskResponse) : Prop :=
  ∃ job ∈ node.jobs, job.requestID = requestID ∧ job.task = task ∧
    job.stage = .finished (some response)

/-- What a poll of an upload is to see: done, with the response that its last job ended with, or
failed, with no job left; and in both cases none to come. -/
def Final : Prop :=
  ∀ state, node.redis requestID = some state →
    (state.status = .DONE → node.openJobs requestID = 0 ∧
      ∃ response task, state.resp = some (.response (.uploaded response)) ∧
        node.Finished requestID task (.uploaded response)) ∧
    (state.status = .FAILED → node.openJobs requestID = 0)

end ProcessingNode

namespace ProcessingEvent

/-- A poll of an upload sees what it should. -/
def Right (node : ProcessingNode) : ProcessingEvent → Prop
  | .async_processing_status requestID => requestID ∈ node.uploads → node.Final requestID
  | _ => True

end ProcessingEvent

/-- The response is one of the task. -/
def TaskResponse.Fits : ProcessName → TaskResponse → Prop
  | .transcodeAndSegment, .transcoded _ => True
  | .transcodeHandOff, .handedOff _ => True
  | .digitalContentUpload, .uploaded _ => True
  | .processTranscodeAndSegments, .uploaded _ => True
  | _, _ => False

theorem TaskOutcomes.fits {outcomes : TaskOutcomes} {task : ProcessName} {response : TaskResponse}
    (h : outcomes.getFn task = .ok response) : TaskResponse.Fits task response := by
  cases task with
  | digitalContentUpload | transcodeAndSegment | processTranscodeAndSegments =>
    obtain ⟨_, -, rfl⟩ := map_eq_ok.mp h
    trivial
  | transcodeHandOff =>
    cases h
    trivial

namespace ProcessingNode

variable {node node' : ProcessingNode} {i : ℕ} {job : Job} {stage : JobStage} {id : UUID}

/-! ### Counting open jobs -/

theorem openJobs_pos (hjob : node.jobs[i]? = some job) (hopen : job.isOpen = true) :
    0 < node.openJobs job.requestID := by
  apply countP_pos_iff.mpr
  exact ⟨job, mem_of_getElem? hjob, by simp [hopen]⟩

/-- An open job moves to another stage. -/
theorem openJobs_setStage (node : ProcessingNode) (id : UUID) (stage : JobStage)
    (hjob : node.jobs[i]? = some job) (hopen : job.isOpen = true) :
    (node.setStage i job stage).openJobs id
      = if job.requestID = id then
          node.openJobs id - 1 + if Job.isOpen { job with stage := stage } then 1 else 0
        else node.openJobs id := by
  obtain ⟨hi, hget⟩ := List.getElem?_eq_some_iff.mp hjob
  unfold openJobs setStage
  rw [countP_set hi, hget]
  by_cases hid : job.requestID = id
  · simp [hid, hopen]
  · simp [hid]

theorem openJobs_addTask (node : ProcessingNode) (id requestID : UUID) (task : ProcessName) :
    (node.addTask requestID task).openJobs id
      = node.openJobs id + if requestID = id then 1 else 0 := by
  unfold openJobs addTask
  by_cases hid : requestID = id
  · simp [hid, Job.isOpen]
  · simp [hid]

variable {task : ProcessName} {event : ProcessingEvent}

theorem Finished.setStage {response : TaskResponse} (h : node.Finished id task response)
    (hjob : node.jobs[i]? = some job) (hopen : job.isOpen = true) :
    (node.setStage i job stage).Finished id task response := by
  obtain ⟨other, hmem, hid, htask, hstage⟩ := h
  obtain ⟨j, hj, hget⟩ := mem_iff_getElem.mp hmem
  have hne : i ≠ j := by
    rintro rfl
    rw [getElem?_eq_getElem hj, hget] at hjob
    cases hjob
    simp [Job.isOpen, hstage] at hopen
  refine ⟨other, mem_iff_getElem.mpr ⟨j, ?_, ?_⟩, hid, htask, hstage⟩
  · simpa [ProcessingNode.setStage] using hj
  · simp only [ProcessingNode.setStage]
    rw [getElem_set_ne hne]
    exact hget

theorem Finished.addTask {response : TaskResponse} (h : node.Finished id task response)
    (requestID : UUID) (task' : ProcessName) :
    (node.addTask requestID task').Finished id task response := by
  obtain ⟨other, hmem, hother⟩ := h
  exact ⟨other, mem_append_left _ hmem, hother⟩

/-! ### The invariant -/

/-- What the status says of the jobs of its upload. -/
structure Written (node : ProcessingNode) (id : UUID) (state : ProcessState) : Prop where
  task : ∃ job ∈ node.jobs, job.requestID = id ∧ job.task = state.task
  failed : state.status = .FAILED → node.openJobs id = 0
  done : state.status = .DONE → ∃ response, state.resp = some (.response response) ∧
    TaskResponse.Fits state.task response ∧
    (state.task ≠ .transcodeHandOff →
      node.openJobs id = 0 ∧ node.Finished id state.task response)

/-- At most one job of an upload is open, the status says the truth of it, and only the jobs that
transcode for another node are of no upload. -/
structure Sound (node : ProcessingNode) : Prop where
  single : ∀ id, node.openJobs id ≤ 1
  written : ∀ id state, node.redis id = some state → node.Written id state
  uploads : ∀ id ∈ node.uploads, ∀ job ∈ node.jobs, job.requestID = id →
    job.task ≠ .transcodeAndSegment

/-- A job that is open moves on, and may write the status of its upload. -/
theorem Sound.setStage (hsound : node.Sound) (hjob : node.jobs[i]? = some job)
    (hopen : job.isOpen = true) {redis : UUID → Option ProcessState}
    (hother : ∀ id, id ≠ job.requestID → redis id = node.redis id)
    (hown : ∀ state, redis job.requestID = some state →
      node.redis job.requestID = some state ∨
        ProcessingNode.Written ({ node with redis := redis }.setStage i job stage) job.requestID
          state) :
    ({ node with redis := redis }.setStage i job stage).Sound where
  single id := by
    have hcount := openJobs_setStage { node with redis := redis } id stage hjob hopen
    have hsame : openJobs { node with redis := redis } id = node.openJobs id := rfl
    have hle := hsound.single id
    rw [hcount, hsame]
    split
    · split <;> omega
    · exact hle
  written id state hstate := by
    have hkept : ∀ hold : node.redis id = some state, ProcessingNode.Written
        ({ node with redis := redis }.setStage i job stage) id state := by
      intro hold
      have hwritten := hsound.written id state hold
      have hcount := openJobs_setStage { node with redis := redis } id stage hjob hopen
      have hsame : openJobs { node with redis := redis } id = node.openJobs id := rfl
      -- A job of the upload is open, so the status is not a final one.
      have hidle : node.openJobs id = 0 →
          ({ node with redis := redis }.setStage i job stage).openJobs id = 0 := by
        intro hzero
        rw [hcount]
        split
        · next hid =>
          have hpos := openJobs_pos hjob hopen
          rw [hid] at hpos
          omega
        · exact hzero
      obtain ⟨other, hmem, hid, htask⟩ := hwritten.task
      refine ⟨?_, fun h ↦ hidle (hwritten.failed h), fun h ↦ ?_⟩
      · obtain ⟨j, hj, hget⟩ := mem_iff_getElem.mp hmem
        by_cases hij : i = j
        · subst hij
          rw [getElem?_eq_getElem hj, hget] at hjob
          have hsame : other = job := Option.some.inj hjob
          subst hsame
          exact ⟨{ other with stage := stage }, mem_set hj _, hid, htask⟩
        · refine ⟨other, mem_iff_getElem.mpr ⟨j, ?_, ?_⟩, hid, htask⟩
          · simpa [ProcessingNode.setStage] using hj
          · simp only [ProcessingNode.setStage]
            rw [getElem_set_ne hij]
            exact hget
      · obtain ⟨response, hresp, hfits, hfinal⟩ := hwritten.done h
        refine ⟨response, hresp, hfits, fun hne ↦ ?_⟩
        obtain ⟨hzero, hfinished⟩ := hfinal hne
        have hsame : Finished { node with redis := redis } id state.task response := hfinished
        exact ⟨hidle hzero, hsame.setStage hjob hopen⟩
    by_cases hid : id = job.requestID
    · subst hid
      rcases hown state hstate with hold | hnew
      · exact hkept hold
      · exact hnew
    · exact hkept (by rw [← hother id hid]; exact hstate)
  uploads id hid other hmem hother := by
    rcases mem_or_eq_of_mem_set hmem with hold | rfl
    · exact hsound.uploads id hid other hold hother
    · exact hsound.uploads id hid job (mem_of_getElem? hjob) hother

/-- A task is added for an upload that has no open job and no final status. -/
theorem Sound.addTask (hsound : node.Sound) (hid : node.openJobs id = 0)
    (hstate : ∀ state, node.redis id = some state → state.status = .DONE ∧
      state.task = .transcodeHandOff ∨ state.status = .IN_PROGRESS)
    (htask : id ∈ node.uploads → task ≠ .transcodeAndSegment) : (node.addTask id task).Sound where
  single other := by
    rw [openJobs_addTask]
    have hle := hsound.single other
    split
    · next heq =>
      subst heq
      omega
    · exact hle
  written other state hstored := by
    have hwritten := hsound.written other state hstored
    have hcount := openJobs_addTask node other id task
    obtain ⟨job, hmem, hjob⟩ := hwritten.task
    refine ⟨⟨job, mem_append_left _ hmem, hjob⟩, fun h ↦ ?_, fun h ↦ ?_⟩
    · rw [hcount, hwritten.failed h]
      split
      · next heq =>
        subst heq
        rcases hstate state hstored with ⟨hdone, -⟩ | hprogress
        · rw [h] at hdone
          cases hdone
        · rw [h] at hprogress
          cases hprogress
      · rfl
    · obtain ⟨response, hresp, hfits, hfinal⟩ := hwritten.done h
      refine ⟨response, hresp, hfits, fun hne ↦ ?_⟩
      obtain ⟨hzero, hfinished⟩ := hfinal hne
      refine ⟨?_, hfinished.addTask id task⟩
      rw [hcount, hzero]
      split
      · next heq =>
        subst heq
        rcases hstate state hstored with ⟨-, hhandOff⟩ | hprogress
        · exact absurd hhandOff hne
        · rw [h] at hprogress
          cases hprogress
      · rfl
  uploads other hother job hmem heq := by
    rcases mem_append.mp hmem with hold | hnew
    · exact hsound.uploads other hother job hold heq
    · cases mem_singleton.mp hnew
      have hsame : id = other := heq
      exact htask (hsame ▸ hother)

/-- When the one open job of an upload ends, none is open. -/
theorem Sound.openJobs_finished (hsound : node.Sound) (hjob : node.jobs[i]? = some job)
    (hopen : job.isOpen = true) (redis : UUID → Option ProcessState)
    (response : Option TaskResponse) :
    ({ node with redis := redis }.setStage i job (.finished response)).openJobs job.requestID
      = 0 := by
  rw [openJobs_setStage { node with redis := redis } job.requestID _ hjob hopen, if_pos rfl]
  have hle : openJobs { node with redis := redis } job.requestID ≤ 1 :=
    hsound.single job.requestID
  simp only [Job.isOpen, Bool.false_eq_true, if_false]
  omega

/-- The status that a job writes as it moves on. -/
theorem Sound.written_own (hsound : node.Sound) (hjob : node.jobs[i]? = some job)
    (hopen : job.isOpen = true) (redis : UUID → Option ProcessState) {state : ProcessState}
    (htask : state.task = job.task)
    (hfailed : state.status = .FAILED → ∃ response, stage = .finished response)
    (hdone : state.status = .DONE → ∃ response, state.resp = some (.response response) ∧
      TaskResponse.Fits job.task response ∧
      (job.task ≠ .transcodeHandOff → stage = .finished (some response))) :
    ProcessingNode.Written ({ node with redis := redis }.setStage i job stage) job.requestID
      state := by
  obtain ⟨hi, -⟩ := List.getElem?_eq_some_iff.mp hjob
  have hmem : { job with stage := stage } ∈
      ({ node with redis := redis }.setStage i job stage).jobs := mem_set hi _
  refine ⟨⟨{ job with stage := stage }, hmem, rfl, htask.symm⟩, fun h ↦ ?_, fun h ↦ ?_⟩
  · obtain ⟨response, rfl⟩ := hfailed h
    exact hsound.openJobs_finished hjob hopen redis response
  · obtain ⟨response, hresp, hfits, hfinished⟩ := hdone h
    rw [htask]
    refine ⟨response, hresp, hfits, fun hne ↦ ?_⟩
    have hstage := hfinished hne
    subst hstage
    exact ⟨hsound.openJobs_finished hjob hopen redis (some response),
      { job with stage := .finished (some response) }, hmem, rfl, rfl, rfl⟩

/-- A job moves on and writes the status. -/
theorem Sound.set_setStage (hsound : node.Sound) (hjob : node.jobs[i]? = some job)
    (hopen : job.isOpen = true) {state : ProcessState} (htask : state.task = job.task)
    (hfailed : state.status = .FAILED → ∃ response, stage = .finished response)
    (hdone : state.status = .DONE → ∃ response, state.resp = some (.response response) ∧
      TaskResponse.Fits job.task response ∧
      (job.task ≠ .transcodeHandOff → stage = .finished (some response))) :
    ((node.set job.requestID state).setStage i job stage).Sound := by
  refine hsound.setStage hjob hopen (fun id hid ↦ Function.update_of_ne hid ..)
    fun written hwritten ↦ .inr ?_
  rw [Function.update_self] at hwritten
  cases hwritten
  exact hsound.written_own hjob hopen _ htask hfailed hdone

/-- A job moves on and writes nothing. -/
theorem Sound.setStage_same (hsound : node.Sound) (hjob : node.jobs[i]? = some job)
    (hopen : job.isOpen = true) (stage : JobStage) : (node.setStage i job stage).Sound :=
  hsound.setStage hjob hopen (fun _ _ ↦ rfl) fun _ hstate ↦ .inl hstate

theorem Sound.beginJob (hsound : node.Sound) (hjob : node.jobs[i]? = some job)
    (hopen : job.isOpen = true) (set : Bool) : (node.beginJob i job set).Sound := by
  unfold ProcessingNode.beginJob
  split
  · exact hsound.set_setStage hjob hopen rfl (fun h ↦ by cases h) fun h ↦ by cases h
  · exact hsound.setStage_same hjob hopen _

theorem Sound.fail (hsound : node.Sound) (hjob : node.jobs[i]? = some job)
    (hopen : job.isOpen = true) (message : String) (setFailed : Bool) :
    ((node.fail job message setFailed).setStage i job (.finished none)).Sound := by
  unfold ProcessingNode.fail
  split
  · exact hsound.set_setStage hjob hopen rfl (fun _ ↦ ⟨none, rfl⟩) fun h ↦ by cases h
  · exact hsound.setStage_same hjob hopen _

theorem Sound.runJob (hsound : node.Sound) (hjob : node.jobs[i]? = some job)
    (hopen : job.isOpen = true) (outcomes : TaskOutcomes) (setDone setFailed : Bool) :
    (node.runJob i job outcomes setDone setFailed).Sound := by
  unfold ProcessingNode.runJob
  cases hrun : outcomes.getFn job.task with
  | error message => exact hsound.fail hjob hopen message setFailed
  | ok response =>
    dsimp only
    split
    · have hfits := TaskOutcomes.fits hrun
      refine hsound.set_setStage hjob hopen rfl (fun h ↦ by cases h) fun _ ↦
        ⟨response, rfl, hfits, fun hne ↦ ?_⟩
      cases response with
      | uploaded response => rfl
      | transcoded response => rfl
      | handedOff paths =>
        cases htask : job.task with
        | transcodeHandOff => exact absurd htask hne
        | digitalContentUpload | transcodeAndSegment | processTranscodeAndSegments =>
          rw [htask] at hfits; exact hfits.elim
    · exact hsound.fail hjob hopen "redis" setFailed

/-- The job that handed off ends, and the next one is added. -/
theorem Sound.addNextTask (hsound : node.Sound) (hjob : node.jobs[i]? = some job)
    {paths : LocalFilePaths} (hstage : job.stage = .handedOff paths) (added : Bool) :
    (node.addNextTask i job paths added).Sound := by
  have hopen : job.isOpen = true := by simp [Job.isOpen, hstage]
  unfold ProcessingNode.addNextTask
  split
  · refine (hsound.setStage_same hjob hopen _).addTask
      (hsound.openJobs_finished hjob hopen node.redis _) (fun state hstate ↦ ?_) fun _ ↦ ?_
    · -- The job was open until now, so the status is not a final one.
      have hwritten := hsound.written job.requestID state hstate
      have hpos := openJobs_pos hjob hopen
      cases hstatus : state.status with
      | IN_PROGRESS => exact .inr rfl
      | FAILED =>
        have hzero := hwritten.failed hstatus
        omega
      | DONE =>
        obtain ⟨response, -, -, hfinal⟩ := hwritten.done hstatus
        by_cases hhandOff : state.task = .transcodeHandOff
        · exact .inl ⟨rfl, hhandOff⟩
        · have hzero := (hfinal hhandOff).1
          omega
    · split <;> decide
  · exact hsound.setStage_same hjob hopen _

/-- Nothing is known of an ID that is not in use. -/
theorem isNew_iff : node.isNew id = true ↔
    node.redis id = none ∧ (∀ job ∈ node.jobs, job.requestID ≠ id) ∧ id ∉ node.uploads := by
  simp [isNew, and_assoc]
  grind

theorem Sound.addTask_new (hsound : node.Sound) (hnew : node.isNew id = true) (task : ProcessName)
    (htask : id ∈ node.uploads → task ≠ .transcodeAndSegment) : (node.addTask id task).Sound := by
  obtain ⟨hredis, hjobs, -⟩ := isNew_iff.mp hnew
  refine hsound.addTask ?_ (fun state hstate ↦ ?_) htask
  · apply countP_eq_zero.mpr
    intro job hjob
    simp [hjobs job hjob]
  · rw [hredis] at hstate
    cases hstate

theorem Sound.addUpload (hsound : node.Sound) (hnew : node.isNew id = true)
    (selfTranscode : Bool) : (node.addUpload id selfTranscode).Sound := by
  have hne : (if selfTranscode then ProcessName.digitalContentUpload else .transcodeHandOff)
      ≠ .transcodeAndSegment := by
    split <;> decide
  obtain ⟨hsingle, hwritten, huploads⟩ := hsound.addTask_new hnew _ fun _ ↦ hne
  refine ⟨hsingle, fun other state hstate ↦ ?_, fun other hother job hmem heq ↦ ?_⟩
  · obtain ⟨htask, hfailed, hdone⟩ := hwritten other state hstate
    exact ⟨htask, hfailed, hdone⟩
  · rcases mem_append.mp hother with hold | hself
    · exact huploads other hold job hmem heq
    · cases mem_singleton.mp hself
      rcases mem_append.mp hmem with hold | hadded
      · exact absurd heq ((isNew_iff.mp hnew).2.1 job hold)
      · cases mem_singleton.mp hadded
        exact hne

theorem Sound.step (hsound : node.Sound) (h : node.step event = .ok node') : node'.Sound := by
  cases event with
  | digital_content_async requestID selfTranscode =>
    simp only [ProcessingNode.step, require_bind_eq_ok, pure_eq_ok] at h
    obtain ⟨hnew, rfl⟩ := h
    exact hsound.addUpload hnew selfTranscode
  | transcode_and_segment requestID =>
    simp only [ProcessingNode.step, require_bind_eq_ok, pure_eq_ok] at h
    obtain ⟨hnew, rfl⟩ := h
    exact hsound.addTask_new hnew _ fun hupload ↦ absurd hupload (isNew_iff.mp hnew).2.2
  | begin i set =>
    simp only [ProcessingNode.step] at h
    split at h
    · cases h
    · next job hjob =>
      split at h
      · next hstage =>
        cases h
        exact hsound.beginJob hjob (by simp [Job.isOpen, hstage]) set
      · cases h
  | run i outcomes setDone setFailed =>
    simp only [ProcessingNode.step] at h
    split at h
    · cases h
    · next job hjob =>
      split at h
      · next hstage =>
        cases h
        exact hsound.runJob hjob (by simp [Job.isOpen, hstage]) outcomes setDone setFailed
      · cases h
  | addNext i added =>
    simp only [ProcessingNode.step] at h
    split at h
    · cases h
    · next job hjob =>
      split at h
      · next paths hstage =>
        cases h
        exact hsound.addNextTask hjob hstage added
      · cases h
  | expire requestID =>
    cases h
    refine ⟨hsound.single, fun id state hstate ↦ ?_, hsound.uploads⟩
    by_cases hid : id = requestID
    · subst hid
      simp only [Function.update_self] at hstate
      cases hstate
    · simp only [Function.update_of_ne hid] at hstate
      obtain ⟨htask, hfailed, hdone⟩ := hsound.written id state hstate
      exact ⟨htask, hfailed, hdone⟩
  | async_processing_status requestID =>
    cases h
    exact hsound

/-- A node without uploads. -/
def fresh : ProcessingNode := ⟨fun _ ↦ none, [], []⟩

end ProcessingNode

open ProcessingNode

/-- What the polls of an upload are answered with in a run. -/
def answers (requestID : UUID) : ProcessingNode → List ProcessingEvent →
    List (Except String (Option ProcessState))
  | _, [] => []
  | node, .async_processing_status other :: events =>
    if other = requestID then .ok (node.redis requestID) :: answers requestID node events
    else answers requestID node events
  | node, event :: events => answers requestID (attempt step node event) events

end ColivingSpec
