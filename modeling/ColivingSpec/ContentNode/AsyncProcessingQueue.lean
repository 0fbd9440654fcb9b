import ColivingSpec.ContentNode.Models
import ColivingSpec.Lib.Checked

/-!
# The async processing queue

The tasks of an upload, the queue that runs them, and the status that each of them leaves under the
key of the upload. A node that does not transcode by itself hands that off, and adds another task
when this has ended. What the functions of a task come to is an argument of the step that ends it.
-/

namespace ColivingSpec

open Lib

/-- `PROCESS_NAMES`: `AsyncProcessingQueue.js:18–23`. -/
inductive ProcessName where
  | digitalContentUpload
  | transcodeAndSegment
  | processTranscodeAndSegments
  | transcodeHandOff
  deriving DecidableEq, Repr

/-- `PROCESS_STATES`: `AsyncProcessingQueue.js:24–28`. -/
inductive ProcessStatus where
  | IN_PROGRESS
  | DONE
  | FAILED
  deriving DecidableEq, Repr

/-- A segment and its duration in milliseconds. -/
structure DigitalContentSegment where
  multihash : CID
  duration : ℕ
  deriving DecidableEq, Repr

/-- What an upload ends with: `digitalContentUploadManager.js:153–158`. -/
structure UploadResponse where
  transcodedDigitalContentCID : CID
  transcodedDigitalContentUUID : UUID
  digital_content_segments : List DigitalContentSegment
  source_file : String
  deriving DecidableEq, Repr

/-- `digitalContentUploadManager.js:58–65`. -/
structure TranscodeResponse where
  transcodeFilePath : String
  segmentFileNames : List String
  segmentFilePaths : List String
  m3u8FilePath : String
  fileName : String
  fileDir : String
  deriving DecidableEq, Repr

/-- The files that were fetched from the node that transcoded; each can be missing. -/
structure LocalFilePaths where
  transcodeFilePath : Option String
  segmentFileNames : Option (List String)
  m3u8FilePath : Option String
  deriving DecidableEq, Repr

/-- What a task returns. -/
inductive TaskResponse where
  | uploaded (response : UploadResponse)
  | transcoded (response : TranscodeResponse)
  | handedOff (response : LocalFilePaths)
  deriving DecidableEq, Repr

/-- `resp`: the response of a task that is done, or the message of one that failed. -/
inductive Resp where
  | response (response : TaskResponse)
  | message (message : String)
  deriving DecidableEq, Repr

/-- The value under a status key. -/
structure ProcessState where
  task : ProcessName
  status : ProcessStatus
  resp : Option Resp
  deriving DecidableEq, Repr

/-! ### Handing off -/

/-- A value that is there and not the empty string. -/
def truthy : Option String → Bool
  | some value => value ≠ ""
  | none => false

namespace LocalFilePaths

variable (paths : LocalFilePaths)

/-- `digitalContentTranscodeHandoffManager.js:107–112`. -/
def complete : Bool :=
  truthy paths.transcodeFilePath && paths.segmentFileNames.isSome && truthy paths.m3u8FilePath

/-- `AsyncProcessingQueue.js:77`. -/
def transcoded : Bool :=
  truthy paths.transcodeFilePath && paths.segmentFileNames.isSome

/-- `{}`. -/
def empty : LocalFilePaths := ⟨none, none, none⟩

end LocalFilePaths

/-- `digitalContentTranscodeHandoffManager.js:84–132`: the first node that gets through. -/
def tryNodes : List (Except String LocalFilePaths) → LocalFilePaths
  | [] => .empty
  | .error _ :: sps => tryNodes sps
  | .ok localFilePaths :: sps => if localFilePaths.complete then localFilePaths else tryNodes sps

/-- `digitalContentTranscodeHandoffManager.js:67–135`, with what comes of the selection of nodes and
of each of them. -/
def handOff (sps : Except String (List (Except String LocalFilePaths))) : LocalFilePaths :=
  match sps with
  | .error _ => .empty
  | .ok sps => tryNodes sps

/-! ### The queue -/

/-- What the functions come to in one job. -/
structure TaskOutcomes where
  handleDigitalContentRoute : Except String UploadResponse
  handleTranscodeAndSegment : Except String TranscodeResponse
  processTranscodeAndSegments : Except String UploadResponse
  selectRandomSPs : Except String (List (Except String LocalFilePaths))

/-- `AsyncProcessingQueue.js:173–194`: the function of a task, and its result. -/
def TaskOutcomes.getFn (outcomes : TaskOutcomes) : ProcessName → Except String TaskResponse
  | .digitalContentUpload => .uploaded <$> outcomes.handleDigitalContentRoute
  | .transcodeAndSegment => .transcoded <$> outcomes.handleTranscodeAndSegment
  | .processTranscodeAndSegments => .uploaded <$> outcomes.processTranscodeAndSegments
  | .transcodeHandOff => .ok (.handedOff (handOff outcomes.selectRandomSPs))

/-- How far a job is. A job that has handed off adds another one before it ends. -/
inductive JobStage where
  | waiting
  | running
  | handedOff (paths : LocalFilePaths)
  | finished (response : Option TaskResponse)
  deriving DecidableEq, Repr

/-- A job. The request ID of its log context names the upload. -/
structure Job where
  requestID : UUID
  task : ProcessName
  stage : JobStage
  deriving DecidableEq, Repr

/-- The job has not ended. -/
def Job.isOpen (job : Job) : Bool :=
  match job.stage with
  | .finished _ => false
  | _ => true

/-- A node: the status keys, the jobs in the order they were added, and the uploads it accepted. -/
structure ProcessingNode where
  redis : UUID → Option ProcessState
  jobs : List Job
  uploads : List UUID

/-- What happens on a node. The result of a call to redis is whether it succeeds. -/
inductive ProcessingEvent where
  | digital_content_async (requestID : UUID) (selfTranscode : Bool)
  | transcode_and_segment (requestID : UUID)
  | begin (job : ℕ) (set : Bool)
  | run (job : ℕ) (outcomes : TaskOutcomes) (setDone setFailed : Bool)
  | addNext (job : ℕ) (added : Bool)
  | expire (requestID : UUID)
  | async_processing_status (requestID : UUID)

namespace ProcessingNode

variable (node : ProcessingNode)

variable (requestID : UUID) (i : ℕ)

/-- `redisClient.set`. -/
def set (state : ProcessState) : ProcessingNode :=
  { node with redis := Function.update node.redis requestID (some state) }

variable (job : Job)

/-- A job in its next stage. -/
def setStage (stage : JobStage) : ProcessingNode :=
  { node with jobs := node.jobs.set i { job with stage := stage } }

/-- `addTask`: `AsyncProcessingQueue.js:152–162`. -/
def addTask (task : ProcessName) : ProcessingNode :=
  { node with jobs := node.jobs ++ [⟨requestID, task, .waiting⟩] }

/-- No request has used the ID: clients draw a new one for each. -/
def isNew : Bool :=
  (node.redis requestID).isNone && node.jobs.all (·.requestID ≠ requestID) &&
    node.uploads.all (· ≠ requestID)

/-- `digitalContents.js:64–91`. -/
def addUpload (selfTranscode : Bool) : ProcessingNode :=
  { node.addTask requestID (if selfTranscode then .digitalContentUpload else .transcodeHandOff) with
    uploads := node.uploads ++ [requestID] }

/-- `AsyncProcessingQueue.js:205–216`: a failed call to redis ends the job. -/
def beginJob (set : Bool) : ProcessingNode :=
  if set then
    (node.set job.requestID ⟨job.task, .IN_PROGRESS, none⟩).setStage i job .running
  else
    node.setStage i job (.finished none)

/-- `AsyncProcessingQueue.js:232–243`: the status of a task that failed. -/
def fail (message : String) (setFailed : Bool) : ProcessingNode :=
  if setFailed then node.set job.requestID ⟨job.task, .FAILED, some (.message message)⟩ else node

/-- `AsyncProcessingQueue.js:218–246`, and what `processTask` makes of it. A status that cannot be
set to done fails the task. -/
def runJob (outcomes : TaskOutcomes) (setDone setFailed : Bool) : ProcessingNode :=
  match outcomes.getFn job.task with
  | .error message => (node.fail job message setFailed).setStage i job (.finished none)
  | .ok response =>
    if setDone then
      (node.set job.requestID ⟨job.task, .DONE, some (.response response)⟩).setStage i job
        (match response with
        | .handedOff paths => .handedOff paths
        | response => .finished (some response))
    else
      (node.fail job "redis" setFailed).setStage i job (.finished none)

/-- `AsyncProcessingQueue.js:77–95`: the upload starts again on this node, or goes on with the
files. -/
def addNextTask (paths : LocalFilePaths) (added : Bool) : ProcessingNode :=
  if added then
    (node.setStage i job (.finished (some (.handedOff paths)))).addTask job.requestID
      (if paths.transcoded then .processTranscodeAndSegments else .digitalContentUpload)
  else
    node.setStage i job (.finished none)

/-- One event. -/
def step : ProcessingEvent → Except String ProcessingNode
  | .digital_content_async requestID selfTranscode => do
    require (node.isNew requestID) "the ID is in use"
    return node.addUpload requestID selfTranscode
  | .transcode_and_segment requestID => do
    require (node.isNew requestID) "the ID is in use"
    return node.addTask requestID .transcodeAndSegment
  | .begin i set =>
    match node.jobs[i]? with
    | none => .error "no job"
    | some job => if job.stage = .waiting then .ok (node.beginJob i job set) else .error "no job"
  | .run i outcomes setDone setFailed =>
    match node.jobs[i]? with
    | none => .error "no job"
    | some job =>
      if job.stage = .running then .ok (node.runJob i job outcomes setDone setFailed)
      else .error "no job"
  | .addNext i added =>
    match node.jobs[i]? with
    | none => .error "no job"
    | some job =>
      match job.stage with
      | .handedOff paths => .ok (node.addNextTask i job paths added)
      | _ => .error "no job"
  | .expire requestID => .ok { node with redis := Function.update node.redis requestID none }
  | .async_processing_status _ => .ok node

end ProcessingNode

/-! ### Polling -/

end ColivingSpec
