import ColivingSpec.ContentNode.Models
import ColivingSpec.Lib.Replay
import Mathlib.Algebra.Order.Ring.Unbundled.Rat

/-!
# Recurring sync requests

A primary looks through its users, requests a sync for each secondary that is behind, and a
queue hands the requests to jobs that issue them. A map in memory keeps the requests that wait,
so that none is made twice. The module follows `findSyncRequests.jobProcessor.ts`,
`stateReconciliationUtils.js`, `SyncRequestDeDuplicator.js`, `issueSyncRequest.jobProcessor.ts`
and the queue callbacks around them, step by step, as their asynchronous calls let other jobs in.
The two modules that load the de-duplicator spell its file name differently; the model has the
one instance both mean.
-/

namespace ColivingSpec

/-- The address of a content node. -/
abbrev Endpoint := String

namespace SyncRequests

/-- `SyncType`: `stateMachineConstants.ts:134–137`. -/
inductive SyncType where
  | Recurring
  | Manual
  deriving DecidableEq, Repr

/-- The value of a sync type. -/
def SyncType.value : SyncType → String
  | .Recurring => "RECURRING"
  | .Manual => "MANUAL"

/-- `SYNC_MODES`: `stateMachineConstants.ts:140–149`. -/
inductive SyncMode where
  | None
  | SyncSecondaryFromPrimary
  | MergePrimaryAndSecondary
  deriving DecidableEq, Repr

/-- The value of a sync mode. -/
def SyncMode.value : SyncMode → String
  | .None => "NONE"
  | .SyncSecondaryFromPrimary => "SYNC_SECONDARY_FROM_PRIMARY"
  | .MergePrimaryAndSecondary => "MERGE_PRIMARY_AND_SECONDARY"

/-- `SyncRequestAxiosParams`, without the fixed url and method: `types.ts:2–12`. -/
structure SyncRequestParameters where
  baseURL : Endpoint
  wallet : List Wallet
  content_node_endpoint : Endpoint
  immediate : Bool
  deriving DecidableEq, Repr

/-- `IssueSyncRequestJobParams`: `types.ts:13–18`. -/
structure Job where
  syncType : SyncType
  syncMode : SyncMode
  syncRequestParameters : SyncRequestParameters
  attemptNumber : Option ℕ
  deriving DecidableEq, Repr

/-! ### The de-duplicator -/

/-- `waitingSyncsByUserWalletMap`: `SyncRequestDeDuplicator.js:10–12`. -/
abbrev WaitingSyncs := String → Option Job

/-- `_getSyncKey`: `SyncRequestDeDuplicator.js:15–17`. -/
def _getSyncKey (syncType : SyncType) (userWallet : Wallet) (secondaryEndpoint : Endpoint) :
    String :=
  syncType.value ++ "::" ++ userWallet ++ "::" ++ secondaryEndpoint

variable (waiting : WaitingSyncs) (job : Job)

variable (syncType : SyncType) (userWallet : Wallet) (config : Config)
  (params : FindSyncRequestsJobParams)

/-- `getDuplicateSyncJobInfo`: `SyncRequestDeDuplicator.js:20–25`. -/
def getDuplicateSyncJobInfo (secondaryEndpoint : Endpoint) : Option Job :=
  waiting (_getSyncKey syncType userWallet secondaryEndpoint)

/-- `recordSync`: `SyncRequestDeDuplicator.js:28–32`. -/
def recordSync (secondaryEndpoint : Endpoint) (jobProps : Job) : WaitingSyncs :=
  Function.update waiting (_getSyncKey syncType userWallet secondaryEndpoint) (some jobProps)

/-- `removeSync`: `SyncRequestDeDuplicator.js:35–39`. -/
def removeSync (secondaryEndpoint : Endpoint) :
    WaitingSyncs :=
  Function.update waiting (_getSyncKey syncType userWallet secondaryEndpoint) none

/-- What `getNewOrExistingSyncReq` returns. -/
inductive SyncReq where
  | duplicateSyncReq (job : Job)
  | syncReqToEnqueue (job : Job)
  deriving DecidableEq, Repr

/-- `getNewOrExistingSyncReq`: `stateReconciliationUtils.js:16–87`. -/
def getNewOrExistingSyncReq (waiting : WaitingSyncs) (userWallet : Wallet)
    (primaryEndpoint secondaryEndpoint : Endpoint) (syncType : SyncType) (syncMode : SyncMode)
    (immediate : Bool) : Except String (WaitingSyncs × SyncReq) :=
  if userWallet = "" ∨ primaryEndpoint = "" ∨ secondaryEndpoint = "" then
    .error "getNewOrExistingSyncReq missing parameter"
  else
    let syncReqToEnqueue : Job :=
      ⟨syncType, syncMode, ⟨secondaryEndpoint, [userWallet], primaryEndpoint, immediate⟩, none⟩
    match syncType, getDuplicateSyncJobInfo waiting syncType userWallet secondaryEndpoint with
    | .Manual, _ => .ok (waiting, .syncReqToEnqueue syncReqToEnqueue)
    | .Recurring, some duplicateSyncJobInfo => .ok (waiting, .duplicateSyncReq duplicateSyncJobInfo)
    | .Recurring, none =>
      .ok (recordSync waiting syncType userWallet secondaryEndpoint syncReqToEnqueue,
        .syncReqToEnqueue syncReqToEnqueue)

/-! ### Finding sync requests -/

/-- What a node says about a user. A clock that is not an integer and a `filesHash` that is
undefined are absent; a null `filesHash` is a user without files. -/
structure UserInfo where
  clock : Option ℤ
  filesHash : Option (Option String)
  deriving DecidableEq, Repr

/-- `UserSecondarySyncMetrics`: `stateMonitoring/types.ts:23–27`. -/
structure SyncMetrics where
  successRate : ℚ
  failureCount : ℕ
  deriving DecidableEq

/-- `StateMonitoringUser`: `stateMonitoring/types.ts:3–12`. -/
structure User where
  wallet : Wallet
  primary : Endpoint
  secondary1 : Endpoint
  secondary2 : Endpoint
  secondary1SpID : ℕ
  secondary2SpID : ℕ
  deriving DecidableEq, Repr

/-- The data of a job that finds sync requests: `stateMonitoring/types.ts:54–59`. -/
structure FindSyncRequestsJobParams where
  users : List User
  unhealthyPeers : List Endpoint
  replicaToAllUserInfoMaps : Endpoint → Option (Wallet → Option UserInfo)
  userSecondarySyncMetricsMap : Wallet → Option (Endpoint → Option SyncMetrics)

/-- The configuration and the map of nodes the job reads. -/
structure Config where
  thisContentNodeEndpoint : Endpoint
  minSecondaryUserSyncSuccessPercent : ℚ
  minFailedSyncRequestsBeforeReconfig : ℕ
  cNodeEndpointToSpIdMap : Endpoint → Option ℕ

/-- `computeSyncModeForUserAndReplica`: `stateMonitoringUtils.ts:207–292`. The last argument is
what the database answers when asked for the hash of the primary's files up to the secondary's
clock. -/
def computeSyncModeForUserAndReplica (primaryInfo secondaryInfo : UserInfo)
    (fetchFilesHashFromDB : Except String (Option String)) : Except String SyncMode :=
  match primaryInfo.clock, secondaryInfo.clock, primaryInfo.filesHash, secondaryInfo.filesHash with
  | some primaryClock, some secondaryClock, some primaryFilesHash, some secondaryFilesHash =>
    if primaryClock = secondaryClock ∧ primaryFilesHash ≠ secondaryFilesHash then
      .ok .MergePrimaryAndSecondary
    else if primaryClock < secondaryClock then .ok .MergePrimaryAndSecondary
    else if primaryClock > secondaryClock ∧ secondaryFilesHash = none then
      .ok .SyncSecondaryFromPrimary
    else if primaryClock > secondaryClock then
      match fetchFilesHashFromDB with
      | .error message => .error message
      | .ok primaryFilesHashForRange =>
        if primaryFilesHashForRange = secondaryFilesHash then .ok .SyncSecondaryFromPrimary
        else .ok .MergePrimaryAndSecondary
    else .ok .None
  | _, _, _, _ => .error "Missing or invalid params"

/-- The secondaries of a user the job looks at: none unless this node is the user's primary,
`findSyncRequests.jobProcessor.ts:192–209`. -/
def secondariesInfo (user : User) : List (Endpoint × ℕ) :=
  if user.primary ≠ config.thisContentNodeEndpoint then []
  else [(user.secondary1, user.secondary1SpID), (user.secondary2, user.secondary2SpID)].filter
    (·.1 ≠ "")

/-- The metrics of a user's secondary. A user without metrics counts as fully synced with both
secondaries: `findSyncRequests.jobProcessor.ts:81–84`. -/
def metricsOf (user : User) (secondary : Endpoint) :
    Option SyncMetrics :=
  match params.userSecondarySyncMetricsMap user.wallet with
  | some metrics => metrics secondary
  | none => if secondary = user.secondary1 ∨ secondary = user.secondary2 then some ⟨1, 0⟩ else none

/-- What a node says about a user; reading an absent entry throws. -/
def userInfoOf (node : Endpoint) (wallet : Wallet) :
    Except String UserInfo :=
  match (params.replicaToAllUserInfoMaps node).bind (· wallet) with
  | some info => .ok info
  | none => .error "Cannot destructure property of undefined"

/-- The loop body of `_findSyncsForUser`: `findSyncRequests.jobProcessor.ts:216–304`. It throws
outside its own `try` blocks when an entry for the secondary or the user is missing. -/
def findSyncForSecondary (waiting : WaitingSyncs) (user : User) (secondaryInfo : Endpoint × ℕ)
    (fetchFilesHashFromDB : Except String (Option String)) :
    Except String (WaitingSyncs × Option Job) :=
  let secondary := secondaryInfo.1
  match metricsOf params user secondary with
  | none => .error "Cannot destructure property of undefined"
  | some metrics =>
    if secondary ∈ params.unhealthyPeers then .ok (waiting, none)
    else if config.cNodeEndpointToSpIdMap secondary ≠ some secondaryInfo.2 then .ok (waiting, none)
    else if metrics.failureCount ≥ config.minFailedSyncRequestsBeforeReconfig ∧
        metrics.successRate < config.minSecondaryUserSyncSuccessPercent then .ok (waiting, none)
    else
      match userInfoOf params user.primary user.wallet, userInfoOf params secondary user.wallet with
      | .ok primaryInfo, .ok secondaryInfo =>
        match computeSyncModeForUserAndReplica primaryInfo secondaryInfo fetchFilesHashFromDB with
        | .error _ => .ok (waiting, none)
        | .ok .None => .ok (waiting, none)
        | .ok syncMode =>
          match getNewOrExistingSyncReq waiting user.wallet config.thisContentNodeEndpoint
            secondary .Recurring syncMode false with
          | .ok (waiting, .syncReqToEnqueue job) => .ok (waiting, some job)
          | .ok (waiting, .duplicateSyncReq _) => .ok (waiting, none)
          | .error _ => .ok (waiting, none)
      | .error message, _ => .error message
      | _, .error message => .error message

/-! ### The jobs and their queue -/

/-- A job that finds sync requests, under way: the secondaries still to look at, and
`syncReqsToEnqueue`. -/
structure FindJob where
  config : Config
  params : FindSyncRequestsJobParams
  remaining : List (User × Endpoint × ℕ)
  syncReqsToEnqueue : List Job

/-- The part of the node the recurring syncs live in. -/
structure State where
  waitingSyncsByUserWalletMap : WaitingSyncs
  /-- The queue that finds sync requests runs one job at a time. -/
  findJob : Option FindJob
  /-- `jobsToEnqueue` of completed jobs, before the callback adds them to the queue. -/
  jobsToEnqueue : List (List Job)
  recurringSyncQueue : List Job
  active : List Job

/-- Nothing recorded, and no jobs. -/
def State.empty : State := ⟨fun _ ↦ none, none, [], [], []⟩

/-- How `_handleIssueSyncRequest` ends after its job left the queue:
`issueSyncRequest.jobProcessor.ts:179–273`. -/
inductive Outcome where
  /-- The secondary caught up, or the sync was given up. -/
  | done
  /-- The request could not be sent. -/
  | failedToIssue
  /-- The secondary did not catch up. -/
  | additionalSyncIsRequired
  /-- An exception ended the job. -/
  | threw
  deriving DecidableEq, Repr

/-- `MAX_ISSUE_MANUAL_SYNC_JOB_ATTEMPTS`, `MAX_ISSUE_RECURRING_SYNC_JOB_ATTEMPTS`:
`stateMachineConstants.ts:38–41`. -/
def maxRetries : SyncType → ℕ
  | .Manual => 2
  | .Recurring => 2

/-- `syncReqToEnqueue` of an issued sync. -/
def syncReqToEnqueue : Outcome → Option Job
  | .failedToIssue =>
    some { job with
      syncMode := .SyncSecondaryFromPrimary
      attemptNumber := some (job.attemptNumber.getD 1) }
  | .additionalSyncIsRequired =>
    some { job with
      syncMode := .SyncSecondaryFromPrimary
      attemptNumber := some (job.attemptNumber.getD 1 + 1) }
  | .done => none
  | .threw => none

/-- The recurring retry that a finished job asks for: `issueSyncRequest.jobProcessor.ts:110–130`.
A manual one goes to another queue. -/
def retry (outcome : Outcome) : Option Job :=
  match syncReqToEnqueue job outcome with
  | some next =>
    if job.attemptNumber.getD 1 < maxRetries next.syncType ∧ next.syncType = .Recurring then
      some next
    else none
  | none => none

/-- What `_handleIssueSyncRequest` does first: it forgets a recurring sync that is now active,
`issueSyncRequest.jobProcessor.ts:156–177`. -/
def forget : WaitingSyncs :=
  match job.syncRequestParameters.wallet with
  | [] => waiting
  | userWallet :: _ =>
    if job.syncMode = .None then waiting
    else
      match job.syncType with
      | .Recurring =>
        removeSync waiting job.syncType userWallet job.syncRequestParameters.baseURL
      | .Manual => waiting

/-- What can happen next. `redisAnswers` is about the calls of `processJob.ts` before and after
a job: when one fails, the job's result is lost. -/
inductive Event where
  | startFind (config : Config) (params : FindSyncRequestsJobParams)
  | findStep (fetchFilesHashFromDB : Except String (Option String))
  | completeFind (redisAnswers : Bool)
  /-- The callback of a completed job adds its jobs: `makeOnCompleteCallback.ts:126–158`. -/
  | addBulk (i : ℕ) (succeeds : Bool)
  | activate (i : ℕ) (redisAnswers : Bool)
  | finish (i : ℕ) (outcome : Outcome) (redisAnswers : Bool)

/-- One event; an event that is not possible now does not happen. -/
def step (s : State) : Event → Except String State
  | .startFind config params =>
    match s.findJob with
    | some _ => .error "a job is running"
    | none =>
      let remaining := params.users.flatMap fun user ↦ (secondariesInfo config user).map (user, ·)
      .ok { s with findJob := some ⟨config, params, remaining, []⟩ }
  | .findStep fetchFilesHashFromDB =>
    match s.findJob with
    | some ⟨config, params, (user, secondary) :: remaining, found⟩ =>
      match findSyncForSecondary config params s.waitingSyncsByUserWalletMap user secondary
        fetchFilesHashFromDB with
      | .ok (waiting, job) =>
        .ok { s with
          waitingSyncsByUserWalletMap := waiting
          findJob := some ⟨config, params, remaining, found ++ job.toList⟩ }
      | .error _ => .ok { s with findJob := none }
    | _ => .error "nothing to look at"
  | .completeFind redisAnswers =>
    match s.findJob with
    | some ⟨_, _, [], found⟩ =>
      .ok { s with
        findJob := none
        jobsToEnqueue :=
          if redisAnswers = true ∧ found ≠ [] then found :: s.jobsToEnqueue else s.jobsToEnqueue }
    | _ => .error "not complete"
  | .addBulk i succeeds =>
    match s.jobsToEnqueue[i]? with
    | some jobs =>
      .ok { s with
        jobsToEnqueue := s.jobsToEnqueue.eraseIdx i
        recurringSyncQueue :=
          if succeeds then s.recurringSyncQueue ++ jobs else s.recurringSyncQueue }
    | none => .error "no such result"
  | .activate i redisAnswers =>
    match s.recurringSyncQueue[i]? with
    | some job =>
      if redisAnswers then
        .ok { s with
          waitingSyncsByUserWalletMap := forget s.waitingSyncsByUserWalletMap job
          recurringSyncQueue := s.recurringSyncQueue.eraseIdx i
          active := job :: s.active }
      else .ok { s with recurringSyncQueue := s.recurringSyncQueue.eraseIdx i }
    | none => .error "no such job"
  | .finish i outcome redisAnswers =>
    match s.active[i]? with
    | some job =>
      .ok { s with
        active := s.active.eraseIdx i
        jobsToEnqueue :=
          match redisAnswers, retry job outcome with
          | true, some next => [next] :: s.jobsToEnqueue
          | _, _ => s.jobsToEnqueue }
    | none => .error "no such job"

/-- The jobs that wait in the queue or are about to be handed to it. -/
def State.pending (s : State) : List Job :=
  (s.findJob.map (·.syncReqsToEnqueue)).getD [] ++ s.jobsToEnqueue.flatten ++ s.recurringSyncQueue

/-- The key of a job. -/
def Job.key : String :=
  _getSyncKey job.syncType (job.syncRequestParameters.wallet.headD "")
    job.syncRequestParameters.baseURL

end SyncRequests

end ColivingSpec
