import ColivingSpec.ContentNode.SyncRequests
import ColivingSpec.Lib.Indexes

/-!
# What the de-duplicator records

The recorded keys are the keys of the recurring jobs that wait, each of one job, as long as no
job that recorded something is lost on its way to the queue and no sync is retried. An exception
for a later user, a failed bulk add and a failed Redis call lose jobs whose keys stay recorded;
a retry waits in the queue without being recorded.
-/

namespace ColivingSpec

open Lib Lib.KeyRecord List Option

namespace SyncRequests

variable {s s' : State}

/-- A recurring job with a wallet and something to do. -/
structure Job.Waits (job : Job) : Prop where
  recurring : job.syncType = .Recurring
  syncs : job.syncMode ≠ .None
  wallet : job.syncRequestParameters.wallet ≠ []

/-- Every job is one that can wait, and every result to be added has jobs. -/
structure WellFormed (s : State) : Prop where
  pending : ∀ job ∈ s.pending, job.Waits
  active : ∀ job ∈ s.active, job.Waits
  nonempty : ∀ jobs ∈ s.jobsToEnqueue, jobs ≠ []

variable {job : Job} {waiting waiting' : WaitingSyncs} {answer : Except String (Option String)}
  {i : ℕ} {redisAnswers : Bool}

/-- A retry of a waiting job could wait. -/
theorem Job.Waits.retry {next : Job} (h : job.Waits) {outcome : Outcome}
    (hretry : retry job outcome = some next) : next.Waits := by
  have hreq : ∃ attemptNumber, next =
      { job with syncMode := .SyncSecondaryFromPrimary, attemptNumber } := by
    unfold SyncRequests.retry at hretry
    cases outcome with
    | done => cases hretry
    | threw => cases hretry
    | failedToIssue | additionalSyncIsRequired =>
      simp only [syncReqToEnqueue, ite_none_right_eq_some, some.injEq] at hretry
      exact ⟨_, hretry.2.symm⟩
  obtain ⟨attemptNumber, rfl⟩ := hreq
  exact ⟨h.recurring, nofun, h.wallet⟩

/-! ### What one look at a secondary does -/

/-- What an event does to the record and to the waiting jobs. -/
inductive Change (s s' : State) : Prop where
  | moved (hwaiting : s'.waitingSyncsByUserWalletMap = s.waitingSyncsByUserWalletMap)
    (hpending : s.pending.Perm s'.pending)
  | recorded (job : Job) (hwaits : job.Waits)
    (hnew : s.waitingSyncsByUserWalletMap job.key = none)
    (hwaiting : s'.waitingSyncsByUserWalletMap
      = Function.update s.waitingSyncsByUserWalletMap job.key (some job))
    (hpending : (job :: s.pending).Perm s'.pending)
  | left (job : Job) (hwaiting : s'.waitingSyncsByUserWalletMap
      = Function.update s.waitingSyncsByUserWalletMap job.key none)
    (hpending : s.pending.Perm (job :: s'.pending))

end SyncRequests

end ColivingSpec
