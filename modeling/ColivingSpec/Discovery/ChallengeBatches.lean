import ColivingSpec.Discovery.ListenBatches
import ColivingSpec.Discovery.ProfileBatches
import ColivingSpec.Discovery.ReferralBatches
import Mathlib.Data.List.Sort

/-!
# Batches of challenge events

The managers of all registered challenges, from empty tables through any calls. A call with a batch
of events leaves what calls with the events one by one leave exactly where a condition on the events
and the rows holds, which is given for each challenge.
-/

namespace ColivingSpec.Discovery

namespace Challenges

open Lib (Dict withKey)

/-! ### Calls of a manager -/

/-- What a manager of a challenge is called with, beside the events: the row of the challenge, the
tables that are read, and an event it listens to. -/
structure Call (id : ChallengeId) where
  challenge : Challenge
  type_eq : challenge.type = id.type
  db : Database
  order : RowOrder
  event : ChallengeEvent
  registered : event ∈ id.events

namespace Call

variable {id : ChallengeId} (call : Call id)

/-- The call processes some events as one batch. -/
def process (T : Tables id.Rows) (events : List EventMetadata) : Tables id.Rows :=
  Challenges.process call.challenge (id.updater call.db call.order) call.event T events

/-- The call processes some events one at a time. -/
def processEach (T : Tables id.Rows) (events : List EventMetadata) : Tables id.Rows :=
  Challenges.processEach call.challenge (id.updater call.db call.order) call.event T events

end Call

/-- The tables after some calls, from empty ones. -/
def reached (id : ChallengeId) (history : List (Call id × List EventMetadata)) : Tables id.Rows :=
  history.foldl (fun T batch ↦ batch.1.process T batch.2) ⟨Dict.empty, id.noRows⟩

/-- The same rows in all tables. -/
def SameRows {Rows : Type} (T T' : Tables Rows) : Prop :=
  (∀ k, T.user_challenges.get? k = T'.user_challenges.get? k) ∧ T.rows = T'.rows

/-! ### When a batch can be split -/

/-- The first and the last event of each specifier are related. -/
def FirstLast (specifier : EventMetadata → Specifier) (events : List EventMetadata)
    (R : Specifier → EventMetadata → EventMetadata → Prop) : Prop :=
  ∀ k first last, (withKey specifier k events).head? = some first →
    (withKey specifier k events).getLast? = some last → R k first last

variable (challenge : Challenge) (db : Database)

/-- A batch of a challenge without rows: the first and the last event of a specifier agree. -/
def PlainSplits (updater : ChallengeUpdater Unit) (ends : UserChallenge → Prop) (T : Tables Unit)
    (events : List EventMetadata) : Prop :=
  FirstLast (specifierOf updater) events fun k first last ↦
    Agrees challenge ends k first last (T.user_challenges.get? k)

/-- A batch of uploads. -/
def UploadSplits (T : Tables Unit) (events : List EventMetadata) : Prop :=
  ∀ step_count starting_block, challenge.step_count = some step_count →
    challenge.starting_block = some starting_block →
      PlainSplits challenge (uploadUpdater db) (fun user_challenge ↦
        (uploadsOf db starting_block user_challenge.user_id : ℤ) ≥ step_count) T events

/-- A batch of profile events. -/
def ProfileSplits (event : ChallengeEvent) (T : Tables (UserRows ChallengeProfileCompletion))
    (events : List EventMetadata) : Prop :=
  FirstLast (specifierOf (profileUpdater db)) events fun k first last ↦
    Agrees challenge (fun user_challenge ↦
      some (_get_steps_complete (handleProfile db event user_challenge.user_id
        ((T.rows user_challenge.user_id).getD freshProfile)) : ℤ) = challenge.step_count) k first
      last (T.user_challenges.get? k)

/-- A batch of listens: the listen at the place of a user's row stands for the user's own. -/
def ListenSplits (order : RowOrder) (T : Tables (UserRows ChallengeListenStreak))
    (events : List EventMetadata) : Prop :=
  ∀ step_count, challenge.step_count = some step_count →
    ∀ k last, (withKey (specifierOf (listenStreakUpdater order)) k events).getLast? = some last →
      (∀ old, T.user_challenges.get? k = some old → old.is_complete = false) →
        ListensAgree challenge order step_count T events
          (withKey (specifierOf (listenStreakUpdater order)) k events) last

/-- A batch of referrals: the first and the last event of an admitted specifier have one block. -/
def ReferralSplits (is_verified : Bool) (T : Tables Unit) (events : List EventMetadata) : Prop :=
  FirstLast (specifierOf (referralUpdater db is_verified)) events fun k first last ↦
    T.user_challenges.get? k = none →
      admits challenge db is_verified T.user_challenges events k first = true →
        first.block_number = last.block_number

/-- The condition for each challenge, on the events that are not before the starting block. -/
def Splits : (id : ChallengeId) → Call id → Tables id.Rows → List EventMetadata → Prop
  | .profile_completion, call, T, events => ProfileSplits call.challenge call.db call.event T events
  | .listen_streak, call, T, events => ListenSplits call.challenge call.order T events
  | .digital_content_upload, call, T, events => UploadSplits call.challenge call.db T events
  | .referrals, call, T, events => ReferralSplits call.challenge call.db false T events
  | .ref_v, call, T, events => ReferralSplits call.challenge call.db true T events
  | .referred, call, T, events | .connect_verified, call, T, events
  | .mobile_install, call, T, events | .send_first_tip, call, T, events
  | .first_content_list, call, T, events =>
    PlainSplits call.challenge completingUpdater (fun _ ↦ True) T events
  | .tt, call, T, events | .tut, call, T, events | .tp, call, T, events =>
    PlainSplits call.challenge trendingUpdater (fun _ ↦ True) T events

/-! ### The challenges without rows -/

section Plain

variable (challenge : Challenge) (event : ChallengeEvent)

/-- A challenge that is complete by its event. -/
def complete (user_challenge : UserChallenge) : UserChallenge :=
  { user_challenge with is_complete := true }

theorem completingUpdater_plain : Plain challenge completingUpdater event complete where
  created _ := rfl
  updated _ _ := rfl
  specifier _ := rfl
  user_id _ := rfl
  again _ := rfl

theorem trendingUpdater_plain : Plain challenge trendingUpdater event complete where
  created _ := rfl
  updated _ _ := rfl
  specifier _ := rfl
  user_id _ := rfl
  again _ := rfl

variable {challenge} in
theorem uploadUpdater_plain (db : Database) {step_count starting_block : ℤ}
    (hstep : challenge.step_count = some step_count)
    (hstart : challenge.starting_block = some starting_block) :
    Plain challenge (uploadUpdater db) event (countUploads db step_count starting_block) where
  created _ := rfl
  updated _ _ := by
    rw [hstep, hstart]
    rfl
  specifier _ := rfl
  user_id _ := rfl
  again _ := rfl

variable {challenge event} {updater : ChallengeUpdater Unit}

theorem plainSplits_congr {ends ends' : UserChallenge → Prop}
    (h : ∀ user_challenge, ends user_challenge ↔ ends' user_challenge) (T : Tables Unit)
    (events : List EventMetadata) :
    PlainSplits challenge updater ends T events ↔ PlainSplits challenge updater ends' T events := by
  have heq : ends = ends' := funext fun user_challenge ↦ propext (h user_challenge)
  rw [heq]

theorem plain_sameRows_iff {update : UserChallenge → UserChallenge}
    (h : Plain challenge updater event update) (htype : challenge.type ≠ .aggregate)
    {T : Tables Unit} (hunder : UnderSpecifiers T.user_challenges) (events : List EventMetadata) :
    SameRows (processAll challenge updater event T events)
        (events.foldl (fun T e ↦ processAll challenge updater event T [e]) T) ↔
      PlainSplits challenge updater (fun user_challenge ↦ (update user_challenge).is_complete = true)
        T events :=
  (and_iff_left rfl).trans (h.processAll_eq_each_iff htype hunder events)

end Plain

/-! ### Runs -/

/-- What the calls keep, for each challenge. -/
def Consistent : (id : ChallengeId) → Tables id.Rows → Prop
  | .profile_completion, T => WithRows T
  | .listen_streak, T => WithRows T ∧ StreaksNonneg T
  | .referrals, T | .ref_v, T => Referrals T
  | .digital_content_upload, T | .referred, T | .connect_verified, T | .mobile_install, T
  | .send_first_tip, T | .first_content_list, T | .tt, T | .tut, T | .tp, T =>
    UnderSpecifiers (Tables.user_challenges T)

theorem consistent_empty (id : ChallengeId) : Consistent id ⟨Dict.empty, id.noRows⟩ := by
  have hnone : ∀ {k user_challenge},
      (Dict.empty : Dict Specifier UserChallenge).get? k = some user_challenge → False := by
    intro k user_challenge hsome
    cases hsome
  have hunder : UnderSpecifiers Dict.empty := fun _ _ hsome ↦ (hnone hsome).elim
  have hrows : ∀ Row : Type, @WithRows Row ⟨Dict.empty, fun _ ↦ none⟩ := by
    intro Row
    exact ⟨hunder, fun _ _ hsome ↦ (hnone hsome).elim, fun _ ↦ rfl⟩
  have hreferrals : Referrals ⟨Dict.empty, ()⟩ :=
    ⟨hunder, fun _ _ hsome ↦ (hnone hsome).elim, fun _ _ hsome ↦ (hnone hsome).elim⟩
  cases id with
  | profile_completion => exact hrows _
  | listen_streak =>
    refine ⟨hrows _, ?_⟩
    intro user_id streak hsome
    cases hsome
  | referrals => exact hreferrals
  | ref_v => exact hreferrals
  | _ => exact hunder

variable {challenge : Challenge} (db : Database) {id : ChallengeId} (call : Call id)
  {T : Tables id.Rows}

/-- Without a step count, a batch of listens fails. -/
theorem listenStreak_processAll_of_none (order : RowOrder) (event : ChallengeEvent)
    (hstep : challenge.step_count = none) (T : Tables (UserRows ChallengeListenStreak))
    (events : List EventMetadata) :
    processAll challenge (listenStreakUpdater order) event T events = T := by
  refine processAll_of_error _ _ _ (fun rows user_challenges metadatas ↦ ?_) T events
  rw [hstep]
  exact ⟨_, rfl⟩

variable (event : ChallengeEvent)

/-- Without a step count or a starting block, a batch of uploads fails. -/
theorem upload_processAll_of_none
    (hnone : challenge.step_count = none ∨ challenge.starting_block = none) (T : Tables Unit)
    (events : List EventMetadata) :
    processAll challenge (uploadUpdater db) event T events = T := by
  refine processAll_of_error _ _ _ (fun rows user_challenges metadatas ↦ ?_) T events
  rcases hnone with hstep | hstart
  · rw [hstep]
    exact ⟨_, rfl⟩
  · rw [hstart]
    cases challenge.step_count <;> exact ⟨_, rfl⟩

/-- Each challenge has the type its row was created with. -/
theorem Call.type_ne (h : id.type ≠ .aggregate) :
    call.challenge.type ≠ .aggregate := by
  rw [call.type_eq]
  exact h

/-- A batch keeps the rows consistent. -/
theorem consistent_processAll (hT : Consistent id T) (events : List EventMetadata) :
    Consistent id (processAll call.challenge (id.updater call.db call.order) call.event T
      events) := by
  cases id with
  | profile_completion =>
    exact ((profileUpdater_advancesBy call.db call.challenge call.event).cellOf_processAll
      (profileUpdater_rowed call.db call.challenge.step_count) (call.type_ne (by decide)) hT
      events).1
  | listen_streak =>
    have hevent : call.event = .digital_content_listen := List.mem_singleton.mp call.registered
    rw [hevent]
    cases hstep : call.challenge.step_count with
    | none =>
      have hsame := listenStreak_processAll_of_none call.order .digital_content_listen hstep T events
      exact hsame.symm ▸ hT
    | some step_count =>
      have htype := call.type_ne (by decide)
      exact ⟨(listenStreak_processAll call.order htype hstep hT.1 events).1,
        streaksNonneg_processAll htype hstep hT.1 hT.2 events⟩
  | referrals | ref_v => exact referrals_processAll call.type_eq hT events
  | digital_content_upload =>
    cases hstep : call.challenge.step_count with
    | none => exact (upload_processAll_of_none call.db call.event (.inl hstep) T events).symm ▸ hT
    | some step_count =>
      cases hstart : call.challenge.starting_block with
      | none => exact (upload_processAll_of_none call.db call.event (.inr hstart) T events).symm ▸ hT
      | some starting_block =>
        exact (uploadUpdater_plain call.event call.db hstep hstart).underSpecifiers_processAll hT
          events
  | tt | tut | tp =>
    exact (trendingUpdater_plain call.challenge call.event).underSpecifiers_processAll hT events
  | _ =>
    exact (completingUpdater_plain call.challenge call.event).underSpecifiers_processAll hT events

theorem consistent_process (hT : Consistent id T) (events : List EventMetadata) :
    Consistent id (call.process T events) := by
  unfold Call.process
  rw [process_eq]
  split
  · exact consistent_processAll call hT _
  · exact hT

/-- The rows are consistent after any calls. -/
theorem consistent_reached (id : ChallengeId) (history : List (Call id × List EventMetadata)) :
    Consistent id (reached id history) := by
  induction history using List.reverseRecOn with
  | nil => exact consistent_empty id
  | append_singleton history batch ih =>
    unfold reached at ih ⊢
    rw [List.foldl_concat]
    exact consistent_process batch.1 ih batch.2

/-! ### Batches and events one by one -/

/-- Where no batch changes anything, neither do single events. -/
theorem foldl_of_unchanged {Rows : Type} {batch : Tables Rows → List EventMetadata → Tables Rows}
    (h : ∀ T events, batch T events = T) (T : Tables Rows) (events : List EventMetadata) :
    events.foldl (fun T e ↦ batch T [e]) T = T := by
  induction events with
  | nil => rfl
  | cons e events ih =>
    rw [List.foldl_cons, h]
    exact ih

theorem listen_sameRows_iff (order : RowOrder) (htype : challenge.type ≠ .aggregate)
    {T : Tables (UserRows ChallengeListenStreak)} (hT : WithRows T) (hpos : StreaksNonneg T)
    (events : List EventMetadata) :
    SameRows (processAll challenge (listenStreakUpdater order) .digital_content_listen T events)
        (events.foldl (fun T e ↦ processAll challenge (listenStreakUpdater order)
          .digital_content_listen T [e]) T) ↔
      ListenSplits challenge order T events := by
  unfold ListenSplits
  cases hstep : challenge.step_count with
  | none =>
    rw [foldl_of_unchanged (listenStreak_processAll_of_none order .digital_content_listen hstep),
      listenStreak_processAll_of_none order .digital_content_listen hstep]
    refine iff_of_true ⟨fun _ ↦ rfl, rfl⟩ fun step_count hsome ↦ ?_
    cases hsome
  | some step_count =>
    refine (listenStreak_eq_each_iff htype hstep hT hpos events).trans ?_
    constructor
    · intro hagree step_count' hsome
      cases hsome
      exact hagree
    · intro hagree
      exact hagree step_count rfl

theorem upload_sameRows_iff (htype : challenge.type ≠ .aggregate) {T : Tables Unit}
    (hunder : UnderSpecifiers T.user_challenges) (events : List EventMetadata) :
    SameRows (processAll challenge (uploadUpdater db) event T events)
        (events.foldl (fun T e ↦ processAll challenge (uploadUpdater db) event T [e]) T) ↔
      UploadSplits challenge db T events := by
  have hfails : challenge.step_count = none ∨ challenge.starting_block = none →
      SameRows (processAll challenge (uploadUpdater db) event T events)
        (events.foldl (fun T e ↦ processAll challenge (uploadUpdater db) event T [e]) T) := by
    intro hnone
    rw [foldl_of_unchanged (upload_processAll_of_none db event hnone),
      upload_processAll_of_none db event hnone]
    exact ⟨fun _ ↦ rfl, rfl⟩
  unfold UploadSplits
  cases hstep : challenge.step_count with
  | none =>
    refine iff_of_true (hfails (.inl hstep)) fun step_count starting_block hsome ↦ ?_
    cases hsome
  | some step_count =>
    cases hstart : challenge.starting_block with
    | none =>
      refine iff_of_true (hfails (.inr hstart)) fun step_count starting_block _ hsome ↦ ?_
      cases hsome
    | some starting_block =>
      have hends : ∀ user_challenge,
          (countUploads db step_count starting_block user_challenge).is_complete = true ↔
            (uploadsOf db starting_block user_challenge.user_id : ℤ) ≥ step_count :=
        fun user_challenge ↦ decide_eq_true_iff
      rw [plain_sameRows_iff (uploadUpdater_plain event db hstep hstart) htype hunder,
        plainSplits_congr hends]
      constructor
      · intro hsplits step_count' starting_block' hsome hsome'
        cases hsome
        cases hsome'
        exact hsplits
      · intro hsplits
        exact hsplits step_count starting_block rfl rfl

theorem profile_sameRows_iff (htype : challenge.type ≠ .aggregate)
    {T : Tables (UserRows ChallengeProfileCompletion)} (hT : WithRows T)
    (events : List EventMetadata) :
    SameRows (processAll challenge (profileUpdater db) event T events)
        (events.foldl (fun T e ↦ processAll challenge (profileUpdater db) event T [e]) T) ↔
      ProfileSplits challenge db event T events := by
  have hends : (fun user_challenge ↦ (countProfile challenge.step_count (handleProfile db event
      user_challenge.user_id ((T.rows user_challenge.user_id).getD freshProfile))
        user_challenge).is_complete = true) = fun user_challenge ↦
      some (_get_steps_complete (handleProfile db event user_challenge.user_id
        ((T.rows user_challenge.user_id).getD freshProfile)) : ℤ) = challenge.step_count :=
    funext fun user_challenge ↦ propext decide_eq_true_iff
  unfold ProfileSplits FirstLast
  rw [← hends]
  exact (profileUpdater_advancesBy db challenge event).processAll_eq_each_iff
    (profileUpdater_rowed db challenge.step_count) (handleProfile_again db event) (fun _ _ ↦ rfl)
    htype hT events

/-- A challenge that is complete by its event ends with each event. -/
theorem complete_sameRows_iff {updater : ChallengeUpdater Unit} {event : ChallengeEvent}
    (h : Plain challenge updater event complete) (htype : challenge.type ≠ .aggregate)
    {T : Tables Unit} (hunder : UnderSpecifiers T.user_challenges) (events : List EventMetadata) :
    SameRows (processAll challenge updater event T events)
        (events.foldl (fun T e ↦ processAll challenge updater event T [e]) T) ↔
      PlainSplits challenge updater (fun _ ↦ True) T events := by
  rw [plain_sameRows_iff h htype hunder]
  exact plainSplits_congr (fun user_challenge ↦ iff_of_true rfl trivial) T events

/-- A batch leaves what its events leave one by one exactly where the condition of its challenge
holds. -/
theorem processAll_sameRows_iff (hT : Consistent id T) (events : List EventMetadata) :
    SameRows
        (processAll call.challenge (id.updater call.db call.order) call.event T events)
        (events.foldl (fun T e ↦
          processAll call.challenge (id.updater call.db call.order) call.event T [e]) T) ↔
      Splits id call T events := by
  cases id with
  | profile_completion =>
    exact profile_sameRows_iff call.db call.event (call.type_ne (by decide)) hT events
  | listen_streak =>
    have hevent : call.event = .digital_content_listen := List.mem_singleton.mp call.registered
    rw [hevent]
    exact listen_sameRows_iff call.order (call.type_ne (by decide)) hT.1 hT.2 events
  | referrals | ref_v =>
    exact (and_iff_left rfl).trans (processAll_eq_each_referral_iff call.type_eq hT events)
  | digital_content_upload =>
    exact upload_sameRows_iff call.db call.event (call.type_ne (by decide)) hT events
  | tt | tut | tp =>
    exact complete_sameRows_iff (trendingUpdater_plain call.challenge call.event)
      (call.type_ne (by decide)) hT events
  | _ =>
    exact complete_sameRows_iff (completingUpdater_plain call.challenge call.event)
      (call.type_ne (by decide)) hT events

/-- After any calls, a manager leaves the same rows for a batch and for its events one at a time
exactly where its challenge is inactive, or the condition of the challenge holds for the events that
are not before the starting block. -/
theorem process_sameRows_processEach_iff (id : ChallengeId)
    (history : List (Call id × List EventMetadata)) (call : Call id)
    (events : List EventMetadata) :
    SameRows (call.process (reached id history) events)
        (call.processEach (reached id history) events) ↔
      (call.challenge.active = true →
        Splits id call (reached id history) (started call.challenge events)) := by
  have hT := consistent_reached id history
  unfold Call.process Call.processEach
  rw [process_eq, processEach_eq]
  by_cases hactive : call.challenge.active = true
  · rw [if_pos hactive, if_pos hactive, forall_prop_of_true hactive]
    exact processAll_sameRows_iff call hT _
  · rw [if_neg hactive, if_neg hactive]
    exact iff_of_true ⟨fun _ ↦ rfl, rfl⟩ fun h ↦ absurd h hactive

/-! ### Listens that go to another's row -/

/-- A query that gives the rows by user. -/
def byUser : RowOrder where
  order := List.insertionSort (· ≤ ·)
  perm := List.perm_insertionSort (· ≤ ·)

/-- A call with listens, with the row of `challenges.json`. -/
def listenCall : Call .listen_streak where
  challenge := ⟨.numeric, some 7, some 116023891, true⟩
  type_eq := rfl
  db := ⟨fun _ ↦ none, [], [], [], []⟩
  order := byUser
  event := .digital_content_listen
  registered := List.mem_singleton_self _

/-- A listen of a user. -/
def listenOf (block_number user_id created_at : ℤ) : EventMetadata :=
  ⟨block_number, user_id, ⟨created_at, user_id, "", 0⟩⟩

/-- Users 1 and 2 have listened once; then 2 listens a day later, and 1 within the day. In one batch
the listen of 2 goes to the row of 1, which gains a day, and the one of 1 to the row of 2. -/
theorem process_not_sameRows_processEach :
    ¬ SameRows
      (listenCall.process
        (reached .listen_streak [(listenCall, [listenOf 116023891 1 0, listenOf 116023891 2 0])])
        [listenOf 116023893 2 90000, listenOf 116023893 1 10000])
      (listenCall.processEach
        (reached .listen_streak [(listenCall, [listenOf 116023891 1 0, listenOf 116023891 2 0])])
        [listenOf 116023893 2 90000, listenOf 116023893 1 10000]) := by
  intro hsame
  have hrow := congrFun hsame.2 1
  revert hrow
  decide +kernel

end Challenges

end ColivingSpec.Discovery
