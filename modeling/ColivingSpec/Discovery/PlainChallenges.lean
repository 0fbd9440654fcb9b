import ColivingSpec.Discovery.ChallengeCells

/-!
# Batches of challenges without rows of their own

Most updaters bring a challenge up to date from its user alone, and do the same again the next time.
A batch of such a challenge and its events one by one differ in one thing only: the batch takes the
block, and for a new challenge the user, from the last event of a specifier, the events one by one
take them from the first.
-/

namespace ColivingSpec.Discovery

namespace Challenges

open Lib (Dict withKey)

section Agreement

variable (challenge : Challenge) {update : UserChallenge → UserChallenge}

/-- Two events would leave the same challenge; `ends` says whether the challenge, brought up to
date, is complete. -/
def Agrees (ends : UserChallenge → Prop) (k : Specifier) (first last : EventMetadata) :
    Option UserChallenge → Prop
  | some user_challenge =>
    user_challenge.is_complete = false → ends user_challenge →
      first.block_number = last.block_number
  | none =>
    first.user_id = last.user_id ∧
      (ends (_create_new_user_challenge challenge first.user_id k) →
        first.block_number = last.block_number)

variable {challenge}

theorem afterEvent_eq_iff
    (huser : ∀ user_challenge, (update user_challenge).user_id = user_challenge.user_id)
    (k : Specifier) (first last : EventMetadata) (old : Option UserChallenge) :
    afterEvent challenge update true k last old = afterEvent challenge update true k first old ↔
      Agrees challenge (fun user_challenge ↦ (update user_challenge).is_complete = true) k first last
        old := by
  cases old with
  | some old =>
    dsimp only [afterEvent, Agrees]
    by_cases hcomplete : old.is_complete = true
    · rw [if_pos hcomplete, if_pos hcomplete, hcomplete]
      simp
    · rw [if_neg hcomplete, if_neg hcomplete, Option.some.injEq, completedAt_inj]
      rw [Bool.not_eq_true] at hcomplete
      constructor
      · intro heq _ hends
        exact (heq hends).symm
      · intro heq hends
        exact (heq hcomplete hends).symm
  | none =>
    dsimp only [afterEvent, Agrees]
    rw [if_pos rfl, if_pos rfl, Option.some.injEq]
    constructor
    · intro heq
      have husers : first.user_id = last.user_id := by
        have hids := congrArg UserChallenge.user_id heq
        rw [completedAt_user_id, completedAt_user_id, huser, huser] at hids
        exact hids.symm
      refine ⟨husers, fun hends ↦ ?_⟩
      rw [← husers, completedAt_inj] at heq
      exact (heq hends).symm
    · rintro ⟨husers, heq⟩
      rw [← husers, completedAt_inj]
      exact fun hends ↦ (heq hends).symm

/-- A challenge that was brought up to date is left as it is by the next event. -/
theorem afterEvent_absorb (hidem : ∀ user_challenge, update (update user_challenge) =
      update user_challenge) (k k' : Specifier) (e e' : EventMetadata) (old : Option UserChallenge) :
    afterEvent challenge update true k' e' (afterEvent challenge update true k e old) =
      afterEvent challenge update true k e old := by
  have hagain : ∀ user_challenge, afterEvent challenge update true k' e'
      (some (completedAt e.block_number (update user_challenge))) =
        some (completedAt e.block_number (update user_challenge)) := by
    intro user_challenge
    dsimp only [afterEvent]
    rw [completedAt_is_complete]
    by_cases hcomplete : (update user_challenge).is_complete = true
    · rw [if_pos hcomplete]
    · rw [if_neg hcomplete]
      unfold completedAt
      rw [if_neg hcomplete, hidem, if_neg hcomplete]
  cases old with
  | some old =>
    dsimp only [afterEvent]
    by_cases hcomplete : old.is_complete = true
    · rw [if_pos hcomplete]
      dsimp only
      rw [if_pos hcomplete]
    · rw [if_neg hcomplete]
      exact hagain old
  | none =>
    dsimp only [afterEvent]
    exact hagain _

variable {k : Specifier} {last : EventMetadata} {user_challenge : UserChallenge}

/-- A challenge that is not an aggregate is created wherever there is none. -/
theorem afterEvent_createdBy {Rows : Type} {updater : ChallengeUpdater Rows}
    {event : ChallengeEvent} (htype : challenge.type ≠ .aggregate)
    {user_challenges : Dict Specifier UserChallenge} {events : List EventMetadata}
    (hlast : (withKey (specifierOf updater) k events).getLast? = some last) :
    afterEvent challenge update
        (decide ((k, last) ∈ createdBy challenge updater event user_challenges events)) k last
        (user_challenges.get? k) =
      afterEvent challenge update true k last (user_challenges.get? k) := by
  cases hget : user_challenges.get? k with
  | some old => rfl
  | none =>
    have hmem : (k, last) ∈ createdBy challenge updater event user_challenges events :=
      (mem_toCreate htype).mpr ⟨(mem_items events k last).mpr hlast, hget⟩
    rw [decide_eq_true hmem]

/-- What holds of the old challenge or of a new one, and stays when it is brought up to date, holds
of the challenge that is left. -/
theorem afterEvent_forall {P : UserChallenge → Prop} {created : Bool} {old : Option UserChallenge}
    (hold : ∀ user_challenge, old = some user_challenge → P user_challenge)
    (hnew : P (_create_new_user_challenge challenge last.user_id k))
    (hupdate : ∀ block_number user_challenge, P user_challenge →
      P (completedAt block_number (update user_challenge)))
    (h : afterEvent challenge update created k last old = some user_challenge) :
    P user_challenge := by
  cases old with
  | some old =>
    dsimp only [afterEvent] at h
    split at h
    · exact hold user_challenge h
    · cases h
      exact hupdate _ old (hold old rfl)
  | none =>
    dsimp only [afterEvent] at h
    split at h
    · cases h
      exact hupdate _ _ hnew
    · cases h

theorem afterEvent_specifier
    (hupdate : ∀ user_challenge, (update user_challenge).specifier = user_challenge.specifier)
    {created : Bool} {old : Option UserChallenge}
    (hold : ∀ user_challenge, old = some user_challenge → user_challenge.specifier = k)
    (h : afterEvent challenge update created k last old = some user_challenge) :
    user_challenge.specifier = k := by
  refine afterEvent_forall (P := fun user_challenge ↦ user_challenge.specifier = k) hold rfl ?_ h
  intro block_number user_challenge heq
  rw [completedAt_specifier, hupdate, heq]

end Agreement

/-! ### Updaters without rows -/

/-- The updater has no rows, and brings a challenge up to date by `update`. -/
structure Plain (challenge : Challenge) (updater : ChallengeUpdater Unit) (event : ChallengeEvent)
    (update : UserChallenge → UserChallenge) : Prop where
  created : ∀ metadatas, updater.on_after_challenge_creation () metadatas = .ok ()
  updated : ∀ user_challenges metadatas, updater.update_user_challenges event () user_challenges
    challenge.step_count metadatas challenge.starting_block = .ok ((), user_challenges.map update)
  specifier : ∀ user_challenge, (update user_challenge).specifier = user_challenge.specifier
  user_id : ∀ user_challenge, (update user_challenge).user_id = user_challenge.user_id
  again : ∀ user_challenge, update (update user_challenge) = update user_challenge

section Plain

variable {challenge : Challenge} {updater : ChallengeUpdater Unit} {event : ChallengeEvent}
  {update : UserChallenge → UserChallenge} {T : Tables Unit}

/-- What a batch does to each specifier. -/
theorem Plain.get?_processAll (h : Plain challenge updater event update)
    (hunder : UnderSpecifiers T.user_challenges) (events : List EventMetadata) (k : Specifier) :
    (processAll challenge updater event T events).user_challenges.get? k =
      (withKey (specifierOf updater) k events).getLast?.elim (T.user_challenges.get? k) fun last ↦
        afterEvent challenge update
          (decide ((k, last) ∈ createdBy challenge updater event T.user_challenges events)) k last
          (T.user_challenges.get? k) := by
  cases events with
  | nil => rfl
  | cons e rest =>
    obtain ⟨user_challenges, hok, hget⟩ := processStarted_eq hunder (e :: rest)
      h.specifier (h.created _) (h.updated _ _)
    dsimp only [processAll]
    rw [hok]
    exact hget k

theorem Plain.underSpecifiers_processAll (h : Plain challenge updater event update)
    (hunder : UnderSpecifiers T.user_challenges) (events : List EventMetadata) :
    UnderSpecifiers (processAll challenge updater event T events).user_challenges := by
  intro k user_challenge hget
  rw [h.get?_processAll hunder] at hget
  cases hlast : (withKey (specifierOf updater) k events).getLast? with
  | none =>
    rw [hlast] at hget
    exact hunder k user_challenge hget
  | some last =>
    rw [hlast] at hget
    exact afterEvent_specifier h.specifier (hunder k) hget

/-- Where each new specifier gets a challenge, the last event of a specifier alone counts. -/
theorem Plain.get?_processAll_of_type (h : Plain challenge updater event update)
    (htype : challenge.type ≠ .aggregate) (hunder : UnderSpecifiers T.user_challenges)
    (events : List EventMetadata) (k : Specifier) :
    (processAll challenge updater event T events).user_challenges.get? k =
      (withKey (specifierOf updater) k events).getLast?.elim (T.user_challenges.get? k) fun last ↦
        afterEvent challenge update true (specifierOf updater last) last
          (T.user_challenges.get? k) := by
  rw [h.get?_processAll hunder]
  cases hlast : (withKey (specifierOf updater) k events).getLast? with
  | none => rfl
  | some last =>
    rw [Option.elim_some, Option.elim_some, (specifierOf_of_getLast? hlast).2]
    exact afterEvent_createdBy htype hlast

/-- A batch leaves what its events leave one by one exactly where the first and the last event of
each specifier agree. -/
theorem Plain.processAll_eq_each_iff (h : Plain challenge updater event update)
    (htype : challenge.type ≠ .aggregate) (hunder : UnderSpecifiers T.user_challenges)
    (events : List EventMetadata) :
    (∀ k, (processAll challenge updater event T events).user_challenges.get? k =
        (events.foldl (fun T e ↦ processAll challenge updater event T [e])
          T).user_challenges.get? k) ↔
      ∀ k first last, (withKey (specifierOf updater) k events).head? = some first →
        (withKey (specifierOf updater) k events).getLast? = some last →
          Agrees challenge (fun user_challenge ↦ (update user_challenge).is_complete = true) k first
            last (T.user_challenges.get? k) := by
  rw [Lib.batch_eq_each_iff (specifierOf updater)
    (fun (T : Tables Unit) k ↦ T.user_challenges.get? k)
    (fun e ↦ afterEvent challenge update true (specifierOf updater e) e)
    (fun T ↦ UnderSpecifiers T.user_challenges)
    (fun T events hunder ↦ h.underSpecifiers_processAll hunder events)
    (fun T events hunder k ↦ h.get?_processAll_of_type htype hunder events k)
    (fun e e' old _ ↦ afterEvent_absorb h.again _ _ e e' old) hunder]
  refine forall_congr' fun k ↦ forall_congr' fun first ↦ forall_congr' fun last ↦ ?_
  refine imp_congr_right fun hfirst ↦ imp_congr_right fun hlast ↦ ?_
  have hkey : specifierOf updater first = k :=
    (Lib.mem_withKey.mp (List.mem_of_mem_head? hfirst)).2
  rw [(specifierOf_of_getLast? hlast).2, hkey]
  exact afterEvent_eq_iff h.user_id k first last _

end Plain

end Challenges

end ColivingSpec.Discovery
