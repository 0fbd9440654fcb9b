import ColivingSpec.Discovery.ChallengeBatches

/-!
# The cap of an aggregate challenge

An aggregate challenge is created complete, and a batch creates one for a user only while those
there and those it has created so far are fewer than the step count. A row that is there is complete
and is not brought up to date again. A step count of 0 is no cap.
-/

namespace ColivingSpec.Discovery

namespace Challenges

open Lib (Dict withKey)

/-- No user has more challenges. -/
def Capped (n : ℕ) (user_challenges : Dict Specifier UserChallenge) : Prop :=
  ∀ user_id, completionCount user_challenges user_id ≤ n

/-- The rows are complete, with the block they were completed at. -/
def Settled (user_challenges : Dict Specifier UserChallenge) : Prop :=
  ∀ k row, user_challenges.get? k = some row →
    row.is_complete = true ∧ row.completed_blocknumber.isSome = true

/-! ### One batch -/

section Batch

variable {challenge : Challenge} {db : Database} {is_verified : Bool} {event : ChallengeEvent}
  {n : ℕ}

/-- The loop creates no challenge for a user who has as many as the step count. -/
theorem createAggregates_le {updater : ChallengeUpdater Unit}
    (hstep : challenge.step_count = some (n : ℤ)) (hn : 0 < n) {completion_count : ℤ → ℕ}
    (user_id : ℤ) {metadatas : List FullEventMetadata} :
    ∀ to_create, completion_count user_id + countOf user_id to_create ≤ n →
      completion_count user_id + countOf user_id
        (createAggregates challenge updater event completion_count to_create metadatas) ≤ n := by
  induction metadatas with
  | nil => exact fun to_create hle ↦ hle
  | cons metadata rest ih =>
    intro to_create hle
    unfold createAggregates
    split
    · exact ih to_create hle
    · next hroom =>
      split
      · apply ih
        rw [countOf_concat]
        by_cases huser : metadata.2.user_id = user_id
        · rw [huser] at hroom
          have hlt : ¬ full challenge
              (completion_count user_id + countOf user_id to_create) = true := hroom
          unfold full at hlt
          rw [hstep] at hlt
          simp only [decide_eq_true_eq, not_and] at hlt
          rw [if_pos huser]
          omega
        · rw [if_neg huser]
          exact hle
      · exact ih to_create hle

variable {T : Tables Unit}

/-- A user's challenges after a batch are those that were there and those it creates. -/
theorem completionCount_processAll_le (hT : Referrals T) (events : List EventMetadata) (user_id : ℤ) :
    completionCount (processAll challenge (referralUpdater db is_verified) event T
        events).user_challenges user_id ≤
      completionCount T.user_challenges user_id + countOf user_id
        (createdBy challenge (referralUpdater db is_verified) event T.user_challenges events) := by
  have hplain := referralUpdater_plain challenge db is_verified event
  have hsubset : specifiersOf (processAll challenge (referralUpdater db is_verified) event T
        events).user_challenges user_id ⊆
      specifiersOf T.user_challenges user_id ∪
        (((createdBy challenge (referralUpdater db is_verified) event T.user_challenges
          events).filter fun other ↦ decide (other.2.user_id = user_id)).map Prod.fst).toFinset := by
    intro k hk
    obtain ⟨row, hget, huser⟩ := mem_specifiersOf.mp hk
    rw [Finset.mem_union]
    rw [hplain.get?_processAll hT.under] at hget
    cases hold : T.user_challenges.get? k with
    | some old =>
      refine .inl (mem_specifiersOf.mpr ⟨old, hold, ?_⟩)
      rw [hold] at hget
      cases hlast : (withKey (specifierOf (referralUpdater db is_verified)) k events).getLast? with
      | none =>
        rw [hlast] at hget
        cases hget
        exact huser
      | some last =>
        rw [hlast, Option.elim_some] at hget
        dsimp only [afterEvent] at hget
        rw [if_pos (hT.complete k old hold)] at hget
        cases hget
        exact huser
    | none =>
      refine .inr ?_
      rw [hold] at hget
      cases hlast : (withKey (specifierOf (referralUpdater db is_verified)) k events).getLast? with
      | none =>
        rw [hlast] at hget
        cases hget
      | some last =>
        rw [hlast, Option.elim_some] at hget
        dsimp only [afterEvent] at hget
        split at hget
        · next hmem =>
          cases hget
          rw [completedAt_user_id] at huser
          rw [List.mem_toFinset, List.mem_map]
          refine ⟨(k, last), List.mem_filter.mpr ⟨of_decide_eq_true hmem, ?_⟩, rfl⟩
          exact decide_eq_true huser
        · cases hget
  rw [completionCount_eq_card, completionCount_eq_card]
  refine (Finset.card_le_card hsubset).trans ((Finset.card_union_le _ _).trans ?_)
  apply Nat.add_le_add_left
  refine (List.toFinset_card_le _).trans ?_
  rw [List.length_map]
  rfl

theorem capped_processAll (htype : challenge.type = .aggregate)
    (hstep : challenge.step_count = some (n : ℤ)) (hn : 0 < n) (hT : Referrals T)
    (hcapped : Capped n T.user_challenges) (events : List EventMetadata) :
    Capped n (processAll challenge (referralUpdater db is_verified) event T
      events).user_challenges := by
  intro user_id
  refine (completionCount_processAll_le hT events user_id).trans ?_
  unfold createdBy toCreate
  rw [if_pos htype]
  exact createAggregates_le hstep hn user_id [] (hcapped user_id)

/-- A row that is there stays as it is. -/
theorem get?_processAll_of_some (htype : challenge.type = .aggregate) (hT : Referrals T)
    (events : List EventMetadata) {k : Specifier} {row : UserChallenge}
    (hget : T.user_challenges.get? k = some row) :
    (processAll challenge (referralUpdater db is_verified) event T
      events).user_challenges.get? k = some row := by
  rw [get?_processAll_referral htype hT, hget]
  rfl

theorem settled_processAll (htype : challenge.type = .aggregate) (hT : Referrals T)
    (hsettled : Settled T.user_challenges) (events : List EventMetadata) :
    Settled (processAll challenge (referralUpdater db is_verified) event T
      events).user_challenges := by
  intro k row hget
  rw [get?_processAll_referral htype hT, Option.or_eq_some_iff] at hget
  rcases hget with hold | ⟨-, hnew⟩
  · exact hsettled k row hold
  · obtain ⟨e, -, rfl⟩ := Option.map_eq_some_iff.mp hnew
    have hcomplete : (_create_new_user_challenge challenge e.user_id k).is_complete = true :=
      decide_eq_true htype
    unfold newReferral completedAt
    rw [if_pos hcomplete]
    exact ⟨hcomplete, rfl⟩

/-- What a batch brings up to date is new. -/
theorem get?_of_mem_updatedBy (hT : Referrals T) {events : List EventMetadata} {row : UserChallenge}
    (hmem : row ∈ updatedBy challenge (referralUpdater db is_verified) event T.user_challenges
      events) :
    T.user_challenges.get? row.specifier = none := by
  obtain ⟨last, -, ⟨hget, hopen⟩ | ⟨hcreated, -⟩⟩ := (mem_updatedBy hT.under).mp hmem
  · rw [hT.complete _ row hget] at hopen
    cases hopen
  · exact (of_mem_createdBy hcreated).2

end Batch

/-! ### Runs -/

/-- A call keeps the tables within the cap, and the rows that are there; it writes new rows only. -/
structure KeepsCap (id : ChallengeId) (n : ℕ) (call : Call id) (events : List EventMetadata)
    (T : Tables id.Rows) : Prop where
  capped : Capped n (call.process T events).user_challenges
  settled : Settled (call.process T events).user_challenges
  kept : ∀ k row, T.user_challenges.get? k = some row →
    (call.process T events).user_challenges.get? k = some row
  fresh : ∀ row ∈ updatedBy call.challenge (id.updater call.db call.order) call.event
    T.user_challenges (started call.challenge events),
      T.user_challenges.get? row.specifier = none

theorem keepsCap_referral {id : ChallengeId} {n : ℕ} (hn : 0 < n) (call : Call id)
    (hstep : call.challenge.step_count = some (n : ℤ)) (htype : id.type = .aggregate)
    {T : Tables id.Rows} (hT : Consistent id T) (hcapped : Capped n T.user_challenges)
    (hsettled : Settled T.user_challenges) (events : List EventMetadata) :
    KeepsCap id n call events T := by
  have hcall : call.challenge.type = .aggregate := call.type_eq.trans htype
  have hprocess : call.process T events = if call.challenge.active then
      processAll call.challenge (id.updater call.db call.order) call.event T
        (started call.challenge events) else T :=
    process_eq call.challenge (id.updater call.db call.order) call.event T events
  cases id with
  | referrals | ref_v =>
    by_cases hactive : call.challenge.active = true
    · rw [if_pos hactive] at hprocess
      refine ⟨?_, ?_, fun k row hget ↦ ?_, fun row hmem ↦ get?_of_mem_updatedBy hT hmem⟩
      · rw [hprocess]
        exact capped_processAll hcall hstep hn hT hcapped _
      · rw [hprocess]
        exact settled_processAll hcall hT hsettled _
      · rw [hprocess]
        exact get?_processAll_of_some hcall hT _ hget
    · rw [if_neg hactive] at hprocess
      exact ⟨hprocess.symm ▸ hcapped, hprocess.symm ▸ hsettled,
        fun k row hget ↦ hprocess.symm ▸ hget, fun row hmem ↦ get?_of_mem_updatedBy hT hmem⟩
  | _ => exact absurd htype (by decide)

/-- The rows after some calls are within the cap, one for a specifier and complete; a row that was
there earlier is there as it was, and no call brought it up to date. -/
structure CapHolds (id : ChallengeId) (n : ℕ) (history : List (Call id × List EventMetadata)) :
    Prop where
  capped : Capped n (reached id history).user_challenges
  unique : ((reached id history).user_challenges.items.map fun entry ↦ entry.2.specifier).Nodup
  settled : Settled (reached id history).user_challenges
  kept : ∀ earlier later, history = earlier ++ later →
    ∀ k row, (reached id earlier).user_challenges.get? k = some row →
      (reached id history).user_challenges.get? k = some row
  fresh : ∀ earlier batch later, history = earlier ++ batch :: later →
    ∀ row ∈ updatedBy batch.1.challenge (id.updater batch.1.db batch.1.order) batch.1.event
        (reached id earlier).user_challenges (started batch.1.challenge batch.2),
      (reached id earlier).user_challenges.get? row.specifier = none

theorem reached_concat (id : ChallengeId) (history : List (Call id × List EventMetadata))
    (batch : Call id × List EventMetadata) :
    reached id (history ++ [batch]) = batch.1.process (reached id history) batch.2 :=
  List.foldl_concat ..

/-- Each challenge stands under its own specifier. -/
theorem underSpecifiers_of_consistent {id : ChallengeId} (htype : id.type = .aggregate)
    {T : Tables id.Rows} (hT : Consistent id T) : UnderSpecifiers T.user_challenges := by
  cases id with
  | referrals | ref_v => exact Referrals.under hT
  | _ => exact absurd htype (by decide)

theorem nodup_specifiers {user_challenges : Dict Specifier UserChallenge}
    (hunder : UnderSpecifiers user_challenges) :
    (user_challenges.items.map fun entry ↦ entry.2.specifier).Nodup := by
  have hkeys : (user_challenges.items.map fun entry ↦ entry.2.specifier) =
      user_challenges.items.map Prod.fst := by
    apply List.map_congr_left
    intro entry hentry
    exact hunder entry.1 entry.2 ((user_challenges.mem_items _ _).mp hentry)
  rw [hkeys]
  exact user_challenges.nodup

/-- After any batches of an aggregate challenge whose step count is at least 1, every user has at
most as many rows, one for a specifier; a row is complete from the start, and is written once. -/
theorem capHolds_reached (id : ChallengeId) (htype : id.type = .aggregate) {n : ℕ} (hn : 0 < n)
    (history : List (Call id × List EventMetadata))
    (hstep : ∀ batch ∈ history, batch.1.challenge.step_count = some (n : ℤ)) :
    CapHolds id n history := by
  induction history using List.reverseRecOn with
  | nil =>
    have hnone : ∀ k, (reached id []).user_challenges.get? k = none := fun k ↦ rfl
    refine ⟨fun user_id ↦ Nat.zero_le n, List.nodup_nil, fun k row hget ↦ ?_,
      fun earlier later hsplit k row hget ↦ ?_, fun earlier batch later hsplit ↦ ?_⟩
    · rw [hnone] at hget
      cases hget
    · rw [(List.append_eq_nil_iff.mp hsplit.symm).1] at hget
      exact hget
    · exact absurd (List.append_eq_nil_iff.mp hsplit.symm).2 (List.cons_ne_nil _ _)
  | append_singleton history batch ih =>
    have hbefore := ih fun other hother ↦ hstep other (List.mem_append_left _ hother)
    have hkeeps := keepsCap_referral hn batch.1
      (hstep batch (List.mem_append_right _ (List.mem_singleton_self batch))) htype
      (consistent_reached id history) hbefore.capped hbefore.settled batch.2
    have hnext := reached_concat id history batch
    refine ⟨?_, ?_, ?_, ?_, ?_⟩
    · rw [hnext]
      exact hkeeps.capped
    · exact nodup_specifiers (underSpecifiers_of_consistent htype (consistent_reached id _))
    · rw [hnext]
      exact hkeeps.settled
    · intro earlier later hsplit k row hget
      rcases List.eq_nil_or_concat later with rfl | ⟨later', last, rfl⟩
      · rw [List.append_nil] at hsplit
        rw [hsplit]
        exact hget
      · rw [List.concat_eq_append, ← List.append_assoc] at hsplit
        have hearlier : history = earlier ++ later' := (List.append_inj' hsplit rfl).1
        rw [hnext]
        exact hkeeps.kept k row (hbefore.kept earlier later' hearlier k row hget)
    · intro earlier other later hsplit
      rcases List.eq_nil_or_concat later with rfl | ⟨later', last, rfl⟩
      · obtain ⟨rfl, hbatch⟩ := List.append_inj' hsplit rfl
        obtain rfl := List.singleton_injective hbatch
        exact hkeeps.fresh
      · rw [List.concat_eq_append, ← List.cons_append, ← List.append_assoc] at hsplit
        exact hbefore.fresh earlier other later' (List.append_inj' hsplit rfl).1

/-- A call with referrals, for a step count. -/
def referralCall (step_count : ℤ) : Call .referrals where
  challenge := ⟨.aggregate, some step_count, none, true⟩
  type_eq := rfl
  db := ⟨fun _ ↦ some ⟨false, none, none, none, none, none, none⟩, [], [], [], []⟩
  order := byUser
  event := .referral_signup
  registered := List.mem_singleton_self _

/-- A user signs up who was referred by another. -/
def referralOf (user_id referred_user_id : ℤ) : EventMetadata :=
  ⟨1, user_id, ⟨0, referred_user_id, "", 0⟩⟩

/-- User 1 refers two users, and has one challenge within a cap of 1. -/
theorem capHolds_reached_one :
    CapHolds .referrals 1 [(referralCall 1, [referralOf 1 2, referralOf 1 3])] :=
  capHolds_reached .referrals rfl Nat.one_pos _ fun batch hbatch ↦ by
    obtain rfl := List.mem_singleton.mp hbatch
    rfl

/-- With a step count of 0, user 1 gets a challenge. -/
theorem not_capHolds_zero :
    (∀ batch ∈ [(referralCall 0, [referralOf 1 2])],
        batch.1.challenge.step_count = some ((0 : ℕ) : ℤ)) ∧
      ¬ CapHolds .referrals 0 [(referralCall 0, [referralOf 1 2])] := by
  refine ⟨fun batch hbatch ↦ ?_, fun h ↦ ?_⟩
  · obtain rfl := List.mem_singleton.mp hbatch
    rfl
  · exact absurd (h.capped 1) (by decide +kernel)

end Challenges

end ColivingSpec.Discovery
