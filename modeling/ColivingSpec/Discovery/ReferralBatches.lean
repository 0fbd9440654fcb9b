import ColivingSpec.Discovery.ChallengeUpdaters
import ColivingSpec.Discovery.PlainChallenges
import Mathlib.Data.Finset.Card

/-!
# Batches of referrals

A referral challenge is complete when it is created, and a user may have a limited number of them.
A batch and its events one by one create the challenges of the same specifiers: a user's new
referrals count in the order in which they first come. They differ in the block alone.
-/

namespace ColivingSpec.Discovery

open List Option Prod

namespace Challenges

open Lib (Dict withKey beforeKey)

/-- Who referred, by the specifier. -/
def Specifier.referrer : Specifier → Option ℤ
  | .referral user_id _ => some user_id
  | .user _ | .trending .. => none

/-! ### The number of challenges of a user -/

variable (user_challenges : Dict Specifier UserChallenge)

/-- The specifiers of a user's challenges. -/
def specifiersOf (user_id : ℤ) :
    Finset Specifier :=
  ((user_challenges.items.filter fun row ↦ decide (row.2.user_id = user_id)).map Prod.fst).toFinset

theorem mem_specifiersOf {user_challenges : Dict Specifier UserChallenge} {user_id : ℤ}
    {k : Specifier} :
    k ∈ specifiersOf user_challenges user_id ↔
      ∃ user_challenge, user_challenges.get? k = some user_challenge ∧
        user_challenge.user_id = user_id := by
  unfold specifiersOf
  simp only [List.mem_toFinset, List.mem_map, mem_filter, decide_eq_true_eq, Prod.exists,
    exists_and_right, exists_eq_right, Dict.mem_items]

theorem completionCount_eq_card (user_id : ℤ) :
    completionCount user_challenges user_id = (specifiersOf user_challenges user_id).card := by
  have hnodup := (filter_sublist (p := fun row : Specifier × UserChallenge ↦
    decide (row.2.user_id = user_id)).map fst).nodup user_challenges.nodup
  unfold specifiersOf
  rw [toFinset_card_of_nodup hnodup, length_map]
  rfl

theorem completionCount_congr {d d' : Dict Specifier UserChallenge}
    (h : ∀ k, d'.get? k = d.get? k) (user_id : ℤ) :
    completionCount d' user_id = completionCount d user_id := by
  rw [completionCount_eq_card, completionCount_eq_card]
  congr 1
  ext k
  rw [mem_specifiersOf, mem_specifiersOf, h]

/-- A challenge of a new specifier counts for its user. -/
theorem completionCount_insert {d d' : Dict Specifier UserChallenge} {k : Specifier}
    (user_challenge : UserChallenge) (hnone : d.get? k = none)
    (h : ∀ other, d'.get? other = if k = other then some user_challenge else d.get? other)
    (user_id : ℤ) :
    completionCount d' user_id =
      completionCount d user_id + if user_challenge.user_id = user_id then 1 else 0 := by
  have hnot : k ∉ specifiersOf d user_id := by
    rw [mem_specifiersOf, hnone]
    rintro ⟨other, hsome, -⟩
    cases hsome
  rw [completionCount_eq_card, completionCount_eq_card]
  by_cases huser : user_challenge.user_id = user_id
  · rw [if_pos huser, ← Finset.card_insert_of_notMem hnot]
    congr 1
    ext other
    rw [mem_specifiersOf, h, Finset.mem_insert, mem_specifiersOf]
    by_cases heq : k = other
    · subst heq
      simp [huser]
    · simp [heq, Ne.symm heq]
  · rw [if_neg huser, Nat.add_zero]
    congr 1
    ext other
    rw [mem_specifiersOf, h, mem_specifiersOf]
    by_cases heq : k = other
    · subst heq
      simp [huser, hnone]
    · simp [heq]

/-- More challenges leave no more room. -/
theorem full_mono {challenge : Challenge} {count count' : ℕ} (hle : count ≤ count')
    (h : full challenge count = true) : full challenge count' = true := by
  unfold full at h ⊢
  cases hstep : challenge.step_count with
  | none =>
    rw [hstep] at h
    exact h
  | some step_count =>
    rw [hstep] at h
    obtain ⟨hne, hge⟩ := of_decide_eq_true h
    refine decide_eq_true ⟨hne, ?_⟩
    omega

section Referrals

variable {challenge : Challenge} {db : Database} {is_verified : Bool} {event : ChallengeEvent}

/-! ### The referrals a batch creates -/

variable (user_id : ℤ)

/-- How many of the events are a user's. -/
def countOf (metadatas : List FullEventMetadata) : ℕ :=
  (metadatas.filter fun other ↦ decide (other.2.user_id = user_id)).length

theorem countOf_cons (x : FullEventMetadata) (metadatas : List FullEventMetadata) :
    countOf user_id (x :: metadatas) =
      countOf user_id metadatas + if x.2.user_id = user_id then 1 else 0 := by
  unfold countOf
  rw [filter_cons]
  by_cases heq : x.2.user_id = user_id
  · rw [if_pos (decide_eq_true heq), if_pos heq]
    rfl
  · rw [if_neg (by simpa using heq), if_neg heq]
    rfl

theorem countOf_concat (metadatas : List FullEventMetadata) (x : FullEventMetadata) :
    countOf user_id (metadatas ++ [x]) =
      countOf user_id metadatas + if x.2.user_id = user_id then 1 else 0 := by
  unfold countOf
  rw [filter_append, length_append]
  congr 1
  exact (countOf_cons user_id x []).trans (Nat.zero_add _)

theorem createAggregates_cons (completion_count : ℤ → ℕ) (to_create : List FullEventMetadata)
    (x : FullEventMetadata) (rest : List FullEventMetadata) :
    createAggregates challenge (referralUpdater db is_verified) event completion_count to_create
        (x :: rest) =
      if full challenge (completion_count x.2.user_id + countOf x.2.user_id to_create) = true then
        createAggregates challenge (referralUpdater db is_verified) event completion_count
          to_create rest
      else if does_user_exist_with_verification_status db x.2.user_id is_verified = true then
        createAggregates challenge (referralUpdater db is_verified) event completion_count
          (to_create ++ [x]) rest
      else createAggregates challenge (referralUpdater db is_verified) event completion_count
        to_create rest := by
  rfl

/-- Among new events of distinct specifiers, an event gets a challenge when its user may have one,
and there is room after the events of the user before it. -/
theorem mem_createAggregates {completion_count : ℤ → ℕ} {m : FullEventMetadata}
    {metadatas : List FullEventMetadata} (hnodup : (metadatas.map fst).Nodup) :
    ∀ to_create : List FullEventMetadata,
      m ∈ createAggregates challenge (referralUpdater db is_verified) event completion_count
          to_create metadatas ↔
        m ∈ to_create ∨ m ∈ metadatas ∧
          does_user_exist_with_verification_status db m.2.user_id is_verified = true ∧
          full challenge (completion_count m.2.user_id + countOf m.2.user_id to_create +
            countOf m.2.user_id (beforeKey fst m.1 metadatas)) = false := by
  induction metadatas with
  | nil =>
    intro to_create
    rw [createAggregates]
    simp
  | cons x rest ih =>
    intro to_create
    obtain ⟨hnot, hrest⟩ := nodup_cons.mp hnodup
    have hfull : ∀ {count}, full challenge (completion_count x.2.user_id +
        countOf x.2.user_id to_create) = true → completion_count x.2.user_id +
          countOf x.2.user_id to_create ≤ count → ¬ full challenge count = false := by
      intro count hfull hle heq
      rw [full_mono hle hfull] at heq
      cases heq
    rw [createAggregates_cons]
    by_cases hx : m = x
    · -- the event itself comes first
      subst hx
      have hgone : m ∉ rest := fun hmem ↦ hnot (List.mem_map_of_mem hmem)
      have hzero : countOf m.2.user_id (beforeKey fst m.1 (m :: rest)) = 0 := by
        rw [Lib.beforeKey_cons, if_pos rfl]
        rfl
      rw [hzero, Nat.add_zero]
      split_ifs with hroom hmay
      · rw [ih hrest, hroom]
        simp [hgone]
      · rw [ih hrest, hmay]
        simp [hgone, hroom]
      · rw [ih hrest]
        simp [hgone, hmay]
    · -- another event comes first, and takes room if it is the same user's
      have hmem : m ∈ x :: rest ↔ m ∈ rest := by
        rw [mem_cons, or_iff_right hx]
      rw [hmem]
      have hold : m ∈ to_create ++ [x] ↔ m ∈ to_create := by
        rw [mem_append, mem_singleton, or_iff_left hx]
      by_cases hin : m ∈ rest
      · have hkey : ¬ x.1 = m.1 := fun heq ↦ hnot (heq ▸ List.mem_map_of_mem hin)
        rw [Lib.beforeKey_cons, if_neg hkey, countOf_cons]
        split_ifs with hroom huser hmay huser huser
        · rw [ih hrest]
          rw [huser] at hroom hfull
          refine or_congr_right (and_congr_right fun _ ↦ and_congr_right fun _ ↦ iff_of_false ?_ ?_)
          · exact hfull hroom (Nat.le_add_right _ _)
          · exact hfull hroom (Nat.le_add_right _ _)
        · rw [ih hrest, Nat.add_zero]
        · have hsum : ∀ a b c : ℕ, a + (b + 1) + c = a + b + (c + 1) := by omega
          rw [ih hrest, hold, countOf_concat, if_pos huser, hsum]
        · rw [ih hrest, hold, countOf_concat, if_neg huser, Nat.add_zero, Nat.add_zero]
        · rw [ih hrest]
          rw [huser] at hmay
          refine or_congr_right (and_congr_right fun _ ↦ ?_)
          exact iff_of_false (fun h ↦ hmay h.1) fun h ↦ hmay h.1
        · rw [ih hrest, Nat.add_zero]
      · split_ifs with hroom hmay
        · rw [ih hrest]
          simp [hin]
        · rw [ih hrest, hold]
          simp [hin]
        · rw [ih hrest]
          simp [hin]

/-! ### Room for a referral -/

/-- The new specifiers of the same referrer that come before a specifier. -/
def newBefore (updater : ChallengeUpdater Unit) (user_challenges : Dict Specifier UserChallenge)
    (events : List EventMetadata) (k : Specifier) : Finset Specifier :=
  ((beforeKey (specifierOf updater) k events).map (specifierOf updater)).toFinset.filter
    fun other ↦ other.referrer = k.referrer ∧ user_challenges.get? other = none

/-- Whether an event of a new specifier gets a challenge. -/
def admits (challenge : Challenge) (db : Database) (is_verified : Bool)
    (user_challenges : Dict Specifier UserChallenge) (events : List EventMetadata) (k : Specifier)
    (e : EventMetadata) : Bool :=
  does_user_exist_with_verification_status db e.user_id is_verified &&
    !full challenge (completionCount user_challenges e.user_id +
      (newBefore (referralUpdater db is_verified) user_challenges events k).card)

/-- The new events of a user that stand before a specifier among those that stay are as many as the
new specifiers of the user before it. -/
theorem countOf_beforeKey {user_challenges : Dict Specifier UserChallenge}
    {events : List EventMetadata} {k : Specifier} {user_id : ℤ} (hk : k.referrer = some user_id)
    (hnone : user_challenges.get? k = none) :
    countOf user_id (beforeKey fst k
        ((events_with_specifiers_map (referralUpdater db is_verified) events).items.filter
          fun metadata ↦ (user_challenges.get? metadata.1).isNone)) =
      (newBefore (referralUpdater db is_verified) user_challenges events k).card := by
  have hnew : ∀ m : FullEventMetadata, m.1 = k → (user_challenges.get? m.1).isNone = true := by
    rintro m rfl
    rw [hnone]
    rfl
  let map := events_with_specifiers_map (referralUpdater db is_verified) events
  have hkeys : (beforeKey fst k map.items).map fst =
      ((beforeKey (specifierOf (referralUpdater db is_verified)) k events).map
        (specifierOf (referralUpdater db is_verified))).eraseDups :=
    Lib.keys_beforeKey_foldl_set id k events
  have hreferrer : ∀ m ∈ beforeKey fst k map.items, m.1.referrer = some m.2.user_id := by
    intro m hm
    have hlast := (mem_items events m.1 m.2).mp ((takeWhile_sublist _).subset hm)
    rw [← (specifierOf_of_getLast? hlast).2]
    rfl
  have hnodup : (((beforeKey fst k map.items).filter fun metadata ↦
      (user_challenges.get? metadata.1).isNone).filter fun other ↦
        decide (other.2.user_id = user_id)).map fst |>.Nodup := by
    refine ((filter_sublist.trans filter_sublist).map fst).nodup ?_
    exact ((takeWhile_sublist _).map fst).nodup map.nodup
  rw [Lib.beforeKey_filter hnew, countOf, ← length_map (f := fst), ← toFinset_card_of_nodup hnodup]
  congr 1
  ext other
  rw [newBefore, Finset.mem_filter, List.mem_toFinset, List.mem_toFinset, List.mem_map, hk,
    ← mem_eraseDups (l := List.map _ _), ← hkeys, List.mem_map]
  constructor
  · rintro ⟨m, hm, rfl⟩
    rw [mem_filter, mem_filter, decide_eq_true_eq, isNone_iff_eq_none] at hm
    obtain ⟨⟨hbefore, hget⟩, huser⟩ := hm
    refine ⟨⟨m, hbefore, rfl⟩, ?_, hget⟩
    rw [hreferrer m hbefore, huser]
  · rintro ⟨⟨m, hbefore, rfl⟩, huser, hget⟩
    rw [hreferrer m hbefore, some.injEq] at huser
    refine ⟨m, ?_, rfl⟩
    rw [mem_filter, mem_filter, decide_eq_true_eq, isNone_iff_eq_none]
    exact ⟨⟨hbefore, hget⟩, huser⟩

variable (db is_verified event) in
theorem mem_createdBy_referral (htype : challenge.type = .aggregate)
    (user_challenges : Dict Specifier UserChallenge) (events : List EventMetadata) (k : Specifier)
    (last : EventMetadata) :
    (k, last) ∈ createdBy challenge (referralUpdater db is_verified) event user_challenges events ↔
      (withKey (specifierOf (referralUpdater db is_verified)) k events).getLast? = some last ∧
        user_challenges.get? k = none ∧
          admits challenge db is_verified user_challenges events k last = true := by
  have hnodup : (((events_with_specifiers_map (referralUpdater db is_verified) events).items.filter
      fun metadata ↦ (user_challenges.get? metadata.1).isNone).map fst).Nodup :=
    (filter_sublist.map fst).nodup (Dict.nodup _)
  unfold createdBy toCreate
  rw [if_pos htype, mem_createAggregates hnodup, mem_filter, mem_items,
    isNone_iff_eq_none, or_iff_right not_mem_nil, and_assoc]
  refine and_congr_right fun hlast ↦ and_congr_right fun hnone ↦ ?_
  have hk : k.referrer = some last.user_id := by
    rw [← (specifierOf_of_getLast? hlast).2]
    rfl
  rw [countOf_beforeKey hk hnone, admits, Bool.and_eq_true, Bool.not_eq_true']
  rfl

/-! ### Batches -/

/-- Every challenge is a referral of its user's, and complete. -/
structure Referrals (T : Tables Unit) : Prop where
  under : UnderSpecifiers T.user_challenges
  referrer : ∀ k user_challenge, T.user_challenges.get? k = some user_challenge →
    k.referrer = some user_challenge.user_id
  complete : ∀ k user_challenge, T.user_challenges.get? k = some user_challenge →
    user_challenge.is_complete = true

/-- The challenge an event of a new specifier gets. -/
def newReferral (challenge : Challenge) (k : Specifier) (e : EventMetadata) : UserChallenge :=
  completedAt e.block_number (_create_new_user_challenge challenge e.user_id k)

theorem referralUpdater_plain (challenge : Challenge) (db : Database) (is_verified : Bool)
    (event : ChallengeEvent) : Plain challenge (referralUpdater db is_verified) event id where
  created _ := rfl
  updated user_challenges _ := congrArg (fun user_challenges ↦ Except.ok ((), user_challenges))
    (List.map_id user_challenges).symm
  specifier _ := rfl
  user_id _ := rfl
  again _ := rfl

/-- A batch keeps the challenges that are there, and adds those of the events it admits, with the
block of the last one. -/
theorem get?_processAll_referral (htype : challenge.type = .aggregate) {T : Tables Unit}
    (hT : Referrals T) (events : List EventMetadata) (k : Specifier) :
    (processAll challenge (referralUpdater db is_verified) event T events).user_challenges.get? k =
      (T.user_challenges.get? k).or
        (((withKey (specifierOf (referralUpdater db is_verified)) k events).getLast?.filter
          (admits challenge db is_verified T.user_challenges events k)).map
            (newReferral challenge k)) := by
  rw [(referralUpdater_plain challenge db is_verified event).get?_processAll hT.under]
  cases hlast : (withKey (specifierOf (referralUpdater db is_verified)) k events).getLast? with
  | none => exact (or_none ..).symm
  | some last =>
    rw [elim_some]
    cases hget : T.user_challenges.get? k with
    | some old =>
      dsimp only [afterEvent]
      rw [if_pos (hT.complete k old hget)]
      rfl
    | none =>
      dsimp only [afterEvent, id]
      have hmem := mem_createdBy_referral db is_verified event htype T.user_challenges events k last
      rw [hlast, hget] at hmem
      simp only [true_and] at hmem
      simp only [hmem, decide_eq_true_eq, none_or, filter_some]
      split <;> rfl

theorem referrals_processAll (htype : challenge.type = .aggregate) {T : Tables Unit}
    (hT : Referrals T) (events : List EventMetadata) :
    Referrals (processAll challenge (referralUpdater db is_verified) event T events) := by
  have hcase : ∀ {k user_challenge}, (processAll challenge (referralUpdater db is_verified) event T
      events).user_challenges.get? k = some user_challenge →
        T.user_challenges.get? k = some user_challenge ∨
          ∃ e, specifierOf (referralUpdater db is_verified) e = k ∧
            newReferral challenge k e = user_challenge := by
    intro k user_challenge hget
    rw [get?_processAll_referral htype hT, or_eq_some_iff] at hget
    rcases hget with hold | ⟨-, hnew⟩
    · exact .inl hold
    · obtain ⟨e, he, heq⟩ := map_eq_some_iff.mp hnew
      exact .inr ⟨e, (specifierOf_of_getLast? (filter_eq_some_iff.mp he).1).2, heq⟩
  refine ⟨?_, ?_, ?_⟩
  · intro k user_challenge hget
    rcases hcase hget with hold | ⟨e, -, rfl⟩
    · exact hT.under k user_challenge hold
    · exact completedAt_specifier _ _
  · intro k user_challenge hget
    rcases hcase hget with hold | ⟨e, rfl, rfl⟩
    · exact hT.referrer k user_challenge hold
    · rw [newReferral, completedAt_user_id]
      rfl
  · intro k user_challenge hget
    rcases hcase hget with hold | ⟨e, -, rfl⟩
    · exact hT.complete k user_challenge hold
    · rw [newReferral, completedAt_is_complete]
      exact decide_eq_true htype

/-! ### Events one by one -/

section Each

variable {user_challenges : Dict Specifier UserChallenge} {events : List EventMetadata}
  {k : Specifier} {x e : EventMetadata}

theorem newBefore_cons_self (hkey : specifierOf (referralUpdater db is_verified) x = k) :
    newBefore (referralUpdater db is_verified) user_challenges (x :: events) k =
      newBefore (referralUpdater db is_verified) user_challenges [] k := by
  unfold newBefore
  rw [Lib.beforeKey_cons, if_pos hkey]
  rfl

theorem newBefore_cons (hkey : specifierOf (referralUpdater db is_verified) x ≠ k) :
    newBefore (referralUpdater db is_verified) user_challenges (x :: events) k =
      if some x.user_id = k.referrer ∧ user_challenges.get?
          (specifierOf (referralUpdater db is_verified) x) = none then
        insert (specifierOf (referralUpdater db is_verified) x)
          (newBefore (referralUpdater db is_verified) user_challenges events k)
      else newBefore (referralUpdater db is_verified) user_challenges events k := by
  unfold newBefore
  rw [Lib.beforeKey_cons, if_neg hkey, map_cons, toFinset_cons, Finset.filter_insert]
  rfl

theorem newBefore_congr {other : Dict Specifier UserChallenge}
    (h : ∀ k, other.get? k = user_challenges.get? k) :
    newBefore (referralUpdater db is_verified) other events k =
      newBefore (referralUpdater db is_verified) user_challenges events k := by
  unfold newBefore
  simp only [h]

theorem admits_congr {other : Dict Specifier UserChallenge}
    (h : ∀ k, other.get? k = user_challenges.get? k) :
    admits challenge db is_verified other events k e =
      admits challenge db is_verified user_challenges events k e := by
  unfold admits
  rw [newBefore_congr h, completionCount_congr h]

/-- An event that is admitted after others of its user is admitted without them. -/
theorem admits_nil_of_admits {k' : Specifier} (huser : e.user_id = x.user_id)
    (h : admits challenge db is_verified user_challenges events k e = true) :
    admits challenge db is_verified user_challenges [] k' x = true := by
  unfold admits at h ⊢
  rw [Bool.and_eq_true, Bool.not_eq_true', huser] at h
  rw [Bool.and_eq_true, Bool.not_eq_true', ← Bool.not_eq_true]
  refine ⟨h.1, fun hfull ↦ ?_⟩
  have hzero : (newBefore (referralUpdater db is_verified) user_challenges [] k').card = 0 := rfl
  rw [full_mono (Nat.add_le_add_left (Nat.zero_le _) _) hfull] at h
  cases h.2

variable (db is_verified event) in
/-- An event by itself gets a challenge if its specifier is new and it is admitted. -/
theorem get?_processAll_singleton_referral (htype : challenge.type = .aggregate) {T : Tables Unit}
    (hT : Referrals T) (x : EventMetadata) (other : Specifier) :
    (processAll challenge (referralUpdater db is_verified) event T [x]).user_challenges.get? other =
      if T.user_challenges.get? (specifierOf (referralUpdater db is_verified) x) = none ∧
          admits challenge db is_verified T.user_challenges []
            (specifierOf (referralUpdater db is_verified) x) x = true ∧
          specifierOf (referralUpdater db is_verified) x = other then
        some (newReferral challenge other x)
      else T.user_challenges.get? other := by
  rw [get?_processAll_referral htype hT, Lib.withKey_cons, Lib.withKey_nil]
  by_cases hkey : specifierOf (referralUpdater db is_verified) x = other
  · subst hkey
    have hadmits : admits challenge db is_verified T.user_challenges [x]
        (specifierOf (referralUpdater db is_verified) x) x =
          admits challenge db is_verified T.user_challenges []
            (specifierOf (referralUpdater db is_verified) x) x := by
      unfold admits
      rw [newBefore_cons_self rfl]
    rw [if_pos rfl, getLast?_singleton, filter_some, hadmits]
    cases hget : T.user_challenges.get? (specifierOf (referralUpdater db is_verified) x) with
    | some old => simp
    | none =>
      simp only [true_and, and_true]
      split <;> rfl
  · rw [if_neg hkey, if_neg fun h ↦ hkey h.2.2]
    exact or_none

/-- What comes before an event takes the same room whether it is there or on its way. -/
theorem admits_cons (htype : challenge.type = .aggregate) {T : Tables Unit} (hT : Referrals T)
    (hkey : specifierOf (referralUpdater db is_verified) x ≠ k)
    (hk : k.referrer = some e.user_id) :
    admits challenge db is_verified
        (processAll challenge (referralUpdater db is_verified) event T [x]).user_challenges events k
        e =
      admits challenge db is_verified T.user_challenges (x :: events) k e := by
  have hget := get?_processAll_singleton_referral db is_verified event htype hT x
  by_cases hnone : T.user_challenges.get? (specifierOf (referralUpdater db is_verified) x) = none
  · by_cases hroom : admits challenge db is_verified T.user_challenges []
        (specifierOf (referralUpdater db is_verified) x) x = true
    · -- a new challenge: it counts, and is not new any more
      simp only [hnone, hroom, true_and] at hget
      have hbefore : newBefore (referralUpdater db is_verified)
          (processAll challenge (referralUpdater db is_verified) event T [x]).user_challenges events
          k = (newBefore (referralUpdater db is_verified) T.user_challenges events k).erase
            (specifierOf (referralUpdater db is_verified) x) := by
        ext other
        unfold newBefore
        rw [Finset.mem_erase, Finset.mem_filter, Finset.mem_filter, hget]
        by_cases heq : specifierOf (referralUpdater db is_verified) x = other
        · simp [heq]
        · simp [heq, Ne.symm heq]
      have hcount := completionCount_insert
        (newReferral challenge (specifierOf (referralUpdater db is_verified) x) x) hnone (fun other ↦ by
          rw [hget]
          by_cases heq : specifierOf (referralUpdater db is_verified) x = other
          · rw [if_pos heq, if_pos heq, heq]
          · rw [if_neg heq, if_neg heq]) e.user_id
      have howner : (newReferral challenge (specifierOf (referralUpdater db is_verified) x)
          x).user_id = x.user_id := completedAt_user_id _ _
      rw [howner] at hcount
      unfold admits
      rw [hbefore, hcount, newBefore_cons hkey, hk]
      by_cases huser : x.user_id = e.user_id
      · have hcard := Finset.card_erase_add_one (Finset.mem_insert_self
          (specifierOf (referralUpdater db is_verified) x)
          (newBefore (referralUpdater db is_verified) T.user_challenges events k))
        rw [Finset.erase_insert_eq_erase] at hcard
        rw [if_pos huser, if_pos ⟨congrArg some huser, hnone⟩, ← hcard, Nat.add_assoc, Nat.add_comm 1]
      · have hnot : specifierOf (referralUpdater db is_verified) x ∉
            newBefore (referralUpdater db is_verified) T.user_challenges events k := by
          unfold newBefore
          rw [Finset.mem_filter, hk]
          rintro ⟨-, heq, -⟩
          exact huser (some.inj heq)
        rw [if_neg huser, if_neg fun h ↦ huser (some.inj h.1), Finset.erase_eq_of_notMem hnot, Nat.add_zero]
    · -- no room for the one before is no room after it
      simp only [hroom, Bool.false_eq_true, false_and, and_false, if_false] at hget
      rw [admits_congr hget]
      by_cases huser : x.user_id = e.user_id
      · have hno : ∀ events', admits challenge db is_verified T.user_challenges events' k e =
            false := by
          intro events'
          rw [← Bool.not_eq_true]
          exact fun h ↦ hroom (admits_nil_of_admits huser.symm h)
        rw [hno, hno]
      · unfold admits
        rw [newBefore_cons hkey, hk, if_neg fun h ↦ huser (some.inj h.1)]
  · simp only [hnone, false_and, if_false] at hget
    rw [admits_congr hget]
    unfold admits
    rw [newBefore_cons hkey, if_neg fun h ↦ hnone h.2]

end Each

/-- Events one by one keep the challenges that are there, and add those of the events that are
admitted, with the block of the first one. -/
theorem get?_each_referral (htype : challenge.type = .aggregate) (events : List EventMetadata) :
    ∀ {T : Tables Unit}, Referrals T → ∀ k,
      (events.foldl (fun T e ↦ processAll challenge (referralUpdater db is_verified) event T [e])
          T).user_challenges.get? k =
        (T.user_challenges.get? k).or
          (((withKey (specifierOf (referralUpdater db is_verified)) k events).head?.filter
            (admits challenge db is_verified T.user_challenges events k)).map
              (newReferral challenge k)) := by
  induction events with
  | nil => exact fun hT k ↦ (or_none ..).symm
  | cons x events ih =>
    intro T hT k
    have hone := get?_processAll_singleton_referral db is_verified event htype hT x k
    rw [foldl_cons, ih (referrals_processAll htype hT [x]), Lib.withKey_cons]
    have hreferrer : ∀ {e},
        (withKey (specifierOf (referralUpdater db is_verified)) k events).head? = some e →
          k.referrer = some e.user_id := by
      intro e he
      rw [← (Lib.mem_withKey.mp (mem_of_mem_head? he)).2]
      rfl
    cases hget : T.user_challenges.get? k with
    | some old =>
      have hold : ¬ (T.user_challenges.get? (specifierOf (referralUpdater db is_verified) x) =
          none ∧ admits challenge db is_verified T.user_challenges []
            (specifierOf (referralUpdater db is_verified) x) x = true ∧
          specifierOf (referralUpdater db is_verified) x = k) := by
        rintro ⟨hnone, -, rfl⟩
        rw [hget] at hnone
        cases hnone
      rw [hone, if_neg hold, hget, some_or, some_or]
    | none =>
      by_cases hkey : specifierOf (referralUpdater db is_verified) x = k
      · subst hkey
        have hadmits : admits challenge db is_verified T.user_challenges (x :: events)
            (specifierOf (referralUpdater db is_verified) x) x =
              admits challenge db is_verified T.user_challenges []
                (specifierOf (referralUpdater db is_verified) x) x := by
          unfold admits
          rw [newBefore_cons_self rfl]
        rw [if_pos rfl, head?_cons, filter_some, hadmits, none_or]
        by_cases hroom : admits challenge db is_verified T.user_challenges []
            (specifierOf (referralUpdater db is_verified) x) x = true
        · rw [hone, if_pos ⟨hget, hroom, rfl⟩, if_pos hroom]
          rfl
        · have hsame := get?_processAll_singleton_referral db is_verified event htype hT x
          simp only [hroom, Bool.false_eq_true, false_and, and_false, if_false] at hsame
          rw [hsame, hget, if_neg hroom, none_or, map_none, map_eq_none_iff, filter_eq_none_iff]
          intro e he
          rw [admits_congr hsame]
          intro hlate
          refine hroom (admits_nil_of_admits (some.inj ?_) hlate)
          exact (hreferrer he).symm.trans rfl
      · rw [hone, if_neg fun h ↦ hkey h.2.2, hget, if_neg hkey, none_or, none_or]
        congr 1
        cases hhead : (withKey (specifierOf (referralUpdater db is_verified)) k events).head? with
        | none => rfl
        | some e => rw [filter_some, filter_some, admits_cons htype hT hkey
            (hreferrer hhead)]

/-- A batch leaves what its events leave one by one exactly where the first and the last event of
each admitted specifier have the same block. -/
theorem processAll_eq_each_referral_iff (htype : challenge.type = .aggregate) {T : Tables Unit}
    (hT : Referrals T) (events : List EventMetadata) :
    (∀ k, (processAll challenge (referralUpdater db is_verified) event T
            events).user_challenges.get? k =
        (events.foldl (fun T e ↦ processAll challenge (referralUpdater db is_verified) event T [e])
          T).user_challenges.get? k) ↔
      ∀ k first last,
        (withKey (specifierOf (referralUpdater db is_verified)) k events).head? = some first →
        (withKey (specifierOf (referralUpdater db is_verified)) k events).getLast? = some last →
          T.user_challenges.get? k = none →
            admits challenge db is_verified T.user_challenges events k first = true →
              first.block_number = last.block_number := by
  refine forall_congr' fun k ↦ ?_
  rw [get?_processAll_referral htype hT, get?_each_referral htype events hT]
  cases hlast : (withKey (specifierOf (referralUpdater db is_verified)) k events).getLast? with
  | none =>
    rw [getLast?_eq_none_iff] at hlast
    rw [hlast]
    exact iff_of_true rfl fun _ _ _ hsome ↦ nomatch hsome
  | some last =>
    have hne : withKey (specifierOf (referralUpdater db is_verified)) k events ≠ [] := by
      intro hnil
      rw [hnil] at hlast
      cases hlast
    obtain ⟨first, hfirst⟩ := ne_none_iff_exists'.mp (head?_eq_none_iff.not.mpr hne)
    -- the events of a specifier are one user's
    have huser : first.user_id = last.user_id := by
      have hkey := (Lib.mem_withKey.mp (mem_of_mem_head? hfirst)).2
      have hkey' := (specifierOf_of_getLast? hlast).2
      exact some.inj (congrArg Specifier.referrer (hkey.trans hkey'.symm))
    have hsame : admits challenge db is_verified T.user_challenges events k last =
        admits challenge db is_verified T.user_challenges events k first := by
      unfold admits
      rw [huser]
    have hcomplete : (_create_new_user_challenge challenge first.user_id k).is_complete = true :=
      decide_eq_true htype
    rw [hfirst]
    cases hget : T.user_challenges.get? k with
    | some old => exact iff_of_true rfl fun _ _ _ _ hnone ↦ nomatch hnone
    | none =>
      rw [none_or, none_or, filter_some, filter_some, hsame]
      by_cases hadmits : admits challenge db is_verified T.user_challenges events k first = true
      · rw [if_pos hadmits, if_pos hadmits, map_some, map_some, some.injEq,
          newReferral, newReferral, ← huser, completedAt_inj]
        constructor
        · intro heq first' last' hfirst' hlast' _ _
          cases hfirst'
          cases hlast'
          exact (heq hcomplete).symm
        · intro heq _
          exact (heq first last rfl rfl rfl hadmits).symm
      · rw [if_neg hadmits, if_neg hadmits]
        refine iff_of_true rfl fun first' last' hfirst' _ _ hadmits' ↦ ?_
        cases hfirst'
        exact absurd hadmits' hadmits

end Referrals

end Challenges

end ColivingSpec.Discovery
