import ColivingSpec.Discovery.ChallengeBatches

/-!
# Whose listen advances a streak

A batch should advance the streak of each user whose challenge is open by that user's own listen,
the last one of the batch. It takes the listen at the place of the user's row instead, which does
the same when it has the date of the user's own or when neither of the two counts.
-/

namespace ColivingSpec.Discovery

open Option

namespace Challenges

open Lib (Dict withKey)

/-! ### One row -/

/-- Two listens leave the same row when they have the same date, or neither counts. -/
theorem listen_eq_listen_iff (created_at other : ℤ) (streak : ChallengeListenStreak) :
    listen created_at streak = listen other streak ↔
      created_at = other ∨ counts streak.last_listen_date created_at = false ∧
        counts streak.last_listen_date other = false := by
  constructor
  · intro heq
    have hlast : (listen created_at streak).last_listen_date =
        (listen other streak).last_listen_date := by rw [heq]
    cases h : counts streak.last_listen_date created_at with
    | false =>
      cases h' : counts streak.last_listen_date other with
      | false => exact .inr ⟨rfl, rfl⟩
      | true =>
        rw [listen_of_not_counts h, listen_of_counts h'] at hlast
        rw [hlast, not_counts_self] at h'
        cases h'
    | true =>
      cases h' : counts streak.last_listen_date other with
      | false =>
        rw [listen_of_counts h, listen_of_not_counts h'] at hlast
        rw [← hlast, not_counts_self] at h
        cases h
      | true =>
        rw [listen_of_counts h, listen_of_counts h'] at hlast
        exact .inl (some.inj hlast)
  · rintro (rfl | ⟨h, h'⟩)
    · rfl
    · rw [listen_of_not_counts h, listen_of_not_counts h']

/-- A listen leaves the row as it is just when it does not count. -/
theorem listen_eq_self_iff (created_at : ℤ) (streak : ChallengeListenStreak) :
    listen created_at streak = streak ↔ counts streak.last_listen_date created_at = false := by
  constructor
  · intro heq
    cases h : counts streak.last_listen_date created_at with
    | false => rfl
    | true =>
      rw [listen_of_counts h] at heq
      rw [← heq, not_counts_self] at h
      cases h
  · exact listen_of_not_counts

/-! ### The property and its condition -/

/-- The last listen of a user. -/
def ownListen (events : List EventMetadata) (user_id : ℤ) : Option EventMetadata :=
  (events.filter fun event ↦ event.user_id = user_id).getLast?

/-- The row that a user's own listen leaves: a row of its own if the challenge is new, the row
advanced if it is open, and the row as it was if it is complete. -/
def ownRow (T : Tables (UserRows ChallengeListenStreak)) (events : List EventMetadata)
    (user_id : ℤ) : Option ChallengeListenStreak :=
  match ownListen events user_id, T.user_challenges.get? (.user user_id) with
  | none, _ => T.rows user_id
  | some own, none => some (listen own.extra.created_at ⟨none, 0⟩)
  | some own, some old =>
    if old.is_complete then T.rows user_id else (T.rows user_id).map (listen own.extra.created_at)

variable (challenge : Challenge)

/-- The events that a call takes up. -/
def taken (events : List EventMetadata) : List EventMetadata :=
  if challenge.active then started challenge events else []

/-- After a call the streak of every user is what the user's own listen leaves. -/
def OwnListens (call : Call .listen_streak) (T : Tables (UserRows ChallengeListenStreak))
    (events : List EventMetadata) : Prop :=
  ∀ user_id, (call.process T events).rows user_id =
    ownRow T (taken call.challenge events) user_id

/-- For a user whose challenge is open or new: neither the user's own listen nor the one at the
place of the user's row counts, or there is a step count and the two have the same date. -/
def OwnPlace (order : RowOrder) (T : Tables (UserRows ChallengeListenStreak))
    (events : List EventMetadata) (user_id : ℤ) (own : EventMetadata) : Prop :=
  (∃ streak, T.rows user_id = some streak ∧
    counts streak.last_listen_date own.extra.created_at = false ∧
    ∀ paired, challenge.step_count ≠ none → pairedListen challenge order T events user_id =
      some paired → counts streak.last_listen_date paired.2.extra.created_at = false) ∨
  (challenge.step_count ≠ none ∧ ∀ paired, pairedListen challenge order T events user_id =
    some paired → paired.2.extra.created_at = own.extra.created_at)

/-- The listens stand at the places of their users' rows, as far as the rows show. -/
def Aligned (order : RowOrder) (T : Tables (UserRows ChallengeListenStreak))
    (events : List EventMetadata) : Prop :=
  ∀ user_id own, ownListen events user_id = some own →
    (∀ old, T.user_challenges.get? (.user user_id) = some old → old.is_complete = false) →
      OwnPlace challenge order T events user_id own

/-! ### The rows a batch leaves -/

section Batch

variable {challenge : Challenge} {order : RowOrder} {T : Tables (UserRows ChallengeListenStreak)}
  {events : List EventMetadata} {user_id : ℤ} {own : EventMetadata}

variable (order events user_id) in
theorem withKey_user :
    (withKey (specifierOf (listenStreakUpdater order)) (.user user_id) events).getLast? =
      ownListen events user_id := by
  unfold withKey ownListen
  congr 2
  funext event
  exact decide_eq_decide.mpr ⟨Specifier.user.inj, congrArg Specifier.user⟩

variable (order) in
/-- The listen at the place of a user whose challenge is open or new. -/
theorem exists_pairedListen (htype : challenge.type ≠ .aggregate) (hT : WithRows T)
    (hown : ownListen events user_id = some own)
    (hopen : ∀ old, T.user_challenges.get? (.user user_id) = some old → old.is_complete = false) :
    ∃ paired, pairedListen challenge order T events user_id = some paired := by
  have h := listenStreakUpdater_rowed order 0
  rw [← withKey_user order] at hown
  have hmem := (mem_updatedUsers .digital_content_listen h htype hT events user_id).mpr
    ⟨by rw [hown]; exact some_ne_none own, hopen⟩
  apply isSome_iff_exists.mp
  apply listenAt_isSome order _ hmem
  rw [List.length_map]
  exact length_updatedBy_le htype hT.under events

/-- Where the listen at the place of the row is known. -/
theorem ownPlace_iff (hstep : challenge.step_count ≠ none) {paired : FullEventMetadata}
    (hpaired : pairedListen challenge order T events user_id = some paired) :
    OwnPlace challenge order T events user_id own ↔
      (∃ streak, T.rows user_id = some streak ∧
          counts streak.last_listen_date paired.2.extra.created_at = false ∧
          counts streak.last_listen_date own.extra.created_at = false) ∨
        paired.2.extra.created_at = own.extra.created_at := by
  unfold OwnPlace
  rw [hpaired]
  constructor
  · rintro (⟨streak, hrow, hown, hnot⟩ | ⟨-, hdate⟩)
    · exact .inl ⟨streak, hrow, hnot paired hstep rfl, hown⟩
    · exact .inr (hdate paired rfl)
  · rintro (⟨streak, hrow, hnot, hown⟩ | hdate)
    · refine .inl ⟨streak, hrow, hown, fun other _ hother ↦ ?_⟩
      cases hother
      exact hnot
    · refine .inr ⟨hstep, fun other hother ↦ ?_⟩
      cases hother
      exact hdate

/-- With a step count, a user's row is left as the own listen leaves it just when that stands at the
place of the row. -/
theorem rows_eq_ownRow_iff (htype : challenge.type ≠ .aggregate) {step_count : ℤ}
    (hstep : challenge.step_count = some step_count) (hT : WithRows T)
    (events : List EventMetadata) (user_id : ℤ) :
    (processAll challenge (listenStreakUpdater order) .digital_content_listen T events).rows
          user_id = ownRow T events user_id ↔
      ∀ own, ownListen events user_id = some own →
        (∀ old, T.user_challenges.get? (.user user_id) = some old → old.is_complete = false) →
          OwnPlace challenge order T events user_id own := by
  obtain ⟨hT', hcell⟩ := listenStreak_processAll order htype hstep hT events
  have hrow := hT.rows_eq user_id
  have hget := hT.get?_eq (.user user_id)
  have hsome : challenge.step_count ≠ none := by
    rw [hstep]
    exact some_ne_none step_count
  rw [hT'.rows_eq, hcell, withKey_user order]
  unfold ownRow
  cases hown : ownListen events user_id with
  | none =>
    refine iff_of_true hrow.symm fun own hsome ↦ ?_
    cases hsome
  | some own =>
    have huser : own.user_id = user_id :=
      of_decide_eq_true (List.mem_filter.mp (List.mem_of_getLast? hown)).2
    rw [elim_some, huser]
    have hplace : (∀ own', some own = some own' →
        (∀ old, T.user_challenges.get? (.user user_id) = some old → old.is_complete = false) →
          OwnPlace challenge order T events user_id own') ↔
        ((∀ old, T.user_challenges.get? (.user user_id) = some old → old.is_complete = false) →
          OwnPlace challenge order T events user_id own) := by
      constructor
      · intro h
        exact h own rfl
      · rintro h own' hown'
        cases hown'
        exact h
    rw [hplace]
    cases hold : cellOf T (.user user_id) with
    | none =>
      rw [hold] at hrow hget
      have hopen := open_of_none hget
      obtain ⟨paired, hpaired⟩ := exists_pairedListen order htype hT hown hopen
      rw [forall_prop_of_true hopen, ownPlace_iff hsome hpaired, hget, hpaired, hrow]
      dsimp only [map_none, cellAfter, map_some, listenBy, elim_some]
      rw [some.injEq, listen_eq_listen_iff]
      constructor
      · rintro (hdate | ⟨hnot, -⟩)
        · exact .inr hdate
        · cases hnot
      · rintro (⟨streak, hnone, -⟩ | hdate)
        · cases hnone
        · exact .inl hdate
    | some cell =>
      obtain ⟨old, streak⟩ := cell
      rw [hold] at hrow hget
      by_cases hcomplete : old.is_complete = true
      · rw [hget, hrow]
        dsimp only [map_some, cellAfter]
        rw [if_pos hcomplete, if_pos hcomplete]
        refine iff_of_true rfl fun hopen ↦ ?_
        have hfalse := hopen old rfl
        rw [hcomplete] at hfalse
        cases hfalse
      · have hopen := open_of_some hget (Bool.not_eq_true _ ▸ hcomplete)
        obtain ⟨paired, hpaired⟩ := exists_pairedListen order htype hT hown hopen
        rw [forall_prop_of_true hopen, ownPlace_iff hsome hpaired, hget, hpaired, hrow]
        dsimp only [map_some, cellAfter, listenBy, elim_some]
        rw [if_neg hcomplete, if_neg hcomplete]
        dsimp only [map_some]
        rw [some.injEq, listen_eq_listen_iff]
        constructor
        · rintro (hdate | hnot)
          · exact .inr hdate
          · exact .inl ⟨streak, rfl, hnot⟩
        · rintro (⟨streak', hstreak, hnot⟩ | hdate)
          · cases hstreak
            exact .inr hnot
          · exact .inl hdate

/-- Without a step count nothing is left by the listens, which is right where none counts. -/
theorem rows_eq_ownRow_iff_of_none (hstep : challenge.step_count = none) (hT : WithRows T)
    (events : List EventMetadata) (user_id : ℤ) :
    (processAll challenge (listenStreakUpdater order) .digital_content_listen T events).rows
          user_id = ownRow T events user_id ↔
      ∀ own, ownListen events user_id = some own →
        (∀ old, T.user_challenges.get? (.user user_id) = some old → old.is_complete = false) →
          OwnPlace challenge order T events user_id own := by
  have hrow := hT.rows_eq user_id
  have hget := hT.get?_eq (.user user_id)
  rw [listenStreak_processAll_of_none order .digital_content_listen hstep]
  unfold ownRow OwnPlace
  rw [hstep]
  cases hown : ownListen events user_id with
  | none =>
    refine iff_of_true rfl fun own hsome ↦ ?_
    cases hsome
  | some own =>
    cases hold : cellOf T (.user user_id) with
    | none =>
      rw [hold] at hrow hget
      rw [hget, hrow]
      refine iff_of_false (fun hsome ↦ nomatch hsome) fun h ↦ ?_
      rcases h own rfl (fun old hsome ↦ nomatch hsome) with ⟨streak, hsome, -⟩ | ⟨hne, -⟩
      · cases hsome
      · exact hne rfl
    | some cell =>
      obtain ⟨old, streak⟩ := cell
      rw [hold] at hrow hget
      rw [hget, hrow]
      dsimp only [map_some]
      by_cases hcomplete : old.is_complete = true
      · rw [if_pos hcomplete]
        refine iff_of_true rfl fun other _ hopen ↦ ?_
        have hfalse := hopen old rfl
        rw [hcomplete] at hfalse
        cases hfalse
      · rw [if_neg hcomplete, some.injEq, eq_comm, listen_eq_self_iff]
        constructor
        · intro hnot other hother hopen
          cases hother
          exact .inl ⟨streak, rfl, hnot, fun paired hne ↦ absurd rfl hne⟩
        · intro h
          have hopen := open_of_some rfl (Bool.not_eq_true _ ▸ hcomplete)
          rcases h own rfl hopen with ⟨streak', hsome, hnot, -⟩ | ⟨hne, -⟩
          · cases hsome
            exact hnot
          · exact absurd rfl hne

end Batch

/-- After any calls, a batch of listens leaves every user the row that the user's own listen leaves
exactly where the challenge is inactive, or the listens that are not before the starting block stand
at the places of their users' rows, as far as the rows show. -/
theorem process_ownListens_iff (history : List (Call .listen_streak × List EventMetadata))
    (call : Call .listen_streak) (events : List EventMetadata) :
    OwnListens call (reached .listen_streak history) events ↔
      (call.challenge.active = true → Aligned call.challenge call.order
        (reached .listen_streak history) (started call.challenge events)) := by
  have hT := (consistent_reached .listen_streak history).1
  have htype : call.challenge.type ≠ .aggregate := call.type_ne (by decide)
  have hevent : call.event = .digital_content_listen := List.mem_singleton.mp call.registered
  have hprocess := process_eq call.challenge (ChallengeId.listen_streak.updater call.db call.order)
    call.event (reached .listen_streak history) events
  unfold OwnListens Call.process taken
  rw [hprocess]
  by_cases hactive : call.challenge.active = true
  · rw [if_pos hactive, if_pos hactive, forall_prop_of_true hactive, hevent]
    apply forall_congr'
    intro user_id
    cases hstep : call.challenge.step_count with
    | none => exact rows_eq_ownRow_iff_of_none hstep hT _ user_id
    | some step_count => exact rows_eq_ownRow_iff htype hstep hT _ user_id
  · rw [if_neg hactive, if_neg hactive]
    exact iff_of_true (fun user_id ↦ rfl) fun h ↦ absurd h hactive

/-- Users 1 and 2 have listened once; then 2 listens a day later, and 1 within the day. The query
gives the row of 1 first, which gains a day from the listen of 2. -/
theorem not_ownListens_two :
    ¬ OwnListens listenCall
      (reached .listen_streak [(listenCall, [listenOf 116023891 1 0, listenOf 116023891 2 0])])
      [listenOf 116023893 2 90000, listenOf 116023893 1 10000] := by
  intro h
  have hrow := h 1
  revert hrow
  decide +kernel

end Challenges

end ColivingSpec.Discovery
