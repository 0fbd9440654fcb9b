import ColivingSpec.Discovery.ChallengeRows

/-!
# Batches of profile completion

An event sets a part of the row of its user from tables that no batch changes, so doing it twice is
doing it once. As with the challenges without rows, only the block of the event that completes a
profile tells a batch from its events one by one.
-/

namespace ColivingSpec.Discovery

open Option

namespace Challenges

open Lib (Dict withKey)

section Batch

variable {Row : Type} {challenge : Challenge} {updater : ChallengeUpdater (UserRows Row)}
  {event : ChallengeEvent} {fresh : Row} {count : Row → UserChallenge → UserChallenge}

/-- The updater brings rows and challenges up to date by `advance` and `count`. -/
def AdvancesBy (challenge : Challenge) (updater : ChallengeUpdater (UserRows Row))
    (event : ChallengeEvent) (count : Row → UserChallenge → UserChallenge)
    (advance : ℤ → Row → Row) : Prop :=
  ∀ rows user_challenges metadatas,
    (∀ user_challenge ∈ user_challenges, (rows user_challenge.user_id).isSome = true) →
      updater.update_user_challenges event rows user_challenges challenge.step_count metadatas
          challenge.starting_block =
        .ok (advanced advance (user_challenges.map (·.user_id)) rows,
          user_challenges.map
            (countBy count (advanced advance (user_challenges.map (·.user_id)) rows)))

variable {advance : ℤ → Row → Row} {T : Tables (UserRows Row)}

theorem AdvancesBy.cellOf_processAll (hadvance : AdvancesBy challenge updater event count advance)
    (h : Rowed updater fresh count) (htype : challenge.type ≠ .aggregate) (hT : WithRows T)
    (events : List EventMetadata) :
    WithRows (processAll challenge updater event T events) ∧
      ∀ k, cellOf (processAll challenge updater event T events) k =
        (withKey (specifierOf updater) k events).getLast?.elim (cellOf T k) fun last ↦
          cellAfter challenge fresh count (advance last.user_id) last (cellOf T k) := by
  cases events with
  | nil => exact ⟨hT, fun k ↦ rfl⟩
  | cons e rest =>
    obtain ⟨T', hok, hrows, hcell⟩ := h.processStarted_eq htype hT (e :: rest) advance
      (fun rows hsome ↦ hadvance rows _ _ hsome)
    dsimp only [processAll]
    rw [hok]
    exact ⟨hrows, hcell⟩

/-- A cell that was advanced is left as it is by the next event of its user. -/
theorem cellAfter_absorb (hidem : ∀ user_id row, advance user_id (advance user_id row) =
      advance user_id row)
    (hagain : ∀ row user_challenge, count row (count row user_challenge) = count row user_challenge)
    {e e' : EventMetadata} (huser : e'.user_id = e.user_id) (cell : Option (UserChallenge × Row)) :
    cellAfter challenge fresh count (advance e'.user_id) e'
        (cellAfter challenge fresh count (advance e.user_id) e cell) =
      cellAfter challenge fresh count (advance e.user_id) e cell := by
  rw [huser]
  have honce : ∀ row user_challenge,
      cellAfter challenge fresh count (advance e.user_id) e'
          (some (completedAt e.block_number (count (advance e.user_id row) user_challenge),
            advance e.user_id row)) =
        some (completedAt e.block_number (count (advance e.user_id row) user_challenge),
          advance e.user_id row) := by
    intro row user_challenge
    dsimp only [cellAfter]
    rw [completedAt_is_complete]
    by_cases hcomplete : (count (advance e.user_id row) user_challenge).is_complete = true
    · rw [if_pos hcomplete]
    · rw [if_neg hcomplete, hidem]
      unfold completedAt
      rw [if_neg hcomplete, hagain, if_neg hcomplete]
  cases cell with
  | none => exact honce fresh _
  | some old =>
    obtain ⟨old, row⟩ := old
    dsimp only [cellAfter]
    by_cases hcomplete : old.is_complete = true
    · rw [if_pos hcomplete]
      dsimp only
      rw [if_pos hcomplete]
    · rw [if_neg hcomplete]
      exact honce row old

/-- A challenge after the events of its user, brought up to date by the row it has. -/
theorem cellAfter_eq_iff (hT : WithRows T) {k : Specifier} {first last : EventMetadata}
    (hfirst : k = .user first.user_id) (hlast : k = .user last.user_id) :
    cellAfter challenge fresh count (advance last.user_id) last (cellOf T k) =
        cellAfter challenge fresh count (advance first.user_id) first (cellOf T k) ↔
      Agrees challenge (fun user_challenge ↦
        (count (advance user_challenge.user_id ((T.rows user_challenge.user_id).getD fresh))
          user_challenge).is_complete = true) k first last (T.user_challenges.get? k) := by
  have huser : first.user_id = last.user_id := Specifier.user.inj (hfirst.symm.trans hlast)
  have hrow := hT.rows_eq last.user_id
  rw [hT.get?_eq, ← huser]
  rw [← hlast] at hrow
  cases hcell : cellOf T k with
  | none =>
    rw [hcell] at hrow
    dsimp only [cellAfter, Agrees, map_none, _create_new_user_challenge]
    rw [huser, hrow, map_none, getD_none, some.injEq, Prod.mk.injEq, completedAt_inj, hlast]
    constructor
    · rintro ⟨heq, -⟩
      exact ⟨rfl, fun hends ↦ (heq hends).symm⟩
    · rintro ⟨-, heq⟩
      exact ⟨fun hends ↦ (heq hends).symm, rfl⟩
  | some old =>
    obtain ⟨old, row⟩ := old
    have hold : T.user_challenges.get? k = some old := by
      rw [hT.get?_eq, hcell]
      rfl
    have hown : old.user_id = last.user_id :=
      Specifier.user.inj ((hT.user k old hold).symm.trans hlast)
    rw [hcell] at hrow
    dsimp only [cellAfter, Agrees, map_some]
    rw [hown, huser, hrow, map_some, getD_some]
    by_cases hcomplete : old.is_complete = true
    · rw [if_pos hcomplete, if_pos hcomplete, hcomplete]
      simp
    · rw [if_neg hcomplete, if_neg hcomplete, some.injEq, Prod.mk.injEq, completedAt_inj]
      rw [Bool.not_eq_true] at hcomplete
      constructor
      · rintro ⟨heq, -⟩ - hends
        exact (heq hends).symm
      · intro heq
        exact ⟨fun hends ↦ (heq hcomplete hends).symm, rfl⟩

/-- A batch leaves what its events leave one by one exactly where the first and the last event of
each specifier agree. -/
theorem AdvancesBy.processAll_eq_each_iff
    (hadvance : AdvancesBy challenge updater event count advance) (h : Rowed updater fresh count)
    (hidem : ∀ user_id row, advance user_id (advance user_id row) = advance user_id row)
    (hagain : ∀ row user_challenge, count row (count row user_challenge) = count row user_challenge)
    (htype : challenge.type ≠ .aggregate) (hT : WithRows T) (events : List EventMetadata) :
    ((∀ k, (processAll challenge updater event T events).user_challenges.get? k =
          (events.foldl (fun T e ↦ processAll challenge updater event T [e])
            T).user_challenges.get? k) ∧
        (processAll challenge updater event T events).rows =
          (events.foldl (fun T e ↦ processAll challenge updater event T [e]) T).rows) ↔
      ∀ k first last, (withKey (specifierOf updater) k events).head? = some first →
        (withKey (specifierOf updater) k events).getLast? = some last →
          Agrees challenge (fun user_challenge ↦
            (count (advance user_challenge.user_id ((T.rows user_challenge.user_id).getD fresh))
              user_challenge).is_complete = true) k first last (T.user_challenges.get? k) := by
  have hinv : ∀ (T : Tables (UserRows Row)) events, WithRows T →
      WithRows (processAll challenge updater event T events) :=
    fun T events hT ↦ (hadvance.cellOf_processAll h htype hT events).1
  rw [(hinv T events hT).same_iff (withRows_each hinv events hT),
    Lib.batch_eq_each_iff (specifierOf updater) cellOf
      (fun e ↦ cellAfter challenge fresh count (advance e.user_id) e) WithRows hinv
      (fun T events hT ↦ (hadvance.cellOf_processAll h htype hT events).2) ?_ hT]
  · refine forall_congr' fun k ↦ forall_congr' fun first ↦ forall_congr' fun last ↦ ?_
    refine imp_congr_right fun hfirst ↦ imp_congr_right fun hlast ↦ ?_
    have hkey : specifierOf updater first = k :=
      (Lib.mem_withKey.mp (List.mem_of_mem_head? hfirst)).2
    rw [h.specifier] at hkey
    exact cellAfter_eq_iff hT hkey.symm (user_of_getLast? h hlast)
  · intro e e' cell heq
    rw [h.specifier, h.specifier, Specifier.user.injEq] at heq
    exact cellAfter_absorb hidem hagain heq cell

end Batch

/-! ### The profile updater -/

variable (db : Database)

theorem profileUpdater_rowed (step_count : Option ℤ) :
    Rowed (profileUpdater db) freshProfile (countProfile step_count) where
  specifier _ := rfl
  created _ _ := rfl
  count_specifier _ _ := rfl
  count_user_id _ _ := rfl

theorem profileUpdater_advancesBy (challenge : Challenge) (event : ChallengeEvent) :
    AdvancesBy challenge (profileUpdater db) event (countProfile challenge.step_count)
      (handleProfile db event) := by
  intro rows user_challenges metadatas hsome
  have hrows : ∀ user_challenge ∈ user_challenges,
      (advanced (handleProfile db event) (user_challenges.map (·.user_id)) rows
        user_challenge.user_id).isSome = true := by
    intro user_challenge hmem
    unfold advanced
    rw [if_pos (List.mem_map_of_mem (f := UserChallenge.user_id) hmem), isSome_map]
    exact hsome user_challenge hmem
  dsimp only [profileUpdater]
  have hall := updateAll_eq _ (countProfile challenge.step_count) hrows
  unfold advanced at hall ⊢
  rw [hall]

/-- An event that comes twice does no more than once. -/
theorem handleProfile_again (event : ChallengeEvent) (user_id : ℤ)
    (completion : ChallengeProfileCompletion) :
    handleProfile db event user_id (handleProfile db event user_id completion) =
      handleProfile db event user_id completion := by
  cases event with
  | profile_update =>
    dsimp only [handleProfile]
    cases db.users user_id <;> rfl
  | _ => rfl

end Challenges

end ColivingSpec.Discovery
