import ColivingSpec.Discovery.AggregateCaps
import ColivingSpec.Discovery.ListenOwners

/-!
# Deactivated users

A batch filters the challenges of deactivated users out before it brings challenges up to date. The
filter compares the id of a user with the rows of a query, which are tuples, so it keeps all; and the
new challenges are added whether they pass it or not. A deactivated user earns nothing only where
there is nothing to create and nothing to bring up to date.
-/

namespace ColivingSpec.Discovery

open Option

namespace Challenges

open Lib (Dict withKey)

/-! ### The filter -/

/-- A row of `users`, as far as the filter reads it. -/
structure UserRow where
  user_id : ℤ
  is_current : Bool
  is_deactivated : Bool
  deriving DecidableEq, Repr

/-- A value `in` compares: an integer, or the row of a query as the tuple of its columns. -/
inductive Value where
  | int (value : ℤ)
  | row (columns : List ℤ)
  deriving DecidableEq, Repr

variable (users : List UserRow) (id : ChallengeId)

/-- `deactivated_user_ids`: `challenge.py:259–266`. -/
def deactivated_user_ids (to_update_user_ids : List ℤ) : List Value :=
  (users.filter fun row ↦ decide (row.user_id ∈ to_update_user_ids) && row.is_deactivated).map
    fun row ↦ .row [row.user_id]

/-- Whether a user passes the filter: `challenge.py:267–275`. -/
def passes (deactivated_user_ids : List Value) (user_id : ℤ) : Bool :=
  decide (Value.int user_id ∉ deactivated_user_ids)

section Manager

variable {Rows : Type} (challenge : Challenge) (updater : ChallengeUpdater Rows)
  (event : ChallengeEvent) (users : List UserRow)

variable (tables : Tables Rows)

/-- The `try` block of `process` with its filters: `challenge.py:181–307`. A new challenge is added
also where it does not pass, as it was created. -/
def processStartedAmong (event_metadatas : List EventMetadata) :
    Except String (Tables Rows) :=
  let map := events_with_specifiers_map updater event_metadatas
  let new := toCreate challenge updater event tables.user_challenges map.items
  let in_progress_and_new := toUpdate challenge tables.user_challenges map.items new
  let deactivated := deactivated_user_ids users (in_progress_and_new.map (·.user_id))
  let to_create := new.filter fun metadata ↦ passes deactivated metadata.2.user_id
  let to_update := in_progress_and_new.filter fun row ↦ passes deactivated row.user_id
  let not_updated := new.filter fun metadata ↦ !passes deactivated metadata.2.user_id
  match updater.on_after_challenge_creation tables.rows to_create with
  | .error message => .error message
  | .ok rows =>
    match updater.update_user_challenges event rows to_update challenge.step_count map.items
      challenge.starting_block with
    | .error message => .error message
    | .ok (rows, updated) =>
      let finished := updated.map fun user_challenge ↦
        completedAt (((map.get? user_challenge.specifier).map (·.block_number)).getD 0)
          user_challenge
      let added := not_updated.map fun metadata ↦
        _create_new_user_challenge challenge metadata.2.user_id metadata.1
      .ok ⟨(finished ++ added).foldl (fun rows row ↦ rows.set row.specifier row)
        tables.user_challenges, rows⟩

/-- `ChallengeManager.process` among the rows of `users`: `challenge.py:129–312`. -/
def processAmong (event_metadatas : List EventMetadata) : Tables Rows :=
  if challenge.active then
    match started challenge event_metadatas with
    | [] => tables
    | first :: rest =>
      match processStartedAmong challenge updater event users tables (first :: rest) with
      | .ok tables => tables
      | .error _ => tables
  else tables

variable {users}

/-- An id is no row, so every user passes. -/
theorem passes_eq (to_update_user_ids : List ℤ) (user_id : ℤ) :
    passes (deactivated_user_ids users to_update_user_ids) user_id = true := by
  apply decide_eq_true
  intro hmem
  obtain ⟨row, -, heq⟩ := List.mem_map.mp hmem
  cases heq

variable (tables : Tables Rows)

theorem processStartedAmong_eq (event_metadatas : List EventMetadata) :
    processStartedAmong challenge updater event users tables event_metadatas =
      processStarted challenge updater event tables event_metadatas := by
  unfold processStartedAmong
  simp only [passes_eq, List.filter_true, Bool.not_true, List.filter_false, List.map_nil,
    List.append_nil]
  rfl

/-- The filters change nothing. -/
theorem processAmong_eq (event_metadatas : List EventMetadata) :
    processAmong challenge updater event users tables event_metadatas =
      process challenge updater event tables event_metadatas := by
  unfold processAmong
  simp only [processStartedAmong_eq]
  rfl

end Manager

/-! ### The property and its condition -/

/-- A user whose current row says so is deactivated. -/
def Deactivated (user_id : ℤ) : Prop :=
  ∃ row ∈ users, row.user_id = user_id ∧ row.is_current = true ∧ row.is_deactivated = true

/-- The rows of certain users are the same in two tables: none is created, changed or gone. -/
def EarnsNothing (deactivated : ℤ → Prop) (before after : Dict Specifier UserChallenge) : Prop :=
  ∀ k row, deactivated row.user_id → (after.get? k = some row ↔ before.get? k = some row)

/-- The updater raises, whatever the rows, and the session is rolled back. -/
def Raises (challenge : Challenge) : Prop :=
  match id with
  | .listen_streak => challenge.step_count = none
  | .digital_content_upload => challenge.step_count = none ∨ challenge.starting_block = none
  | _ => False

/-- A row that is not complete shows a count already, and the count does not complete it. -/
def Shows (count : ℤ) (done : Prop) (row : UserChallenge) : Prop :=
  row.current_step_count = some count ∧ ¬ done

/-- A row in progress that has nothing to be brought up to date with. -/
def Idle : (id : ChallengeId) → Call id → Tables id.Rows → List EventMetadata → UserChallenge → Prop
  | .profile_completion, call, T, _, row =>
    Shows (_get_steps_complete (handleProfile call.db call.event row.user_id
        ((T.rows row.user_id).getD freshProfile)))
      (some (_get_steps_complete (handleProfile call.db call.event row.user_id
        ((T.rows row.user_id).getD freshProfile)) : ℤ) = call.challenge.step_count) row
  | .listen_streak, call, T, events, row =>
    ∃ step_count, call.challenge.step_count = some step_count ∧
      Shows (listenBy (pairedListen call.challenge call.order T events row.user_id)
          ((T.rows row.user_id).getD ⟨none, 0⟩)).listen_streak
        ((listenBy (pairedListen call.challenge call.order T events row.user_id)
          ((T.rows row.user_id).getD ⟨none, 0⟩)).listen_streak ≥ step_count) row
  | .digital_content_upload, call, _, _, row =>
    ∃ step_count starting_block, call.challenge.step_count = some step_count ∧
      call.challenge.starting_block = some starting_block ∧
      Shows (uploadsOf call.db starting_block row.user_id)
        ((uploadsOf call.db starting_block row.user_id : ℤ) ≥ step_count) row
  | .referrals, _, _, _, _ | .ref_v, _, _, _, _ => True
  | _, _, _, _, _ => False

/-- Whether a new specifier gets a challenge. -/
def Admitted : (id : ChallengeId) → Call id → Tables id.Rows → List EventMetadata → Specifier →
    EventMetadata → Prop
  | .referrals, call, T, events, k, last =>
    admits call.challenge call.db false (Tables.user_challenges T) events k last = true
  | .ref_v, call, T, events, k, last =>
    admits call.challenge call.db true (Tables.user_challenges T) events k last = true
  | _, _, _, _, _, _ => True

/-- The last event of a specifier finds nothing to do for certain users: it creates no challenge,
and the one that is there is complete or idle. -/
structure NothingDueAt (id : ChallengeId) (call : Call id) (deactivated : ℤ → Prop)
    (T : Tables id.Rows) (events : List EventMetadata) (k : Specifier) (last : EventMetadata) :
    Prop where
  created : T.user_challenges.get? k = none → Admitted id call T events k last →
    ¬ deactivated last.user_id
  updated : ∀ row, T.user_challenges.get? k = some row → deactivated row.user_id →
    row.is_complete = true ∨ Idle id call T events row

/-- A batch finds nothing to do for certain users. -/
def NothingDue (call : Call id) (deactivated : ℤ → Prop) (T : Tables id.Rows)
    (events : List EventMetadata) : Prop :=
  ¬ Raises id call.challenge → ∀ k last,
    (withKey (specifierOf (id.updater call.db call.order)) k events).getLast? = some last →
      NothingDueAt id call deactivated T events k last

/-! ### One specifier -/

section Cell

variable {challenge : Challenge} {deactivated : ℤ → Prop}

/-- A row in progress is left as it is when its count is shown and does not complete it. -/
theorem counted_eq_iff {count : ℤ} {done : Prop} [Decidable done] {row : UserChallenge}
    (hopen : row.is_complete = false) :
    { row with current_step_count := some count, is_complete := decide done } = row ↔
      Shows count done row := by
  obtain ⟨user_id, specifier, is_complete, current_step_count, completed_blocknumber⟩ := row
  cases hopen
  rw [UserChallenge.mk.injEq]
  simp only [true_and, and_true, decide_eq_false_iff_not]
  exact and_comm.trans (and_congr_left' eq_comm)

/-- An update that leaves the row as it is does so with its block. -/
theorem completedAt_eq_self_iff {update : UserChallenge → UserChallenge} {row : UserChallenge}
    (hopen : row.is_complete = false) (block_number : ℤ) :
    completedAt block_number (update row) = row ↔ update row = row := by
  constructor
  · intro heq
    have hcomplete : (update row).is_complete = false := by
      rw [← completedAt_is_complete block_number, heq, hopen]
    unfold completedAt at heq
    rw [hcomplete] at heq
    exact heq
  · intro heq
    rw [heq]
    unfold completedAt
    rw [hopen]
    rfl

/-- An event leaves the rows of certain users as they are just when it creates none for them and
brings none of theirs up to date that it would change. -/
theorem afterEvent_unchanged_iff {update : UserChallenge → UserChallenge}
    (huser : ∀ row, (update row).user_id = row.user_id) (created : Bool) (k : Specifier)
    (last : EventMetadata) (old : Option UserChallenge) :
    (∀ row, deactivated row.user_id →
        (afterEvent challenge update created k last old = some row ↔ old = some row)) ↔
      (old = none → created = true → ¬ deactivated last.user_id) ∧
        ∀ row, old = some row → deactivated row.user_id →
          row.is_complete = true ∨ update row = row := by
  cases old with
  | none =>
    have hright : (∀ row, none = some row → deactivated row.user_id →
        row.is_complete = true ∨ update row = row) := fun row hrow ↦ nomatch hrow
    rw [and_iff_left hright]
    dsimp only [afterEvent]
    cases created with
    | false =>
      exact iff_of_true (fun row _ ↦ Iff.rfl) fun _ hcreated ↦ nomatch hcreated
    | true =>
      constructor
      · intro hsame _ _ hlast
        have hnew := hsame (completedAt last.block_number
          (update (_create_new_user_challenge challenge last.user_id k))) (by
            rw [completedAt_user_id, huser]
            exact hlast)
        cases hnew.mp rfl
      · intro hnot row hrow
        constructor
        · intro heq
          rw [← some.inj heq, completedAt_user_id, huser] at hrow
          exact absurd hrow (hnot rfl rfl)
        · intro hnone
          cases hnone
  | some old =>
    have hleft : some old = none → created = true → ¬ deactivated last.user_id :=
      fun hnone ↦ nomatch hnone
    rw [and_iff_right hleft]
    dsimp only [afterEvent]
    by_cases hcomplete : old.is_complete = true
    · rw [if_pos hcomplete]
      refine iff_of_true (fun row _ ↦ Iff.rfl) fun row hrow _ ↦ ?_
      cases hrow
      exact .inl hcomplete
    · rw [if_neg hcomplete]
      have hopen : old.is_complete = false := Bool.not_eq_true _ ▸ hcomplete
      constructor
      · intro hsame row hrow hdeactivated
        cases hrow
        have heq := (hsame old hdeactivated).mpr rfl
        exact .inr ((completedAt_eq_self_iff hopen _).mp (some.inj heq))
      · intro hidle row hrow
        have hstays : deactivated old.user_id →
            completedAt last.block_number (update old) = old := by
          intro hdeactivated
          rcases hidle old rfl hdeactivated with h | h
          · exact absurd h hcomplete
          · exact (completedAt_eq_self_iff hopen _).mpr h
        constructor
        · intro heq
          have hids := congrArg UserChallenge.user_id (some.inj heq)
          rw [completedAt_user_id, huser] at hids
          rw [← hids] at hrow
          rw [← heq, hstays hrow]
        · intro heq
          cases heq
          rw [hstays hrow]

end Cell

/-! ### One batch -/

section Batch

variable {id : ChallengeId} {call : Call id} {T : Tables id.Rows} {events : List EventMetadata}

/-- What a batch does to each specifier, for some update and choice of what is created. -/
def CellsBy (call : Call id) (T : Tables id.Rows) (events : List EventMetadata)
    (update : UserChallenge → UserChallenge) (created : Specifier → EventMetadata → Bool) : Prop :=
  ∀ k, (processAll call.challenge (id.updater call.db call.order) call.event T
      events).user_challenges.get? k =
    (withKey (specifierOf (id.updater call.db call.order)) k events).getLast?.elim
      (T.user_challenges.get? k) fun last ↦
        afterEvent call.challenge update (created k last) k last (T.user_challenges.get? k)

variable (call T) in
theorem earnsNothing_iff_of_cellsBy {update : UserChallenge → UserChallenge}
    {created : Specifier → EventMetadata → Bool} (hcells : CellsBy call T events update created)
    (huser : ∀ row, (update row).user_id = row.user_id) (hraises : ¬ Raises id call.challenge)
    (hcreated : ∀ k last,
      (withKey (specifierOf (id.updater call.db call.order)) k events).getLast? = some last →
        T.user_challenges.get? k = none →
          (created k last = true ↔ Admitted id call T events k last))
    (hidle : ∀ k last row,
      (withKey (specifierOf (id.updater call.db call.order)) k events).getLast? = some last →
        T.user_challenges.get? k = some row → row.is_complete = false →
          (update row = row ↔ Idle id call T events row))
    (deactivated : ℤ → Prop) :
    EarnsNothing deactivated T.user_challenges
        (processAll call.challenge (id.updater call.db call.order) call.event T
          events).user_challenges ↔
      NothingDue id call deactivated T events := by
  unfold EarnsNothing NothingDue
  rw [forall_prop_of_true hraises]
  apply forall_congr'
  intro k
  rw [hcells k]
  cases hlast : (withKey (specifierOf (id.updater call.db call.order)) k events).getLast? with
  | none => exact iff_of_true (fun row _ ↦ Iff.rfl) fun last hsome ↦ nomatch hsome
  | some last =>
    rw [elim_some, afterEvent_unchanged_iff huser]
    constructor
    · rintro ⟨hnew, hold⟩ last' hsome
      cases hsome
      constructor
      · intro hnone hadmitted
        exact hnew hnone ((hcreated k last hlast hnone).mpr hadmitted)
      · intro row hrow hdeactivated
        by_cases hcomplete : row.is_complete = true
        · exact .inl hcomplete
        · have hopen : row.is_complete = false := Bool.not_eq_true _ ▸ hcomplete
          exact (hold row hrow hdeactivated).imp_right (hidle k last row hlast hrow hopen).mp
    · intro hdue
      obtain ⟨hnew, hold⟩ := hdue last rfl
      constructor
      · intro hnone hmade
        exact hnew hnone ((hcreated k last hlast hnone).mp hmade)
      · intro row hrow hdeactivated
        by_cases hcomplete : row.is_complete = true
        · exact .inl hcomplete
        · have hopen : row.is_complete = false := Bool.not_eq_true _ ▸ hcomplete
          exact (hold row hrow hdeactivated).imp_right (hidle k last row hlast hrow hopen).mpr

end Batch

/-! ### The challenges with rows -/

section Rows

variable {Row : Type} {challenge : Challenge} {updater : ChallengeUpdater (UserRows Row)}
  {fresh : Row} {count : Row → UserChallenge → UserChallenge} {advance : ℤ → Row → Row}

/-- The challenge counted by the row of its user, advanced; a user without a row has a fresh one. -/
def countAdvanced (fresh : Row) (count : Row → UserChallenge → UserChallenge)
    (advance : ℤ → Row → Row) (rows : UserRows Row) (row : UserChallenge) : UserChallenge :=
  count (advance row.user_id ((rows row.user_id).getD fresh)) row

variable (advance) in
/-- The challenges that the cells of a batch leave. -/
theorem get?_of_cells (h : Rowed updater fresh count) {T T' : Tables (UserRows Row)}
    (hT : WithRows T) (hT' : WithRows T') {events : List EventMetadata}
    (hcell : ∀ k, cellOf T' k = (withKey (specifierOf updater) k events).getLast?.elim (cellOf T k)
      fun last ↦ cellAfter challenge fresh count (advance last.user_id) last (cellOf T k))
    (k : Specifier) :
    T'.user_challenges.get? k =
      (withKey (specifierOf updater) k events).getLast?.elim (T.user_challenges.get? k) fun last ↦
        afterEvent challenge (countAdvanced fresh count advance T.rows) true k last
          (T.user_challenges.get? k) := by
  rw [hT'.get?_eq, hcell, hT.get?_eq]
  cases hlast : (withKey (specifierOf updater) k events).getLast? with
  | none => rfl
  | some last =>
    have hk : Specifier.user last.user_id = k :=
      (h.specifier last).symm.trans (specifierOf_of_getLast? hlast).2
    have hget := hT.get?_eq k
    have hrows := hT.rows_eq last.user_id
    rw [hk] at hrows
    rw [elim_some, elim_some]
    cases hold : cellOf T k with
    | none =>
      rw [hold] at hrows
      dsimp only [cellAfter, map_some, map_none, afterEvent]
      rw [if_pos rfl, hk]
      unfold countAdvanced
      dsimp only [_create_new_user_challenge]
      rw [hrows]
      rfl
    | some cell =>
      obtain ⟨old, row⟩ := cell
      rw [hold] at hget hrows
      have huser : last.user_id = old.user_id := Specifier.user.inj (hk.trans (hT.user k old hget))
      dsimp only [cellAfter, map_some, afterEvent]
      by_cases hcomplete : old.is_complete = true
      · rw [if_pos hcomplete, if_pos hcomplete]
        rfl
      · rw [if_neg hcomplete, if_neg hcomplete]
        unfold countAdvanced
        rw [← huser, hrows]
        rfl

end Rows

/-! ### Each challenge -/

section Each

variable {id : ChallengeId} {call : Call id} {T : Tables id.Rows} (events : List EventMetadata)
  (deactivated : ℤ → Prop)

/-- A batch that raises leaves all rows, and there is nothing it could be due. -/
theorem earnsNothing_iff_of_raises (hraises : Raises id call.challenge)
    (hsame : processAll call.challenge (id.updater call.db call.order) call.event T events = T) :
    EarnsNothing deactivated T.user_challenges
        (processAll call.challenge (id.updater call.db call.order) call.event T
          events).user_challenges ↔
      NothingDue id call deactivated T events := by
  rw [hsame]
  exact iff_of_true (fun k row _ ↦ Iff.rfl) fun hnot ↦ absurd hraises hnot

variable {events} in
/-- A challenge that is not an aggregate is created for each new specifier. -/
theorem createdBy_iff {Rows : Type} {updater : ChallengeUpdater Rows} {challenge : Challenge}
    {event : ChallengeEvent} (htype : challenge.type ≠ .aggregate)
    {user_challenges : Dict Specifier UserChallenge} {k : Specifier} {last : EventMetadata}
    (hlast : (withKey (specifierOf updater) k events).getLast? = some last)
    (hnone : user_challenges.get? k = none) :
    decide ((k, last) ∈ createdBy challenge updater event user_challenges events) = true ↔ True :=
  iff_of_true
    (decide_eq_true ((mem_toCreate htype).mpr ⟨(mem_items events k last).mpr hlast, hnone⟩)) trivial

variable {events} in
/-- A referral is created for a new specifier that is admitted. -/
theorem referral_createdBy_iff {db : Database} {is_verified : Bool} {challenge : Challenge}
    {event : ChallengeEvent} (htype : challenge.type = .aggregate)
    {user_challenges : Dict Specifier UserChallenge} {k : Specifier} {last : EventMetadata}
    (hlast : (withKey (specifierOf (referralUpdater db is_verified)) k events).getLast? = some last)
    (hnone : user_challenges.get? k = none) :
    decide ((k, last) ∈
        createdBy challenge (referralUpdater db is_verified) event user_challenges events) = true ↔
      admits challenge db is_verified user_challenges events k last = true := by
  rw [decide_eq_true_iff, mem_createdBy_referral db is_verified event htype]
  constructor
  · rintro ⟨-, -, hadmits⟩
    exact hadmits
  · intro hadmits
    exact ⟨hlast, hnone, hadmits⟩

/-- What a challenge is complete by changes each row in progress. -/
theorem complete_eq_iff {row : UserChallenge} (hopen : row.is_complete = false) :
    complete row = row ↔ False := by
  refine iff_of_false (fun heq ↦ ?_) id
  have hcomplete := congrArg UserChallenge.is_complete heq
  rw [hopen] at hcomplete
  cases hcomplete

theorem upload_earnsNothing_iff (call : Call .digital_content_upload) {T : Tables Unit}
    (hunder : UnderSpecifiers T.user_challenges) :
    EarnsNothing deactivated T.user_challenges
        (processAll call.challenge (uploadUpdater call.db) call.event T events).user_challenges ↔
      NothingDue .digital_content_upload call deactivated T events := by
  cases hstep : call.challenge.step_count with
  | none =>
    exact earnsNothing_iff_of_raises events deactivated (.inl hstep)
      (upload_processAll_of_none call.db call.event (.inl hstep) T events)
  | some step_count =>
    cases hstart : call.challenge.starting_block with
    | none =>
      exact earnsNothing_iff_of_raises events deactivated (.inr hstart)
        (upload_processAll_of_none call.db call.event (.inr hstart) T events)
    | some starting_block =>
      have hplain := uploadUpdater_plain call.event call.db hstep hstart
      refine earnsNothing_iff_of_cellsBy call T (hplain.get?_processAll hunder events)
        hplain.user_id ?_ (fun k last hlast hnone ↦ createdBy_iff (call.type_ne (by decide)) hlast
          hnone) ?_ deactivated
      · rintro (hnone | hnone)
        · rw [hstep] at hnone
          cases hnone
        · rw [hstart] at hnone
          cases hnone
      · intro k last row _ _ hopen
        refine (counted_eq_iff hopen).trans ?_
        constructor
        · intro hshows
          exact ⟨step_count, starting_block, hstep, hstart, hshows⟩
        · rintro ⟨step_count', starting_block', hsome, hsome', hshows⟩
          rw [hstep] at hsome
          rw [hstart] at hsome'
          cases hsome
          cases hsome'
          exact hshows

theorem profile_earnsNothing_iff (call : Call .profile_completion)
    {T : Tables (UserRows ChallengeProfileCompletion)} (hT : WithRows T) :
    EarnsNothing deactivated T.user_challenges
        (processAll call.challenge (profileUpdater call.db) call.event T events).user_challenges ↔
      NothingDue .profile_completion call deactivated T events := by
  have htype : call.challenge.type ≠ .aggregate := call.type_ne (by decide)
  have hrowed := profileUpdater_rowed call.db call.challenge.step_count
  have hadvance := profileUpdater_advancesBy call.db call.challenge call.event
  obtain ⟨hT', hcell⟩ := hadvance.cellOf_processAll hrowed htype hT events
  apply earnsNothing_iff_of_cellsBy call T (get?_of_cells _ hrowed hT hT' hcell)
  · exact fun row ↦ rfl
  · exact id
  · exact fun k last _ _ ↦ iff_of_true rfl trivial
  · exact fun k last row _ _ hopen ↦ counted_eq_iff hopen

theorem listen_earnsNothing_iff (call : Call .listen_streak)
    {T : Tables (UserRows ChallengeListenStreak)} (hT : WithRows T) :
    EarnsNothing deactivated T.user_challenges
        (processAll call.challenge (listenStreakUpdater call.order) call.event T
          events).user_challenges ↔
      NothingDue .listen_streak call deactivated T events := by
  have htype : call.challenge.type ≠ .aggregate := call.type_ne (by decide)
  have hevent : call.event = .digital_content_listen := List.mem_singleton.mp call.registered
  cases hstep : call.challenge.step_count with
  | none =>
    have hraises : Raises .listen_streak call.challenge := hstep
    apply earnsNothing_iff_of_raises events deactivated hraises
    rw [hevent]
    exact listenStreak_processAll_of_none call.order .digital_content_listen hstep T events
  | some step_count =>
    have hrowed := listenStreakUpdater_rowed call.order step_count
    obtain ⟨hT', hcell⟩ := listenStreak_processAll call.order htype hstep hT events
    rw [← hevent] at hT' hcell
    apply earnsNothing_iff_of_cellsBy call T (get?_of_cells
      (fun user_id ↦ listenBy (pairedListen call.challenge call.order T events user_id)) hrowed hT
      hT' hcell)
    · exact fun row ↦ rfl
    · intro hnone
      rw [hnone] at hstep
      cases hstep
    · exact fun k last _ _ ↦ iff_of_true rfl trivial
    · intro k last row _ _ hopen
      refine (counted_eq_iff hopen).trans ?_
      constructor
      · intro hshows
        exact ⟨step_count, hstep, hshows⟩
      · rintro ⟨step_count', hsome, hshows⟩
        rw [hstep] at hsome
        cases hsome
        exact hshows

/-- What each challenge finds to do for certain users decides whether they earn anything. -/
theorem processAll_earnsNothing_iff (call : Call id) {T : Tables id.Rows} (hT : Consistent id T) :
    EarnsNothing deactivated T.user_challenges
        (processAll call.challenge (id.updater call.db call.order) call.event T
          events).user_challenges ↔
      NothingDue id call deactivated T events := by
  cases id with
  | profile_completion => exact profile_earnsNothing_iff events deactivated call hT
  | listen_streak => exact listen_earnsNothing_iff events deactivated call hT.1
  | digital_content_upload => exact upload_earnsNothing_iff events deactivated call hT
  | referrals =>
    have hplain := referralUpdater_plain call.challenge call.db false call.event
    apply earnsNothing_iff_of_cellsBy call T (hplain.get?_processAll hT.under events) hplain.user_id
    · exact fun h ↦ h
    · exact fun k last hlast hnone ↦ referral_createdBy_iff call.type_eq hlast hnone
    · exact fun k last row _ _ _ ↦ iff_of_true rfl trivial
  | ref_v =>
    have hplain := referralUpdater_plain call.challenge call.db true call.event
    apply earnsNothing_iff_of_cellsBy call T (hplain.get?_processAll hT.under events) hplain.user_id
    · exact fun h ↦ h
    · exact fun k last hlast hnone ↦ referral_createdBy_iff call.type_eq hlast hnone
    · exact fun k last row _ _ _ ↦ iff_of_true rfl trivial
  | tt | tut | tp =>
    have hplain := trendingUpdater_plain call.challenge call.event
    apply earnsNothing_iff_of_cellsBy call T (hplain.get?_processAll hT events) hplain.user_id
    · exact fun h ↦ h
    · exact fun k last hlast hnone ↦ createdBy_iff (call.type_ne (by decide)) hlast hnone
    · exact fun k last row _ _ hopen ↦ complete_eq_iff hopen
  | _ =>
    have hplain := completingUpdater_plain call.challenge call.event
    apply earnsNothing_iff_of_cellsBy call T (hplain.get?_processAll hT events) hplain.user_id
    · exact fun h ↦ h
    · exact fun k last hlast hnone ↦ createdBy_iff (call.type_ne (by decide)) hlast hnone
    · exact fun k last row _ _ hopen ↦ complete_eq_iff hopen

end Each

/-! ### Calls -/

/-- The call processes some events among the rows of `users`. -/
def Call.processAmong {id : ChallengeId} (call : Call id) (users : List UserRow)
    (T : Tables id.Rows) (events : List EventMetadata) : Tables id.Rows :=
  Challenges.processAmong call.challenge (id.updater call.db call.order) call.event users T events

/-- After any calls, a batch leaves the rows of all deactivated users as they were exactly where the
challenge is inactive, or it finds nothing to do for them. -/
theorem processAmong_earnsNothing_iff (id : ChallengeId)
    (history : List (Call id × List EventMetadata)) (call : Call id) (users : List UserRow)
    (events : List EventMetadata) :
    EarnsNothing (Deactivated users) (reached id history).user_challenges
        (call.processAmong users (reached id history) events).user_challenges ↔
      (call.challenge.active = true → NothingDue id call (Deactivated users) (reached id history)
        (started call.challenge events)) := by
  unfold Call.processAmong
  rw [processAmong_eq, process_eq]
  by_cases hactive : call.challenge.active = true
  · rw [if_pos hactive, forall_prop_of_true hactive]
    exact processAll_earnsNothing_iff _ _ call (consistent_reached id history)
  · rw [if_neg hactive]
    exact iff_of_true (fun k row _ ↦ Iff.rfl) fun h ↦ absurd h hactive

/-- User 1 is deactivated and signs up another user: the referral is created, and complete. -/
theorem not_earnsNothing_one :
    ¬ EarnsNothing (Deactivated [⟨1, true, true⟩]) (reached .referrals []).user_challenges
      ((referralCall 5).processAmong [⟨1, true, true⟩] (reached .referrals [])
        [referralOf 1 2]).user_challenges := by
  intro h
  have hrow := h (.referral 1 2) ⟨1, .referral 1 2, true, some 0, some 1⟩
    ⟨⟨1, true, true⟩, List.mem_singleton_self _, rfl, rfl, rfl⟩
  revert hrow
  decide +kernel

end Challenges

end ColivingSpec.Discovery
