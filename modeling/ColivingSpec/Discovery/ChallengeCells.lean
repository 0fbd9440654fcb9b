import ColivingSpec.Discovery.ChallengeManager
import ColivingSpec.Lib.ByKey

/-!
# What a batch does to one specifier

A manager looks at the challenge of each specifier by itself: a batch brings it up to date with the
last event of the specifier, once. Where the challenge is complete, or has no event, it stays.
-/

namespace ColivingSpec.Discovery

open List Option

namespace Challenges

open Lib (Dict withKey)

section Cells

variable {Rows : Type} (challenge : Challenge) (updater : ChallengeUpdater Rows)
  (event : ChallengeEvent)

/-- A challenge stands under its own specifier. -/
def UnderSpecifiers (user_challenges : Dict Specifier UserChallenge) : Prop :=
  ∀ k user_challenge, user_challenges.get? k = some user_challenge → user_challenge.specifier = k

/-- The challenge of a specifier after a batch whose last event for it is `last`; `update` brings a
challenge up to date, and `created` says whether one is made where there is none. -/
def afterEvent (update : UserChallenge → UserChallenge) (created : Bool) (k : Specifier)
    (last : EventMetadata) : Option UserChallenge → Option UserChallenge
  | some user_challenge =>
    if user_challenge.is_complete then some user_challenge
    else some (completedAt last.block_number (update user_challenge))
  | none =>
    if created then
      some (completedAt last.block_number
        (update (_create_new_user_challenge challenge last.user_id k)))
    else none

variable (block_number : ℤ) (user_challenge : UserChallenge) (events : List EventMetadata)
  {m : FullEventMetadata} {user_challenges : Dict Specifier UserChallenge}
  {metadatas : List FullEventMetadata}

@[simp] theorem completedAt_specifier :
    (completedAt block_number user_challenge).specifier = user_challenge.specifier := by
  unfold completedAt
  split <;> rfl

@[simp] theorem completedAt_user_id :
    (completedAt block_number user_challenge).user_id = user_challenge.user_id := by
  unfold completedAt
  split <;> rfl

@[simp] theorem completedAt_is_complete :
    (completedAt block_number user_challenge).is_complete = user_challenge.is_complete := by
  unfold completedAt
  split <;> rfl

/-- A challenge that is complete keeps the block of the event that completed it. -/
theorem completedAt_inj (other : ℤ) (user_challenge : UserChallenge) :
    completedAt block_number user_challenge = completedAt other user_challenge ↔
      (user_challenge.is_complete = true → block_number = other) := by
  unfold completedAt
  by_cases hcomplete : user_challenge.is_complete = true
  · rw [if_pos hcomplete, if_pos hcomplete]
    constructor
    · intro heq _
      exact some.inj (congrArg UserChallenge.completed_blocknumber heq)
    · intro heq
      rw [heq hcomplete]
  · rw [if_neg hcomplete, if_neg hcomplete]
    exact ⟨fun _ h ↦ absurd h hcomplete, fun _ ↦ rfl⟩

variable {challenge updater event}

/-! ### The events that stay -/

/-- The map has the last event of each specifier. -/
theorem get?_events_with_specifiers_map (k : Specifier) :
    (events_with_specifiers_map updater events).get? k =
      (withKey (specifierOf updater) k events).getLast? := by
  have hget := Lib.get?_foldl_set (specifierOf updater) id events Dict.empty k
  rw [Option.map_id, id, Dict.get?_empty, or_none] at hget
  exact hget

theorem mem_items (k : Specifier) (e : EventMetadata) :
    (k, e) ∈ (events_with_specifiers_map updater events).items ↔
      (withKey (specifierOf updater) k events).getLast? = some e := by
  rw [Dict.mem_items, get?_events_with_specifiers_map]

variable {events : List EventMetadata} {user_challenge : UserChallenge}

/-- What is under a specifier is an event of it. -/
theorem specifierOf_of_getLast? {k : Specifier} {e : EventMetadata}
    (h : (withKey (specifierOf updater) k events).getLast? = some e) :
    e ∈ events ∧ specifierOf updater e = k :=
  Lib.mem_withKey.mp (mem_of_getLast? h)

/-! ### The challenges to create -/

theorem mem_of_mem_createAggregates {completion_count : ℤ → ℕ} :
    ∀ {metadatas to_create : List FullEventMetadata},
      m ∈ createAggregates challenge updater event completion_count to_create metadatas →
        m ∈ to_create ∨ m ∈ metadatas := by
  intro metadatas
  induction metadatas with
  | nil => exact fun h ↦ .inl h
  | cons metadata rest ih =>
    intro to_create h
    unfold createAggregates at h
    split at h
    · exact (ih h).imp_right (mem_cons_of_mem _)
    · split at h
      · rcases ih h with hin | hin
        · rcases mem_append.mp hin with hold | hnew
          · exact .inl hold
          · exact .inr (mem_singleton.mp hnew ▸ mem_cons_self)
        · exact .inr (mem_cons_of_mem _ hin)
      · exact (ih h).imp_right (mem_cons_of_mem _)

/-- A challenge is created for an event of a specifier that has none. -/
theorem of_mem_toCreate (h : m ∈ toCreate challenge updater event user_challenges metadatas) :
    m ∈ metadatas ∧ user_challenges.get? m.1 = none := by
  have hnew : m ∈ metadatas.filter fun metadata ↦ (user_challenges.get? metadata.1).isNone := by
    unfold toCreate at h
    split at h
    · rcases mem_of_mem_createAggregates h with hnil | hmem
      · cases hnil
      · exact hmem
    · exact h
  rw [mem_filter, isNone_iff_eq_none] at hnew
  exact hnew

/-- A challenge that is not an aggregate is created for each new specifier. -/
theorem mem_toCreate (htype : challenge.type ≠ .aggregate) :
    m ∈ toCreate challenge updater event user_challenges metadatas ↔
      m ∈ metadatas ∧ user_challenges.get? m.1 = none := by
  unfold toCreate
  rw [if_neg htype, mem_filter, isNone_iff_eq_none]

/-! ### The challenges to update -/

theorem mem_toUpdate {to_create : List FullEventMetadata} :
    user_challenge ∈ toUpdate challenge user_challenges metadatas to_create ↔
      (∃ m ∈ metadatas, user_challenges.get? m.1 = some user_challenge ∧
          user_challenge.is_complete = false) ∨
        ∃ m ∈ to_create, _create_new_user_challenge challenge m.2.user_id m.1 = user_challenge := by
  unfold toUpdate
  rw [mem_append, mem_filter, mem_filterMap, List.mem_map, Bool.not_eq_true']
  constructor
  · rintro (⟨⟨m, hm, hget⟩, hopen⟩ | hnew)
    · exact .inl ⟨m, hm, hget, hopen⟩
    · exact .inr hnew
  · rintro (⟨m, hm, hget, hopen⟩ | hnew)
    · exact .inl ⟨⟨m, hm, hget⟩, hopen⟩
    · exact .inr hnew

variable (challenge updater event)

/-- The events for which a batch creates a challenge. -/
def createdBy (user_challenges : Dict Specifier UserChallenge) (events : List EventMetadata) :
    List FullEventMetadata :=
  toCreate challenge updater event user_challenges (events_with_specifiers_map updater events).items

/-- The challenges a batch brings up to date. -/
def updatedBy (user_challenges : Dict Specifier UserChallenge) (events : List EventMetadata) :
    List UserChallenge :=
  toUpdate challenge user_challenges (events_with_specifiers_map updater events).items
    (createdBy challenge updater event user_challenges events)

variable {challenge updater event}

theorem of_mem_createdBy {k : Specifier} {last : EventMetadata}
    (h : (k, last) ∈ createdBy challenge updater event user_challenges events) :
    (withKey (specifierOf updater) k events).getLast? = some last ∧
      user_challenges.get? k = none :=
  (of_mem_toCreate h).imp_left (mem_items events k last).mp

/-- A challenge that is brought up to date is the one in progress, or the new one, of a specifier
with an event. -/
theorem mem_updatedBy (hunder : UnderSpecifiers user_challenges) :
    user_challenge ∈ updatedBy challenge updater event user_challenges events ↔
      ∃ last, (withKey (specifierOf updater) user_challenge.specifier events).getLast? = some last ∧
        (user_challenges.get? user_challenge.specifier = some user_challenge ∧
            user_challenge.is_complete = false ∨
          (user_challenge.specifier, last) ∈
              createdBy challenge updater event user_challenges events ∧
            _create_new_user_challenge challenge last.user_id user_challenge.specifier =
              user_challenge) := by
  unfold updatedBy
  rw [mem_toUpdate]
  constructor
  · rintro (⟨m, hm, hget, hopen⟩ | ⟨m, hm, rfl⟩)
    · rw [hunder m.1 user_challenge hget]
      exact ⟨m.2, (mem_items events m.1 m.2).mp hm, .inl ⟨hget, hopen⟩⟩
    · exact ⟨m.2, (of_mem_createdBy hm).1, .inr ⟨hm, rfl⟩⟩
  · rintro ⟨last, hlast, hopen | ⟨hm, hnew⟩⟩
    · exact .inl ⟨(user_challenge.specifier, last), (mem_items events _ last).mpr hlast, hopen⟩
    · exact .inr ⟨(user_challenge.specifier, last), hm, hnew⟩

/-- The challenges that are brought up to date are one for each specifier. -/
theorem eq_of_mem_updatedBy (hunder : UnderSpecifiers user_challenges) {a b : UserChallenge}
    (ha : a ∈ updatedBy challenge updater event user_challenges events)
    (hb : b ∈ updatedBy challenge updater event user_challenges events)
    (hspecifier : a.specifier = b.specifier) : a = b := by
  obtain ⟨last, hlast, hcase⟩ := (mem_updatedBy hunder).mp ha
  obtain ⟨last', hlast', hcase'⟩ := (mem_updatedBy hunder).mp hb
  rw [← hspecifier] at hlast' hcase'
  rw [hlast, some.injEq] at hlast'
  subst hlast'
  rcases hcase with ⟨hget, -⟩ | ⟨hm, hnew⟩
  · rcases hcase' with ⟨hget', -⟩ | ⟨hm', -⟩
    · exact some.inj (hget.symm.trans hget')
    · rw [(of_mem_createdBy hm').2] at hget
      cases hget
  · rcases hcase' with ⟨hget', -⟩ | ⟨-, hnew'⟩
    · rw [(of_mem_createdBy hm).2] at hget'
      cases hget'
    · exact hnew.symm.trans hnew'

/-! ### A batch -/

/-- The table with the rows written. -/
def writeRows (user_challenges : Dict Specifier UserChallenge) (rows : List UserChallenge) :
    Dict Specifier UserChallenge :=
  rows.foldl (fun rows row ↦ rows.set row.specifier row) user_challenges

section Write

variable {finish : UserChallenge → UserChallenge} {user_challenges : Dict Specifier UserChallenge}
  {rows : List UserChallenge}
  (hfinish : ∀ user_challenge, (finish user_challenge).specifier = user_challenge.specifier)

include hfinish

theorem get?_writeRows_of_mem {row : UserChallenge} (hrow : row ∈ rows)
    (hone : ∀ other ∈ rows, other.specifier = row.specifier → other = row) :
    (writeRows user_challenges (rows.map finish)).get? row.specifier = some (finish row) := by
  have hmem : finish row ∈ rows.map finish := List.mem_map_of_mem hrow
  rw [← hfinish]
  refine Lib.get?_foldl_set_of_mem UserChallenge.specifier id hmem ?_ user_challenges
  intro row' hrow' heq
  obtain ⟨other, hother, rfl⟩ := List.mem_map.mp hrow'
  rw [hfinish, hfinish] at heq
  rw [hone other hother heq]

theorem get?_writeRows_of_not_mem {k : Specifier} (hnone : ∀ row ∈ rows, row.specifier ≠ k) :
    (writeRows user_challenges (rows.map finish)).get? k = user_challenges.get? k := by
  refine Lib.get?_foldl_set_of_not_mem UserChallenge.specifier id ?_ user_challenges
  intro row' hrow'
  obtain ⟨row, hrow, rfl⟩ := List.mem_map.mp hrow'
  rw [hfinish]
  exact hnone row hrow

end Write

section Finish

variable {update : UserChallenge → UserChallenge}

variable (updater update) in
/-- A challenge brought up to date, completed at the block of the last event of its specifier. -/
def finished (events : List EventMetadata) (user_challenge : UserChallenge) : UserChallenge :=
  completedAt ((((events_with_specifiers_map updater events).get?
    user_challenge.specifier).map (·.block_number)).getD 0) (update user_challenge)

theorem finished_specifier
    (hupdate : ∀ user_challenge, (update user_challenge).specifier = user_challenge.specifier)
    (events : List EventMetadata) (user_challenge : UserChallenge) :
    (finished updater update events user_challenge).specifier = user_challenge.specifier := by
  unfold finished
  rw [completedAt_specifier, hupdate]

theorem finished_of_last {events : List EventMetadata} {user_challenge : UserChallenge}
    {last : EventMetadata}
    (hlast : (withKey (specifierOf updater) user_challenge.specifier events).getLast? =
      some last) :
    finished updater update events user_challenge =
      completedAt last.block_number (update user_challenge) := by
  unfold finished
  rw [get?_events_with_specifiers_map, hlast]
  rfl

/-- A batch writes the challenges that it brings up to date. -/
theorem processStarted_eq_ok {T : Tables Rows} (events : List EventMetadata) {rows rows' : Rows}
    (hupdate : ∀ user_challenge, (update user_challenge).specifier = user_challenge.specifier)
    (hcreated : updater.on_after_challenge_creation T.rows
      (createdBy challenge updater event T.user_challenges events) = .ok rows)
    (hupdated : updater.update_user_challenges event rows
      (updatedBy challenge updater event T.user_challenges events) challenge.step_count
      (events_with_specifiers_map updater events).items challenge.starting_block =
        .ok (rows', (updatedBy challenge updater event T.user_challenges events).map update)) :
    processStarted challenge updater event T events =
      .ok ⟨writeRows T.user_challenges
        ((updatedBy challenge updater event T.user_challenges events).map
          (finished updater update events)), rows'⟩ := by
  unfold processStarted
  dsimp only
  unfold createdBy at hcreated
  unfold updatedBy createdBy at hupdated
  rw [hcreated]
  dsimp only
  rw [hupdated]
  dsimp only
  rw [List.map_map]
  congr 3
  apply map_congr_left
  intro user_challenge _
  dsimp only [Function.comp, finished]
  rw [hupdate]

variable {user_challenges : Dict Specifier UserChallenge} {events : List EventMetadata}
  {k : Specifier}

/-- The challenge of a specifier that is brought up to date is written. -/
theorem get?_written_of_mem (hunder : UnderSpecifiers user_challenges)
    (hupdate : ∀ user_challenge, (update user_challenge).specifier = user_challenge.specifier)
    {row : UserChallenge}
    (hrow : row ∈ updatedBy challenge updater event user_challenges events)
    {last : EventMetadata}
    (hlast : (withKey (specifierOf updater) row.specifier events).getLast? = some last) :
    (writeRows user_challenges
      ((updatedBy challenge updater event user_challenges events).map
        (finished updater update events))).get? row.specifier =
      some (completedAt last.block_number (update row)) := by
  rw [← finished_of_last hlast]
  apply get?_writeRows_of_mem (finished_specifier hupdate events) hrow
  intro other hother heq
  exact eq_of_mem_updatedBy hunder hother hrow heq

/-- A challenge that is complete stays as it is. -/
theorem get?_written_of_complete (hunder : UnderSpecifiers user_challenges)
    (hupdate : ∀ user_challenge, (update user_challenge).specifier = user_challenge.specifier)
    {old : UserChallenge} (hget : user_challenges.get? k = some old)
    (hcomplete : old.is_complete = true) :
    (writeRows user_challenges
      ((updatedBy challenge updater event user_challenges events).map
        (finished updater update events))).get? k = some old := by
  rw [get?_writeRows_of_not_mem (finished_specifier hupdate events), hget]
  rintro user_challenge hmem heq
  obtain ⟨last', -, ⟨hsome, hopen⟩ | ⟨hm, -⟩⟩ := (mem_updatedBy hunder).mp hmem
  · rw [heq, hget] at hsome
    cases hsome
    rw [hcomplete] at hopen
    cases hopen
  · rw [heq] at hm
    rw [(of_mem_createdBy hm).2] at hget
    cases hget

/-- A specifier without an event, or with one that creates nothing, has no row to write. -/
theorem get?_written_of_not_created (hunder : UnderSpecifiers user_challenges)
    (hupdate : ∀ user_challenge, (update user_challenge).specifier = user_challenge.specifier)
    (hnone : ∀ last, (withKey (specifierOf updater) k events).getLast? = some last →
      user_challenges.get? k = none ∧
        (k, last) ∉ createdBy challenge updater event user_challenges events) :
    (writeRows user_challenges
      ((updatedBy challenge updater event user_challenges events).map
        (finished updater update events))).get? k = user_challenges.get? k := by
  apply get?_writeRows_of_not_mem (finished_specifier hupdate events)
  rintro user_challenge hmem rfl
  obtain ⟨last, hlast, ⟨hsome, -⟩ | ⟨hm, -⟩⟩ := (mem_updatedBy hunder).mp hmem
  · rw [(hnone last hlast).1] at hsome
    cases hsome
  · exact (hnone last hlast).2 hm

end Finish

/-- A batch whose updater brings each challenge up to date by itself does to each specifier with an
event what its last event does, and nothing to the others. -/
theorem processStarted_eq {T : Tables Rows} (hunder : UnderSpecifiers T.user_challenges)
    (events : List EventMetadata) {rows rows' : Rows} {update : UserChallenge → UserChallenge}
    (hupdate : ∀ user_challenge, (update user_challenge).specifier = user_challenge.specifier)
    (hcreated : updater.on_after_challenge_creation T.rows
      (createdBy challenge updater event T.user_challenges events) = .ok rows)
    (hupdated : updater.update_user_challenges event rows
      (updatedBy challenge updater event T.user_challenges events) challenge.step_count
      (events_with_specifiers_map updater events).items challenge.starting_block =
        .ok (rows', (updatedBy challenge updater event T.user_challenges events).map update)) :
    ∃ user_challenges,
      processStarted challenge updater event T events = .ok ⟨user_challenges, rows'⟩ ∧
      ∀ k, user_challenges.get? k =
        (withKey (specifierOf updater) k events).getLast?.elim (T.user_challenges.get? k) fun last ↦
          afterEvent challenge update
            (decide ((k, last) ∈ createdBy challenge updater event T.user_challenges events)) k last
            (T.user_challenges.get? k) := by
  refine ⟨_, processStarted_eq_ok events hupdate hcreated hupdated, ?_⟩
  intro k
  cases hlast : (withKey (specifierOf updater) k events).getLast? with
  | none =>
    apply get?_written_of_not_created hunder hupdate
    intro last hsome
    rw [hlast] at hsome
    cases hsome
  | some last =>
    rw [elim_some]
    cases hget : T.user_challenges.get? k with
    | some old =>
      have hold := hunder k old hget
      subst hold
      dsimp only [afterEvent]
      by_cases hcomplete : old.is_complete = true
      · rw [if_pos hcomplete]
        exact get?_written_of_complete hunder hupdate hget hcomplete
      · rw [if_neg hcomplete]
        refine get?_written_of_mem hunder hupdate ?_ hlast
        exact (mem_updatedBy hunder).mpr
          ⟨last, hlast, .inl ⟨hget, Bool.not_eq_true _ ▸ hcomplete⟩⟩
    | none =>
      dsimp only [afterEvent]
      by_cases hm : (k, last) ∈ createdBy challenge updater event T.user_challenges events
      · rw [if_pos (decide_eq_true hm)]
        have hmem : _create_new_user_challenge challenge last.user_id k ∈
            updatedBy challenge updater event T.user_challenges events :=
          (mem_updatedBy hunder).mpr ⟨last, hlast, .inr ⟨hm, rfl⟩⟩
        exact get?_written_of_mem hunder hupdate hmem hlast
      · rw [if_neg (by simpa using hm), ← hget]
        apply get?_written_of_not_created hunder hupdate
        intro last' hlast'
        rw [hlast, some.injEq] at hlast'
        subst hlast'
        exact ⟨hget, hm⟩

/-! ### Runs of batches -/

variable (challenge updater event)

variable (T : Tables Rows)

/-- A batch of events none of which is before the starting block. An error leaves the tables. -/
def processAll : List EventMetadata → Tables Rows
  | [] => T
  | first :: rest =>
    match processStarted challenge updater event T (first :: rest) with
    | .ok tables => tables
    | .error _ => T

/-- An updater that raises leaves the tables as they are. -/
theorem processAll_of_error
    (herror : ∀ rows user_challenges metadatas, ∃ message,
      updater.update_user_challenges event rows user_challenges challenge.step_count metadatas
        challenge.starting_block = .error message)
    (T : Tables Rows) (events : List EventMetadata) :
    processAll challenge updater event T events = T := by
  cases events with
  | nil => rfl
  | cons e rest =>
    have hfails : ∃ message,
        processStarted challenge updater event T (e :: rest) = .error message := by
      unfold processStarted
      dsimp only
      split
      · next message _ => exact ⟨message, rfl⟩
      · next rows _ =>
        obtain ⟨message, hmessage⟩ := herror rows _ _
        rw [hmessage]
        exact ⟨message, rfl⟩
    obtain ⟨message, hmessage⟩ := hfails
    dsimp only [processAll]
    rw [hmessage]

/-- A run of batches of one event each. -/
def processEach (events : List EventMetadata) : Tables Rows :=
  events.foldl (fun T e ↦ process challenge updater event T [e]) T

theorem process_eq (events : List EventMetadata) :
    process challenge updater event T events =
      if challenge.active then
        processAll challenge updater event T (started challenge events)
      else T := by
  unfold process
  split
  · cases started challenge events <;> rfl
  · rfl

theorem started_cons (e : EventMetadata) (events : List EventMetadata) :
    started challenge (e :: events) = started challenge [e] ++ started challenge events := by
  unfold started
  cases challenge.starting_block with
  | none => rfl
  | some starting_block => exact filter_append [e] events

/-- An event before the starting block counts neither in a batch nor by itself. -/
theorem processEach_eq (events : List EventMetadata) :
    processEach challenge updater event T events =
      if challenge.active then
        (started challenge events).foldl (fun T e ↦ processAll challenge updater event T [e]) T
      else T := by
  unfold processEach
  induction events generalizing T with
  | nil =>
    have hnil : started challenge [] = [] := by
      unfold started
      cases challenge.starting_block <;> rfl
    rw [hnil]
    exact (ite_self _).symm
  | cons e events ih =>
    rw [foldl_cons, ih, process_eq, started_cons challenge e events]
    by_cases hactive : challenge.active = true
    · rw [if_pos hactive, if_pos hactive, if_pos hactive, foldl_append]
      congr 1
      unfold started
      cases challenge.starting_block with
      | none => rfl
      | some starting_block =>
        by_cases hlate : e.block_number ≥ starting_block
        · simp [hlate]
        · simp [hlate, processAll]
    · rw [if_neg hactive, if_neg hactive, if_neg hactive]

end Cells

end Challenges

end ColivingSpec.Discovery
