import ColivingSpec.Lib.Dict
import Mathlib.Data.Int.Notation
import Mathlib.Data.List.Perm.Basic

/-!
# Challenge managers

A challenge manager takes the events of one type, drops all but the last of each specifier, creates
the challenges its users do not have yet and lets its updater bring them and those in progress up
to date. The module follows `challenge.py` with the updaters of the registered challenges.
-/

namespace ColivingSpec.Discovery

namespace Challenges

open Lib (Dict)

/-- `challenge_event.py:7–22`. -/
inductive ChallengeEvent where
  | profile_update
  | repost
  | follow
  | favorite
  | digital_content_listen
  | digital_content_upload
  | referral_signup
  | referred_signup
  | connect_verified
  | mobile_install
  | trending_digital_content
  | trending_underground
  | trending_content_list
  | send_tip
  | first_content_list
  deriving DecidableEq, Repr

/-- The keys of an event's further data that the updaters read; a dispatch gives those its updater
reads. `created_at` is in seconds. -/
structure Extra where
  created_at : ℤ
  referred_user_id : ℤ
  week : String
  rank : ℤ
  deriving DecidableEq, Repr

/-- `EventMetadata`: `challenge.py:32–35`. -/
structure EventMetadata where
  block_number : ℤ
  user_id : ℤ
  extra : Extra
  deriving DecidableEq, Repr

/-- A specifier: the text of a user's id, `user_id=>referred_user_id`, or `week:rank`. -/
inductive Specifier where
  | user (user_id : ℤ)
  | referral (user_id referred_user_id : ℤ)
  | trending (week : String) (rank : ℤ)
  deriving DecidableEq, Repr

/-- An event under its specifier, `FullEventMetadata`: `challenge.py:38–42`. -/
abbrev FullEventMetadata := Specifier × EventMetadata

/-- A row of `user_challenges`, for the challenge of the manager: `user_challenge.py:7–21`. -/
structure UserChallenge where
  user_id : ℤ
  specifier : Specifier
  is_complete : Bool
  current_step_count : Option ℤ
  completed_blocknumber : Option ℤ
  deriving DecidableEq, Repr

/-- `ChallengeType`: `models/rewards/challenge.py:8–12`. -/
inductive ChallengeType where
  | boolean
  | numeric
  | aggregate
  | trending
  deriving DecidableEq, Repr

/-- The row of `challenges` the manager was set up from: `challenge.py:339–349`. -/
structure Challenge where
  type : ChallengeType
  step_count : Option ℤ
  starting_block : Option ℤ
  active : Bool
  deriving DecidableEq, Repr

/-- `ChallengeUpdater`: `challenge.py:45–106`, over the rows the challenge keeps beside
`user_challenges`. A raised exception is an error. -/
structure ChallengeUpdater (Rows : Type) where
  update_user_challenges : ChallengeEvent → Rows → List UserChallenge → Option ℤ →
    List FullEventMetadata → Option ℤ → Except String (Rows × List UserChallenge)
  on_after_challenge_creation : Rows → List FullEventMetadata → Except String Rows :=
    fun rows _ ↦ .ok rows
  generate_specifier : ℤ → Extra → Specifier := fun user_id _ ↦ .user user_id
  should_create_new_challenge : ChallengeEvent → ℤ → Extra → Bool := fun _ _ _ ↦ true

/-- The rows of one challenge: its user challenges by specifier, and what its updater keeps. -/
structure Tables (Rows : Type) where
  user_challenges : Dict Specifier UserChallenge
  rows : Rows

section Manager

variable {Rows : Type} (challenge : Challenge) (updater : ChallengeUpdater Rows)
  (event : ChallengeEvent)

/-- `_create_new_user_challenge`: `challenge.py:351–360`. -/
def _create_new_user_challenge (user_id : ℤ) (specifier : Specifier) : UserChallenge where
  user_id := user_id
  specifier := specifier
  is_complete := decide (challenge.type = .aggregate)
  current_step_count := some 0
  completed_blocknumber := none

variable (event_metadatas : List EventMetadata)

/-- The events that are not before the starting block: `challenge.py:143–151`. -/
def started : List EventMetadata :=
  match challenge.starting_block with
  | some starting_block => event_metadatas.filter fun event ↦
      decide (event.block_number ≥ starting_block)
  | none => event_metadatas

/-- The specifier of an event. -/
def specifierOf (event : EventMetadata) : Specifier :=
  updater.generate_specifier event.user_id event.extra

/-- `events_with_specifiers_map`: the last event of a specifier stands where the first came,
`challenge.py:155–172`. -/
def events_with_specifiers_map :
    Dict Specifier EventMetadata :=
  event_metadatas.foldl (fun map event ↦ map.set (specifierOf updater event) event) Dict.empty

variable (user_challenges : Dict Specifier UserChallenge)

/-- The number of challenges a user has: `challenge.py:205–217`. -/
def completionCount (user_id : ℤ) : ℕ :=
  (user_challenges.items.filter fun row ↦ decide (row.2.user_id = user_id)).length

/-- Whether a user who has that many has no room for another one; a step count of 0 is none. -/
def full (completion_count : ℕ) : Bool :=
  match challenge.step_count with
  | some step_count => decide (step_count ≠ 0 ∧ (completion_count : ℤ) ≥ step_count)
  | none => false

/-- The loop over the new events of an aggregate challenge, with what is to be created so far:
`challenge.py:218–236`. -/
def createAggregates (completion_count : ℤ → ℕ) :
    List FullEventMetadata → List FullEventMetadata → List FullEventMetadata
  | to_create, [] => to_create
  | to_create, metadata :: rest =>
    if full challenge (completion_count metadata.2.user_id +
        (to_create.filter fun other ↦ decide (other.2.user_id = metadata.2.user_id)).length) then
      createAggregates completion_count to_create rest
    else if updater.should_create_new_challenge event metadata.2.user_id metadata.2.extra then
      createAggregates completion_count (to_create ++ [metadata]) rest
    else createAggregates completion_count to_create rest

variable (events_with_specifiers : List FullEventMetadata) (tables : Tables Rows)

/-- `to_create_metadata`: `challenge.py:192–238`. -/
def toCreate : List FullEventMetadata :=
  let new_challenge_metadata :=
    events_with_specifiers.filter fun metadata ↦ (user_challenges.get? metadata.1).isNone
  if challenge.type = .aggregate then
    createAggregates challenge updater event (completionCount user_challenges) []
      new_challenge_metadata
  else new_challenge_metadata

/-- `to_update`: the existing challenges in progress, then the new ones, `challenge.py:240–254`. -/
def toUpdate (to_create : List FullEventMetadata) : List UserChallenge :=
  (events_with_specifiers.filterMap fun metadata ↦ user_challenges.get? metadata.1).filter
      (!·.is_complete) ++
    to_create.map fun metadata ↦ _create_new_user_challenge challenge metadata.2.user_id metadata.1

/-- A completed challenge gets the block of its event: `challenge.py:289–295`. -/
def completedAt (block_number : ℤ) (user_challenge : UserChallenge) : UserChallenge :=
  if user_challenge.is_complete then
    { user_challenge with completed_blocknumber := some block_number }
  else user_challenge

/-- The `try` block of `process`: `challenge.py:181–307`. The filter for deactivated users compares
a user's id with the rows of a query, which it never equals, so it drops nothing. -/
def processStarted (event_metadatas : List EventMetadata) :
    Except String (Tables Rows) :=
  let map := events_with_specifiers_map updater event_metadatas
  let to_create := toCreate challenge updater event tables.user_challenges map.items
  let to_update := toUpdate challenge tables.user_challenges map.items to_create
  match updater.on_after_challenge_creation tables.rows to_create with
  | .error message => .error message
  | .ok rows =>
    match updater.update_user_challenges event rows to_update challenge.step_count map.items
      challenge.starting_block with
    | .error message => .error message
    | .ok (rows, updated) =>
      let finished := updated.map fun user_challenge ↦
        completedAt (((map.get? user_challenge.specifier).map (·.block_number)).getD 0)
          user_challenge
      .ok ⟨finished.foldl (fun rows row ↦ rows.set row.specifier row) tables.user_challenges, rows⟩

/-- `ChallengeManager.process`: `challenge.py:129–312`. An error rolls the session back. -/
def process (event_metadatas : List EventMetadata) : Tables Rows :=
  if challenge.active then
    match started challenge event_metadatas with
    | [] => tables
    | first :: rest =>
      match processStarted challenge updater event tables (first :: rest) with
      | .ok tables => tables
      | .error _ => tables
  else tables

end Manager

end Challenges

end ColivingSpec.Discovery
