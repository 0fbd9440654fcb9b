import ColivingSpec.Discovery.ChallengeManager

/-!
# The registered challenges

Each registered challenge is a manager with an updater. Some updaters read other tables only, two
keep rows of their own for a user: how far a profile is complete, and the streak of days a user
listens. The tables that are read stay as they are while a manager processes its events.
-/

namespace ColivingSpec.Discovery

namespace Challenges

/-- The current row of a user, as far as the updaters read it. -/
structure User where
  is_verified : Bool
  bio : Option String
  name : Option String
  profile_picture : Option String
  profile_picture_sizes : Option String
  cover_photo : Option String
  cover_photo_sizes : Option String

/-- A row of `reposts`, `follows` or `saves`, by the user who reposts, follows or saves. -/
structure SocialAction where
  user_id : ℤ
  is_current : Bool
  is_delete : Bool

/-- A row of `digital_contents`; `stem_of` is set for a stem. -/
structure Upload where
  owner_id : ℤ
  blocknumber : ℤ
  is_current : Bool
  is_delete : Bool
  is_unlisted : Bool
  stem_of : Option String

/-- The tables the updaters read. A user has at most one current row. -/
structure Database where
  users : ℤ → Option User
  reposts : List SocialAction
  follows : List SocialAction
  saves : List SocialAction
  digital_contents : List Upload

/-- The current actions of a user that are not deleted. -/
def actionsOf (actions : List SocialAction) (user_id : ℤ) : ℕ :=
  (actions.filter fun action ↦
    decide (action.user_id = user_id) && action.is_current && !action.is_delete).length

/-! ### Rows of a user -/

/-- A table with at most one row for a user. -/
abbrev UserRows (Row : Type) := ℤ → Option Row

section UserRows

variable {Row : Type}

/-- Adds a fresh row for the user of each event; a second row of a user breaks the primary key. -/
def insertRows (fresh : Row) : UserRows Row → List FullEventMetadata →
    Except String (UserRows Row)
  | rows, [] => .ok rows
  | rows, metadata :: rest =>
    if (rows metadata.2.user_id).isSome then .error "duplicate key value violates unique constraint"
    else insertRows fresh (Function.update rows metadata.2.user_id (some fresh)) rest

/-- Brings each challenge up to date with the row of its user, which must be there. -/
def updateAll (rows : UserRows Row) (update : Row → UserChallenge → UserChallenge) :
    List UserChallenge → Except String (List UserChallenge)
  | [] => .ok []
  | user_challenge :: rest =>
    match rows user_challenge.user_id with
    | none => .error "KeyError"
    | some row =>
      match updateAll rows update rest with
      | .error message => .error message
      | .ok updated => .ok (update row user_challenge :: updated)

end UserRows

/-! ### Challenges that are complete by their event -/

/-- The updaters that complete whatever they are given: `connect_verified_challenge.py`,
`mobile_install_challenge.py`, `send_first_tip_challenge.py`, `first_content_list_challenge.py` and
`ReferredChallengeUpdater`. -/
def completingUpdater : ChallengeUpdater Unit where
  update_user_challenges _ rows user_challenges _ _ _ :=
    .ok (rows, user_challenges.map fun user_challenge ↦ { user_challenge with is_complete := true })

/-- `TrendingChallengeUpdater`: `trending_challenge.py:21–61`. The results it also records are read
by no manager. -/
def trendingUpdater : ChallengeUpdater Unit where
  update_user_challenges _ rows user_challenges _ _ _ :=
    .ok (rows, user_challenges.map fun user_challenge ↦ { user_challenge with is_complete := true })
  generate_specifier _ extra := .trending extra.week extra.rank

/-! ### Referrals -/

variable (db : Database)

/-- `does_user_exist_with_verification_status`: `referral_challenge.py:17–29`. -/
def does_user_exist_with_verification_status (user_id : ℤ) (is_verified : Bool) : Bool :=
  (db.users user_id).any fun user ↦ user.is_verified == is_verified

/-- `ReferralChallengeUpdater` and `VerifiedReferralChallengeUpdater`:
`referral_challenge.py:32–55`. -/
def referralUpdater (is_verified : Bool) : ChallengeUpdater Unit where
  update_user_challenges _ rows user_challenges _ _ _ := .ok (rows, user_challenges)
  generate_specifier user_id extra := .referral user_id extra.referred_user_id
  should_create_new_challenge _ user_id _ :=
    does_user_exist_with_verification_status db user_id is_verified

/-! ### Uploads -/

/-- The uploads of a user that count: `digital_content_upload_challenge.py:53–72`. -/
def uploadsOf (block_number user_id : ℤ) : ℕ :=
  (db.digital_contents.filter fun row ↦
    decide (row.owner_id = user_id ∧ row.blocknumber ≥ block_number) && row.is_current &&
      !row.is_delete && !row.is_unlisted && row.stem_of.isNone).length

/-- What the upload updater does to one challenge. -/
def countUploads (step_count starting_block : ℤ) (user_challenge : UserChallenge) : UserChallenge :=
  { user_challenge with
    current_step_count := some (uploadsOf db starting_block user_challenge.user_id)
    is_complete := decide ((uploadsOf db starting_block user_challenge.user_id : ℤ) ≥ step_count) }

/-- `DigitalContentUploadChallengeUpdater`: `digital_content_upload_challenge.py:14–51`. -/
def uploadUpdater : ChallengeUpdater Unit where
  update_user_challenges _ rows user_challenges step_count _ starting_block :=
    match step_count, starting_block with
    | some step_count, some starting_block =>
      .ok (rows, user_challenges.map (countUploads db step_count starting_block))
    | _, _ => .error "Expected a step count and starting block for digital_content upload challenge"

/-! ### Profile completion -/

/-- `REPOST_THRESHOLD`, `FOLLOW_THRESHOLD` and `FAVORITES_THRESHOLD`:
`profile_challenge.py:17–19`. -/
def REPOST_THRESHOLD : ℕ := 1
def FOLLOW_THRESHOLD : ℕ := 5
def FAVORITES_THRESHOLD : ℕ := 1

/-- A row of `challenge_profile_completion`. -/
structure ChallengeProfileCompletion where
  profile_description : Bool
  profile_name : Bool
  profile_picture : Bool
  profile_cover_photo : Bool
  follows : Bool
  favorites : Bool
  reposts : Bool
  deriving DecidableEq, Repr

/-- The row of a new challenge: `profile_challenge.py:77–91`. -/
def freshProfile : ChallengeProfileCompletion := ⟨false, false, false, false, false, false, false⟩

/-- What an event does to the row of a user: `profile_challenge.py:95–153`. -/
def handleProfile (event : ChallengeEvent) (user_id : ℤ) (completion : ChallengeProfileCompletion) :
    ChallengeProfileCompletion :=
  match event with
  | .profile_update =>
    match db.users user_id with
    | some user =>
      { completion with
        profile_description := user.bio.isSome
        profile_name := user.name.isSome
        profile_picture := user.profile_picture.isSome || user.profile_picture_sizes.isSome
        profile_cover_photo := user.cover_photo.isSome || user.cover_photo_sizes.isSome }
    | none => completion
  | .repost =>
    { completion with reposts := decide (actionsOf db.reposts user_id ≥ REPOST_THRESHOLD) }
  | .follow =>
    { completion with follows := decide (actionsOf db.follows user_id ≥ FOLLOW_THRESHOLD) }
  | .favorite =>
    { completion with favorites := decide (actionsOf db.saves user_id ≥ FAVORITES_THRESHOLD) }
  | _ => completion

/-- `_get_steps_complete`: `profile_challenge.py:155–164`. -/
def _get_steps_complete (completion : ChallengeProfileCompletion) : ℕ :=
  completion.profile_description.toNat + completion.profile_name.toNat +
    completion.profile_picture.toNat + completion.profile_cover_photo.toNat +
    completion.follows.toNat + completion.favorites.toNat + completion.reposts.toNat

/-- A challenge by the row of its user: `profile_challenge.py:66–75`. -/
def countProfile (step_count : Option ℤ) (completion : ChallengeProfileCompletion)
    (user_challenge : UserChallenge) : UserChallenge :=
  { user_challenge with
    current_step_count := some (_get_steps_complete completion)
    is_complete := decide (some (_get_steps_complete completion : ℤ) = step_count) }

/-- `ProfileChallengeUpdater`: `profile_challenge.py:22–91`. -/
def profileUpdater : ChallengeUpdater (UserRows ChallengeProfileCompletion) where
  update_user_challenges event rows user_challenges step_count _ _ :=
    let user_ids := user_challenges.map (·.user_id)
    let rows : UserRows ChallengeProfileCompletion := fun user_id ↦
      if user_id ∈ user_ids then (rows user_id).map (handleProfile db event user_id)
      else rows user_id
    match updateAll rows (countProfile step_count) user_challenges with
    | .error message => .error message
    | .ok updated => .ok (rows, updated)
  on_after_challenge_creation rows metadatas := insertRows freshProfile rows metadatas

/-! ### Listen streaks -/

/-- A row of `challenge_listen_streak`; the date is in seconds. -/
structure ChallengeListenStreak where
  last_listen_date : Option ℤ
  listen_streak : ℤ
  deriving DecidableEq, Repr

/-- The seconds of `timedelta(days=1)`. -/
def day : ℤ := 24 * 60 * 60

/-- What a listen does to a streak: `listen_streak_challenge.py:92–111`. -/
def listen (created_at : ℤ) (streak : ChallengeListenStreak) : ChallengeListenStreak :=
  match streak.last_listen_date with
  | none => ⟨some created_at, 1⟩
  | some last_date =>
    if created_at - last_date ≥ day then
      if created_at - last_date ≥ 2 * day then ⟨some created_at, 1⟩
      else ⟨some created_at, streak.listen_streak + 1⟩
    else streak

/-- The order in which a query without `ORDER BY` gives the rows of some users. -/
structure RowOrder where
  order : List ℤ → List ℤ
  perm : ∀ user_ids, (order user_ids).Perm user_ids

/-- `_handle_digital_content_listens`: the row at an index gets the event at that index,
`listen_streak_challenge.py:86–111`. -/
def _handle_digital_content_listens : UserRows ChallengeListenStreak → List ℤ →
    List FullEventMetadata → Except String (UserRows ChallengeListenStreak)
  | rows, [], _ => .ok rows
  | _, _ :: _, [] => .error "IndexError"
  | rows, user_id :: user_ids, metadata :: metadatas =>
    _handle_digital_content_listens
      (Function.update rows user_id ((rows user_id).map (listen metadata.2.extra.created_at)))
      user_ids metadatas

/-- A challenge by the streak of its user: `listen_streak_challenge.py:61–67`. -/
def countStreak (step_count : ℤ) (streak : ChallengeListenStreak) (user_challenge : UserChallenge) :
    UserChallenge :=
  { user_challenge with
    current_step_count := some streak.listen_streak
    is_complete := decide (streak.listen_streak ≥ step_count) }

/-- `ChallengeListenStreakUpdater`: `listen_streak_challenge.py:35–82`. -/
def listenStreakUpdater (order : RowOrder) :
    ChallengeUpdater (UserRows ChallengeListenStreak) where
  update_user_challenges event rows user_challenges step_count event_metadatas _ :=
    match step_count with
    | none => .error "Expected a step count for listen streak challenge"
    | some step_count =>
      let partial_completions := (order.order (user_challenges.map (·.user_id))).filter
        fun user_id ↦ (rows user_id).isSome
      let handled :=
        if event = .digital_content_listen then
          _handle_digital_content_listens rows partial_completions event_metadatas
        else .ok rows
      match handled with
      | .error message => .error message
      | .ok rows =>
        match updateAll rows (countStreak step_count) user_challenges with
        | .error message => .error message
        | .ok updated => .ok (rows, updated)
  on_after_challenge_creation rows metadatas := insertRows ⟨none, 0⟩ rows metadatas

/-! ### The register -/

/-- The managers `setup_challenge_bus` registers, by their challenges:
`challenge_event_bus.py:199–243`. -/
inductive ChallengeId where
  | profile_completion
  | listen_streak
  | digital_content_upload
  | referrals
  | ref_v
  | referred
  | connect_verified
  | mobile_install
  | tt
  | tut
  | tp
  | send_first_tip
  | first_content_list
  deriving DecidableEq, Repr

namespace ChallengeId

/-- The type of a challenge: `challenges.json`. -/
def type : ChallengeId → ChallengeType
  | profile_completion | listen_streak | digital_content_upload => .numeric
  | referrals | ref_v => .aggregate
  | referred | connect_verified | mobile_install | send_first_tip | first_content_list => .boolean
  | tt | tut | tp => .trending

/-- The events the manager of a challenge listens to: `challenge_event_bus.py:205–243`. -/
def events : ChallengeId → List ChallengeEvent
  | profile_completion => [.profile_update, .repost, .follow, .favorite]
  | listen_streak => [.digital_content_listen]
  | digital_content_upload => [.digital_content_upload]
  | referrals | ref_v => [.referral_signup]
  | referred => [.referred_signup]
  | connect_verified => [.connect_verified]
  | mobile_install => [.mobile_install]
  | tt => [.trending_digital_content]
  | tut => [.trending_underground]
  | tp => [.trending_content_list]
  | send_first_tip => [.send_tip]
  | first_content_list => [.first_content_list]

/-- The rows a challenge keeps beside its user challenges. -/
def Rows : ChallengeId → Type
  | profile_completion => UserRows ChallengeProfileCompletion
  | listen_streak => UserRows ChallengeListenStreak
  | _ => Unit

/-- The updater of a challenge. -/
def updater (db : Database) (order : RowOrder) : (id : ChallengeId) → ChallengeUpdater id.Rows
  | profile_completion => profileUpdater db
  | listen_streak => listenStreakUpdater order
  | digital_content_upload => uploadUpdater db
  | referrals => referralUpdater db false
  | ref_v => referralUpdater db true
  | referred | connect_verified | mobile_install | send_first_tip | first_content_list =>
    completingUpdater
  | tt | tut | tp => trendingUpdater

/-- No rows. -/
def noRows : (id : ChallengeId) → id.Rows
  | profile_completion => fun _ ↦ none
  | listen_streak => fun _ ↦ none
  | digital_content_upload | referrals | ref_v | referred | connect_verified | mobile_install
  | send_first_tip | first_content_list | tt | tut | tp => ()

end ChallengeId

end Challenges

end ColivingSpec.Discovery
