import ColivingSpec.Discovery.ChallengeManager
import ColivingSpec.Lib.Json

/-!
# User events

The metadata of a user may say who referred the user and whether the user is on a mobile device.
Each update merges it into the user's current row, and dispatches the challenge events of what is
new. `users.py` keeps the rows; what fails is logged and leaves them as they were.
-/

namespace ColivingSpec.Discovery

open List

open Lib (Dict Json)

namespace UserEvents

/-- A row of `user_events`: `user_events.py:6–32`. -/
structure UserEvent where
  user_id : ℤ
  is_current : Bool
  blocknumber : ℤ
  blockhash : Option String
  referrer : Option ℤ
  is_mobile_user : Bool
  deriving DecidableEq, Repr

/-- The record of the user an update is about, as far as it is read. -/
structure User where
  user_id : ℤ
  blocknumber : Option ℤ
  blockhash : Option String
  deriving DecidableEq, Repr

/-- A dispatched challenge event. Its block and its user are integers, so none is dropped as
malformed. -/
structure Dispatched where
  event : Challenges.ChallengeEvent
  block_number : ℤ
  user_id : ℤ
  referred_user_id : Option ℤ
  deriving DecidableEq, Repr

/-- The rows and what was dispatched. -/
structure State where
  rows : List UserEvent
  dispatched : List Dispatched
  deriving DecidableEq, Repr

/-- Whether a row is the current one of a user. -/
def isCurrentOf (user_id : ℤ) (row : UserEvent) : Bool :=
  decide (row.user_id = user_id) && row.is_current

variable (rows : List UserEvent) (event : Challenges.ChallengeEvent)

/-- The query for the current row of a user, which raises when there are several:
`users.py:579–583`. -/
def existing_user_events (user_id : ℤ) :
    Except String (Option UserEvent) :=
  match rows.filter (isCurrentOf user_id) with
  | [] => .ok none
  | [row] => .ok (some row)
  | _ => .error "Multiple rows were found when one or none was required"

/-- A key of the metadata with its value, merged into the row that is to be added:
`users.py:598–628`. -/
def mergeEvent (blocknumber : ℤ) (merged : UserEvent × List Dispatched) (entry : String × Json) :
    UserEvent × List Dispatched :=
  let user_events := merged.1
  match entry.1, entry.2.int?, entry.2.bool? with
  | "referrer", some value, _ =>
    if user_events.referrer = none ∧ user_events.user_id ≠ value then
      ({ user_events with referrer := some value },
        merged.2 ++ [⟨.referral_signup, blocknumber, value, some user_events.user_id⟩,
          ⟨.referred_signup, blocknumber, user_events.user_id, none⟩])
    else merged
  | "is_mobile_user", _, some value =>
    if user_events.is_mobile_user then merged
    else
      ({ user_events with is_mobile_user := value },
        if value then merged.2 ++ [⟨.mobile_install, blocknumber, user_events.user_id, none⟩]
        else merged.2)
  | _, _, _ => merged

/-- The row that the merge starts with: `users.py:584–597`. -/
def startOf (user_record : User) (blocknumber : ℤ) (existing : Option UserEvent) : UserEvent where
  user_id := user_record.user_id
  is_current := true
  blocknumber := blocknumber
  blockhash := user_record.blockhash
  referrer := existing.bind (·.referrer)
  is_mobile_user := (existing.map (·.is_mobile_user)).getD false

/-- The rows of a user are no longer current: `users.py:635–638`. -/
def retire (user_id : ℤ) (rows : List UserEvent) : List UserEvent :=
  rows.map fun row ↦ if isCurrentOf user_id row then { row with is_current := false } else row

/-- `update_user_events`: `users.py:565–644`. -/
def update_user_events (state : State) (user_record : User) (events : Json) : State :=
  match events.dict?, user_record.blocknumber with
  | some events, some blocknumber =>
    if blocknumber = 0 then state
    else
      match existing_user_events state.rows user_record.user_id with
      | .error _ => state
      | .ok existing =>
        let start := startOf user_record blocknumber existing
        let merged := events.items.foldl (mergeEvent blocknumber) (start, state.dispatched)
        if existing = none ∨ merged.1.is_mobile_user ≠ start.is_mobile_user ∨
            merged.1.referrer ≠ start.referrer then
          ⟨retire user_record.user_id state.rows ++ [merged.1], merged.2⟩
        else ⟨state.rows, merged.2⟩
  | _, _ => state

/-- An update: the record of a user and the `events` of its metadata. -/
structure Update where
  user_record : User
  events : Json

/-- The state after some updates, from empty tables. -/
def run (updates : List Update) : State :=
  updates.foldl (fun state update ↦ update_user_events state update.user_record update.events)
    ⟨[], []⟩

/-! ### What is known of a user -/

/-- The current rows of a user. -/
def current (user_id : ℤ) : List UserEvent :=
  rows.filter (isCurrentOf user_id)

/-- The facts that the rows of a user show. -/
structure Facts where
  referrer : Option ℤ
  is_mobile_user : Bool

/-- What an update starts with. -/
def factsOf (existing : Option UserEvent) : Facts :=
  ⟨existing.bind (·.referrer), (existing.map (·.is_mobile_user)).getD false⟩

/-- The facts of the current row of a user. -/
def facts (user_id : ℤ) : Facts := factsOf (current rows user_id).head?

/-- The user an event is dispatched for: of a referral that is the one who was referred. -/
def Dispatched.about (dispatched : Dispatched) : ℤ :=
  dispatched.referred_user_id.getD dispatched.user_id

/-- How many events of a kind were dispatched for a user. -/
def countOf (user_id : ℤ) (dispatched : List Dispatched) : ℕ :=
  dispatched.countP fun d ↦ decide (d.event = event ∧ d.about = user_id)

/-- How many events of a kind may still be dispatched for a user of whom the facts are known. -/
def due (known : Facts) : ℕ :=
  match event with
  | .referral_signup | .referred_signup => if known.referrer.isNone then 1 else 0
  | .mobile_install => if known.is_mobile_user then 0 else 1
  | _ => 0

variable (event : Challenges.ChallengeEvent) (user_id : ℤ) (dispatched : List Dispatched)
  {row : UserEvent} (blocknumber : ℤ)

theorem due_le (known : Facts) : due event known ≤ 1 := by
  unfold due
  split
  · split <;> omega
  · split <;> omega
  · split <;> omega
  · omega

/-- What is known stays known. -/
structure Facts.Le (known known' : Facts) : Prop where
  referrer : ∀ value, known.referrer = some value → known'.referrer = some value
  is_mobile_user : known.is_mobile_user = true → known'.is_mobile_user = true

theorem Facts.Le.refl (known : Facts) : known.Le known := ⟨fun _ h ↦ h, fun h ↦ h⟩

theorem Facts.Le.trans {a b c : Facts} (hab : a.Le b) (hbc : b.Le c) : a.Le c :=
  ⟨fun value h ↦ hbc.referrer value (hab.referrer value h),
    fun h ↦ hbc.is_mobile_user (hab.is_mobile_user h)⟩

/-! ### Merging -/

/-- The facts a row shows. -/
def UserEvent.facts (row : UserEvent) : Facts := ⟨row.referrer, row.is_mobile_user⟩

/-- What merging does to a row and to what is dispatched. An event counts against what was due. -/
structure Merges (before after : UserEvent × List Dispatched) : Prop where
  user_id : after.1.user_id = before.1.user_id
  is_current : after.1.is_current = before.1.is_current
  facts : before.1.facts.Le after.1.facts
  once : ∀ event, countOf event before.1.user_id after.2 + due event after.1.facts ≤
    countOf event before.1.user_id before.2 + due event before.1.facts
  others : ∀ event user_id, user_id ≠ before.1.user_id →
    countOf event user_id after.2 = countOf event user_id before.2

theorem Merges.refl (merged : UserEvent × List Dispatched) : Merges merged merged :=
  ⟨rfl, rfl, .refl _, fun _ ↦ Nat.le_refl _, fun _ _ _ ↦ rfl⟩

theorem Merges.trans {a b c : UserEvent × List Dispatched} (hab : Merges a b) (hbc : Merges b c) :
    Merges a c where
  user_id := hbc.user_id.trans hab.user_id
  is_current := hbc.is_current.trans hab.is_current
  facts := hab.facts.trans hbc.facts
  once event := by
    have hnext := hbc.once event
    rw [hab.user_id] at hnext
    exact Nat.le_trans hnext (hab.once event)
  others event user_id hne := by
    rw [hbc.others event user_id (hab.user_id.symm ▸ hne), hab.others event user_id hne]

theorem countOf_append (new : List Dispatched) :
    countOf event user_id (dispatched ++ new) =
      countOf event user_id dispatched + countOf event user_id new :=
  countP_append

/-- Events about another user do not count. -/
theorem countOf_eq_zero {event : Challenges.ChallengeEvent} {user_id : ℤ} {new : List Dispatched}
    (h : ∀ d ∈ new, d.about ≠ user_id) : countOf event user_id new = 0 := by
  apply countP_eq_zero.mpr
  intro d hd htrue
  exact h d hd (of_decide_eq_true htrue).2

/-- A row gains a referrer, with the two events of a referral. -/
theorem merges_referrer (value : ℤ) (hnone : row.referrer = none) :
    Merges (row, dispatched) ({ row with referrer := some value },
      dispatched ++ [⟨.referral_signup, blocknumber, value, some row.user_id⟩,
        ⟨.referred_signup, blocknumber, row.user_id, none⟩]) where
  user_id := rfl
  is_current := rfl
  facts := by
    refine ⟨fun other hsome ↦ ?_, fun h ↦ h⟩
    dsimp only [UserEvent.facts] at hsome
    rw [hnone] at hsome
    cases hsome
  once event := by
    dsimp only [UserEvent.facts]
    rw [hnone]
    cases event <;> simp [countOf, due, Dispatched.about]
  others event user_id hne := by
    rw [countOf_append, Nat.add_eq_left]
    apply countOf_eq_zero
    intro d hd
    simp only [mem_cons, not_mem_nil, or_false] at hd
    rcases hd with rfl | rfl <;> exact hne.symm

/-- A row that is not on a mobile device says whether it is now. -/
theorem merges_is_mobile_user (hfalse : row.is_mobile_user = false) (value : Bool) :
    Merges (row, dispatched) ({ row with is_mobile_user := value },
      if value then dispatched ++ [⟨.mobile_install, blocknumber, row.user_id, none⟩]
      else dispatched) where
  user_id := rfl
  is_current := rfl
  facts := by
    refine ⟨fun _ h ↦ h, fun htrue ↦ ?_⟩
    dsimp only [UserEvent.facts] at htrue
    rw [hfalse] at htrue
    cases htrue
  once event := by
    dsimp only [UserEvent.facts]
    rw [hfalse]
    cases value with
    | false => exact Nat.le_refl _
    | true =>
      cases event <;> simp [countOf, due, Dispatched.about]
  others event user_id hne := by
    cases value with
    | false => rfl
    | true =>
      rw [if_pos rfl, countOf_append, Nat.add_eq_left]
      apply countOf_eq_zero
      intro d hd
      rw [mem_singleton.mp hd]
      exact hne.symm

theorem merges_mergeEvent (merged : UserEvent × List Dispatched) (entry : String × Json) :
    Merges merged (mergeEvent blocknumber merged entry) := by
  obtain ⟨row, dispatched⟩ := merged
  unfold mergeEvent
  dsimp only
  split
  · split
    · next hnew => exact merges_referrer dispatched blocknumber _ hnew.1
    · exact .refl _
  · split
    · exact .refl _
    · next hnot =>
      exact merges_is_mobile_user dispatched blocknumber (Bool.not_eq_true _ ▸ hnot) _
  · exact .refl _

theorem merges_foldl (entries : List (String × Json)) :
    ∀ merged, Merges merged (entries.foldl (mergeEvent blocknumber) merged) := by
  induction entries with
  | nil => exact Merges.refl
  | cons entry entries ih =>
    intro merged
    exact (merges_mergeEvent blocknumber merged entry).trans (ih _)

/-! ### One update -/

/-- What an update does to what is known of a user and dispatched for the user. -/
structure Advances (user_id : ℤ) (state state' : State) : Prop where
  single : (current state.rows user_id).length ≤ 1 → (current state'.rows user_id).length ≤ 1
  known : (facts state.rows user_id).Le (facts state'.rows user_id)
  once : ∀ event,
    countOf event user_id state'.dispatched + due event (facts state'.rows user_id) ≤
      countOf event user_id state.dispatched + due event (facts state.rows user_id)

theorem Advances.refl (state : State) : Advances user_id state state :=
  ⟨fun h ↦ h, .refl _, fun _ ↦ Nat.le_refl _⟩

theorem Advances.trans {user_id : ℤ} {a b c : State} (hab : Advances user_id a b)
    (hbc : Advances user_id b c) : Advances user_id a c :=
  ⟨fun h ↦ hbc.single (hab.single h), hab.known.trans hbc.known,
    fun event ↦ Nat.le_trans (hbc.once event) (hab.once event)⟩

variable (rows : List UserEvent) (updates : List Update)

theorem current_append (rows' : List UserEvent) (user_id : ℤ) :
    current (rows ++ rows') user_id = current rows user_id ++ current rows' user_id :=
  filter_append rows rows'

/-- No row of the user stays current. -/
theorem current_retire :
    current (retire user_id rows) user_id = [] := by
  apply filter_eq_nil_iff.mpr
  intro row hrow
  obtain ⟨old, -, rfl⟩ := mem_map.mp hrow
  by_cases hcurrent : isCurrentOf user_id old = true
  · rw [if_pos hcurrent]
    simp [isCurrentOf]
  · rw [if_neg hcurrent]
    exact hcurrent

/-- The current rows of another user stay. -/
theorem current_retire_of_ne {user_id other : ℤ} (hne : other ≠ user_id) (rows : List UserEvent) :
    current (retire user_id rows) other = current rows other := by
  unfold current retire
  induction rows with
  | nil => rfl
  | cons row rows ih =>
    rw [map_cons, filter_cons, filter_cons, ih]
    by_cases hcurrent : isCurrentOf user_id row = true
    · rw [if_pos hcurrent]
      have huser : row.user_id = user_id := by
        unfold isCurrentOf at hcurrent
        rw [Bool.and_eq_true, decide_eq_true_eq] at hcurrent
        exact hcurrent.1
      have hnot : ∀ is_current,
          isCurrentOf other { row with is_current := is_current } = false := by
        intro is_current
        unfold isCurrentOf
        rw [decide_eq_false (fun h ↦ hne (h.symm.trans huser)), Bool.false_and]
      have hrow : isCurrentOf other row = false := hnot row.is_current
      rw [hnot false, hrow]
      rfl
    · rw [if_neg hcurrent]

/-- The one row the query finds is the first of the current ones. -/
theorem existing_user_events_eq_ok {rows : List UserEvent} {user_id : ℤ}
    {existing : Option UserEvent} (h : existing_user_events rows user_id = .ok existing) :
    (current rows user_id).head? = existing := by
  unfold existing_user_events at h
  unfold current
  split at h
  · next hnil =>
    rw [hnil]
    exact Except.ok.inj h
  · next row hone =>
    rw [hone]
    exact Except.ok.inj h
  · cases h

section Added

variable {state : State} {start : UserEvent} {merged : UserEvent × List Dispatched}
  (hmerges : Merges (start, state.dispatched) merged)
  (hstart : start.facts = facts state.rows start.user_id)

include hmerges hstart

/-- The merged row is added in place of the current one. -/
theorem advances_added (hcurrent : start.is_current = true) (user_id : ℤ) :
    Advances user_id state ⟨retire start.user_id state.rows ++ [merged.1], merged.2⟩ := by
  have hrow : isCurrentOf start.user_id merged.1 = true := by
    unfold isCurrentOf
    rw [hmerges.user_id, hmerges.is_current, hcurrent, decide_eq_true rfl]
    rfl
  by_cases huser : user_id = start.user_id
  · subst huser
    have hone : current (retire start.user_id state.rows ++ [merged.1]) start.user_id =
        [merged.1] := by
      rw [current_append, current_retire, nil_append]
      exact filter_cons_of_pos hrow
    have hfacts : facts (retire start.user_id state.rows ++ [merged.1]) start.user_id =
        merged.1.facts := by
      unfold facts
      rw [hone]
      rfl
    refine ⟨fun _ ↦ ?_, ?_, fun event ↦ ?_⟩
    · rw [hone]
      exact Nat.le_refl 1
    · rw [hfacts, ← hstart]
      exact hmerges.facts
    · rw [hfacts, ← hstart]
      exact hmerges.once event
  · have hsame : current (retire start.user_id state.rows ++ [merged.1]) user_id =
        current state.rows user_id := by
      have hnot : isCurrentOf user_id merged.1 = false := by
        unfold isCurrentOf
        rw [hmerges.user_id, decide_eq_false (Ne.symm huser), Bool.false_and]
      rw [current_append, current_retire_of_ne huser]
      unfold current
      rw [filter_cons_of_neg (by rw [hnot]; exact Bool.false_ne_true), filter_nil, append_nil]
    have hfacts : facts (retire start.user_id state.rows ++ [merged.1]) user_id =
        facts state.rows user_id := by
      unfold facts
      rw [hsame]
    refine ⟨fun h ↦ ?_, ?_, fun event ↦ ?_⟩
    · rw [hsame]
      exact h
    · rw [hfacts]
      exact .refl _
    · apply Nat.le_of_eq
      rw [hfacts, hmerges.others event user_id huser]

/-- The merged row shows nothing new, and is not added. -/
theorem advances_same (hsame : merged.1.facts = start.facts) (user_id : ℤ) :
    Advances user_id state ⟨state.rows, merged.2⟩ := by
  refine ⟨fun h ↦ h, .refl _, fun event ↦ ?_⟩
  by_cases huser : user_id = start.user_id
  · subst huser
    have honce := hmerges.once event
    rw [hsame, hstart] at honce
    exact honce
  · apply Nat.le_of_eq
    rw [hmerges.others event user_id huser]

end Added

/-- An update advances what is known of each user. -/
theorem advances_update (state : State) (user_record : User) (events : Json) :
    Advances user_id state (update_user_events state user_record events) := by
  unfold update_user_events
  split
  · next entries blocknumber _ _ =>
    split
    · exact .refl user_id state
    · split
      · exact .refl user_id state
      · next existing hexisting =>
        have hmerges := merges_foldl blocknumber entries.items
          (startOf user_record blocknumber existing, state.dispatched)
        have hstart : (startOf user_record blocknumber existing).facts =
            facts state.rows user_record.user_id := by
          unfold facts
          rw [existing_user_events_eq_ok hexisting]
          rfl
        dsimp only
        split
        · exact advances_added hmerges hstart rfl user_id
        · next hnot =>
          rw [not_or, not_or, not_not, not_not] at hnot
          apply advances_same hmerges hstart
          exact congrArg₂ Facts.mk hnot.2.2 hnot.2.1
  · exact .refl user_id state

/-! ### Runs -/

theorem run_append (earlier later : List Update) :
    run (earlier ++ later) = later.foldl
      (fun state update ↦ update_user_events state update.user_record update.events)
      (run earlier) :=
  foldl_append

theorem advances_foldl :
    ∀ state, Advances user_id state (updates.foldl
      (fun state update ↦ update_user_events state update.user_record update.events) state) := by
  induction updates with
  | nil => exact Advances.refl user_id
  | cons update updates ih =>
    intro state
    exact (advances_update user_id state update.user_record update.events).trans (ih _)

/-- No user has two current rows. -/
theorem length_current_run_le :
    (current (run updates).rows user_id).length ≤ 1 :=
  (advances_foldl user_id updates ⟨[], []⟩).single (Nat.zero_le 1)

/-- What the current row of a user shows after some updates. -/
theorem facts_of_mem_current {user_id : ℤ} {updates : List Update}
    (hrow : row ∈ current (run updates).rows user_id) :
    facts (run updates).rows user_id = row.facts := by
  have hle := length_current_run_le user_id updates
  unfold facts
  cases hcurrent : current (run updates).rows user_id with
  | nil =>
    rw [hcurrent] at hrow
    cases hrow
  | cons first rest =>
    rw [hcurrent] at hrow hle
    cases rest with
    | nil =>
      rw [mem_singleton.mp hrow]
      rfl
    | cons second rest =>
      rw [length_cons, length_cons] at hle
      omega

/-- A user who is known to have been referred, or to be on a mobile device, has a current row. -/
theorem exists_mem_current {rows : List UserEvent} {user_id : ℤ}
    (h : facts rows user_id ≠ factsOf none) :
    ∃ row ∈ current rows user_id, facts rows user_id = row.facts := by
  unfold facts at h ⊢
  cases hcurrent : current rows user_id with
  | nil =>
    rw [hcurrent] at h
    exact absurd rfl h
  | cons first rest => exact ⟨first, mem_cons_self, rfl⟩

/-- The events of a user over a run: there is one current row at most, a referrer stays, a mobile
user stays one, and each event is dispatched for the user once at most. -/
structure Monotone (user_id : ℤ) (updates : List Update) : Prop where
  single : (current (run updates).rows user_id).length ≤ 1
  referrer : ∀ earlier later, updates = earlier ++ later →
    ∀ row ∈ current (run earlier).rows user_id, ∀ value, row.referrer = some value →
      ∃ row' ∈ current (run updates).rows user_id, row'.referrer = some value
  is_mobile_user : ∀ earlier later, updates = earlier ++ later →
    ∀ row ∈ current (run earlier).rows user_id, row.is_mobile_user = true →
      ∃ row' ∈ current (run updates).rows user_id, row'.is_mobile_user = true
  once : ∀ event, countOf event user_id (run updates).dispatched ≤ 1

/-- The events of every user are monotone over every run of updates. -/
theorem monotone_run (user_id : ℤ) (updates : List Update) : Monotone user_id updates where
  single := length_current_run_le user_id updates
  referrer := by
    rintro earlier later rfl row hrow value hvalue
    have hknown := (advances_foldl user_id later (run earlier)).known
    rw [← run_append, facts_of_mem_current hrow] at hknown
    have hkept := hknown.referrer value hvalue
    have hne : facts (run (earlier ++ later)).rows user_id ≠ factsOf none := by
      intro heq
      rw [heq] at hkept
      cases hkept
    obtain ⟨row', hrow', hfacts⟩ := exists_mem_current hne
    rw [hfacts] at hkept
    exact ⟨row', hrow', hkept⟩
  is_mobile_user := by
    rintro earlier later rfl row hrow hmobile
    have hknown := (advances_foldl user_id later (run earlier)).known
    rw [← run_append, facts_of_mem_current hrow] at hknown
    have hkept := hknown.is_mobile_user hmobile
    have hne : facts (run (earlier ++ later)).rows user_id ≠ factsOf none := by
      intro heq
      rw [heq] at hkept
      cases hkept
    obtain ⟨row', hrow', hfacts⟩ := exists_mem_current hne
    rw [hfacts] at hkept
    exact ⟨row', hrow', hkept⟩
  once event := by
    have honce : countOf event user_id (run updates).dispatched +
        due event (facts (run updates).rows user_id) ≤ 0 + due event (facts [] user_id) :=
      (advances_foldl user_id updates ⟨[], []⟩).once event
    have hdue := due_le event (facts [] user_id)
    omega

/-- User 1 names a referrer twice, in one update and in the next; the first one counts. -/
example :
    (run [⟨⟨1, some 5, none⟩, .object [("is_mobile_user", .bool true), ("referrer", .int 2)]⟩,
        ⟨⟨1, some 5, none⟩, .object [("referrer", .int 3)]⟩]).dispatched =
      [⟨.mobile_install, 5, 1, none⟩, ⟨.referral_signup, 5, 2, some 1⟩,
        ⟨.referred_signup, 5, 1, none⟩] := by
  decide +kernel

end UserEvents

end ColivingSpec.Discovery
