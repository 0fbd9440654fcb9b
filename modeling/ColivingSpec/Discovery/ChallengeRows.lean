import ColivingSpec.Discovery.ChallengeUpdaters
import ColivingSpec.Discovery.PlainChallenges

/-!
# Batches of challenges with a row for each user

Two updaters keep a row for each user with a challenge: they add it with the challenge, change it,
and count the challenge by it. No batch leaves a challenge without its row, so no batch fails for a
missing row, or for one that is there already.
-/

namespace ColivingSpec.Discovery

open List Option

namespace Challenges

open Lib (Dict withKey)

variable {Row : Type}

/-- A challenge stands under its user, and has a row. -/
structure WithRows (T : Tables (UserRows Row)) : Prop where
  under : UnderSpecifiers T.user_challenges
  user : ∀ k user_challenge, T.user_challenges.get? k = some user_challenge →
    k = .user user_challenge.user_id
  row : ∀ user_id, (T.rows user_id).isSome = (T.user_challenges.get? (.user user_id)).isSome

variable {user_challenge? : Option UserChallenge} {T : Tables (UserRows Row)}

/-- Without a challenge there is none that is complete. -/
theorem open_of_none (h : user_challenge? = none) :
    ∀ old, user_challenge? = some old → old.is_complete = false := by
  intro old hold
  rw [h] at hold
  cases hold

/-- The challenge in progress is the only one. -/
theorem open_of_some {user_challenge : UserChallenge} (h : user_challenge? = some user_challenge)
    (hopen : user_challenge.is_complete = false) :
    ∀ old, user_challenge? = some old → old.is_complete = false := by
  intro old hold
  rw [h] at hold
  cases hold
  exact hopen

/-- The challenge of a specifier with the row of its user. -/
def cellOf (T : Tables (UserRows Row)) (k : Specifier) : Option (UserChallenge × Row) :=
  (T.user_challenges.get? k).bind fun user_challenge ↦
    (T.rows user_challenge.user_id).map (user_challenge, ·)

/-- A challenge with its row after a batch whose last event for it is `last`: the row is advanced,
and the challenge counted by it. -/
def cellAfter (challenge : Challenge) (fresh : Row) (count : Row → UserChallenge → UserChallenge)
    (advance : Row → Row) (last : EventMetadata) :
    Option (UserChallenge × Row) → Option (UserChallenge × Row)
  | some (old, row) =>
    if old.is_complete then some (old, row)
    else some (completedAt last.block_number (count (advance row) old), advance row)
  | none =>
    some (completedAt last.block_number (count (advance fresh)
      (_create_new_user_challenge challenge last.user_id (.user last.user_id))), advance fresh)

/-- The rows of some users are advanced. -/
def advanced (advance : ℤ → Row → Row) (user_ids : List ℤ) (rows : UserRows Row) : UserRows Row :=
  fun user_id ↦ if user_id ∈ user_ids then (rows user_id).map (advance user_id) else rows user_id

/-- Some users have fresh rows. -/
def inserted (fresh : Row) (user_ids : List ℤ) (rows : UserRows Row) : UserRows Row :=
  fun user_id ↦ if user_id ∈ user_ids then some fresh else rows user_id

/-! ### Adding and reading rows -/

theorem insertRows_eq (fresh : Row) {metadatas : List FullEventMetadata}
    (hnodup : (metadatas.map (·.2.user_id)).Nodup) :
    ∀ {rows : UserRows Row}, (∀ m ∈ metadatas, rows m.2.user_id = none) →
      insertRows fresh rows metadatas =
        .ok (inserted fresh (metadatas.map (·.2.user_id)) rows) := by
  induction metadatas with
  | nil => exact fun _ ↦ rfl
  | cons m rest ih =>
    intro rows hnone
    obtain ⟨hnot, hrest⟩ := nodup_cons.mp hnodup
    have hrows : rows m.2.user_id = none := hnone m mem_cons_self
    unfold insertRows
    rw [hrows, isSome_none, if_neg Bool.false_ne_true, ih hrest]
    · congr 1
      funext user_id
      unfold inserted
      rw [map_cons]
      by_cases heq : user_id = m.2.user_id
      · subst heq
        rw [if_neg hnot, Function.update_self, if_pos mem_cons_self]
      · rw [Function.update_of_ne heq]
        simp only [mem_cons, heq, false_or]
    · intro other hother
      rw [Function.update_of_ne, hnone other (mem_cons_of_mem _ hother)]
      intro heq
      exact hnot (List.mem_map.mpr ⟨other, hother, heq⟩)

/-- The challenge counted by the row of its user. -/
def countBy (count : Row → UserChallenge → UserChallenge) (rows : UserRows Row)
    (user_challenge : UserChallenge) : UserChallenge :=
  (rows user_challenge.user_id).elim user_challenge fun row ↦ count row user_challenge

theorem updateAll_eq (rows : UserRows Row) (count : Row → UserChallenge → UserChallenge)
    {user_challenges : List UserChallenge}
    (hrows : ∀ user_challenge ∈ user_challenges, (rows user_challenge.user_id).isSome = true) :
    updateAll rows count user_challenges = .ok (user_challenges.map (countBy count rows)) := by
  induction user_challenges with
  | nil => rfl
  | cons user_challenge rest ih =>
    obtain ⟨row, hrow⟩ := isSome_iff_exists.mp (hrows user_challenge mem_cons_self)
    unfold updateAll
    rw [hrow]
    rw [ih fun other hother ↦ hrows other (mem_cons_of_mem _ hother), map_cons]
    rw [countBy, hrow]
    rfl

/-! ### Cells -/

theorem WithRows.get?_eq (h : WithRows T) (k : Specifier) :
    T.user_challenges.get? k = (cellOf T k).map Prod.fst := by
  unfold cellOf
  cases hget : T.user_challenges.get? k with
  | none => rfl
  | some user_challenge =>
    have hrow := h.row user_challenge.user_id
    rw [← h.user k user_challenge hget, hget] at hrow
    obtain ⟨row, hrow⟩ := isSome_iff_exists.mp hrow
    rw [bind_some, hrow]
    rfl

theorem WithRows.rows_eq (h : WithRows T) (user_id : ℤ) :
    T.rows user_id = (cellOf T (.user user_id)).map Prod.snd := by
  have hrow := h.row user_id
  unfold cellOf
  cases hget : T.user_challenges.get? (.user user_id) with
  | none =>
    rw [hget, isSome_none, isSome_eq_false_iff, isNone_iff_eq_none] at hrow
    exact hrow
  | some user_challenge =>
    have huser := Specifier.user.inj (h.user _ user_challenge hget)
    rw [bind_some, ← huser]
    cases T.rows user_id <;> rfl

/-- Two tables are the same when their cells are. -/
theorem WithRows.same_iff {T' : Tables (UserRows Row)} (h : WithRows T) (h' : WithRows T') :
    ((∀ k, T.user_challenges.get? k = T'.user_challenges.get? k) ∧ T.rows = T'.rows) ↔
      ∀ k, cellOf T k = cellOf T' k := by
  constructor
  · rintro ⟨hget, hrows⟩ k
    rw [cellOf, hget, hrows]
    rfl
  · intro hcell
    refine ⟨fun k ↦ ?_, funext fun user_id ↦ ?_⟩
    · rw [h.get?_eq, h'.get?_eq, hcell]
    · rw [h.rows_eq, h'.rows_eq, hcell]

/-! ### A batch -/

/-- The updater takes the user as the specifier, and adds a fresh row with each new challenge;
`count` counts a challenge by a row. -/
structure Rowed (updater : ChallengeUpdater (UserRows Row)) (fresh : Row)
    (count : Row → UserChallenge → UserChallenge) : Prop where
  specifier : ∀ e, specifierOf updater e = .user e.user_id
  created : ∀ rows metadatas,
    updater.on_after_challenge_creation rows metadatas = insertRows fresh rows metadatas
  count_specifier : ∀ row user_challenge,
    (count row user_challenge).specifier = user_challenge.specifier
  count_user_id : ∀ row user_challenge, (count row user_challenge).user_id = user_challenge.user_id

section Batch

variable {challenge : Challenge} {updater : ChallengeUpdater (UserRows Row)}
  {event : ChallengeEvent} {fresh : Row} {count : Row → UserChallenge → UserChallenge}

theorem countBy_specifier (h : Rowed updater fresh count) (rows : UserRows Row)
    (user_challenge : UserChallenge) :
    (countBy count rows user_challenge).specifier = user_challenge.specifier := by
  unfold countBy
  cases rows user_challenge.user_id with
  | none => rfl
  | some row => exact h.count_specifier row user_challenge

theorem countBy_user_id (h : Rowed updater fresh count) (rows : UserRows Row)
    (user_challenge : UserChallenge) :
    (countBy count rows user_challenge).user_id = user_challenge.user_id := by
  unfold countBy
  cases rows user_challenge.user_id with
  | none => rfl
  | some row => exact h.count_user_id row user_challenge

theorem user_of_getLast? (h : Rowed updater fresh count) {events : List EventMetadata}
    {k : Specifier} {last : EventMetadata}
    (hlast : (withKey (specifierOf updater) k events).getLast? = some last) :
    k = .user last.user_id := by
  rw [← h.specifier, (specifierOf_of_getLast? hlast).2]

variable (event) in
/-- The users who get a challenge. -/
theorem mem_createdUsers (h : Rowed updater fresh count) (htype : challenge.type ≠ .aggregate)
    (T : Tables (UserRows Row)) (events : List EventMetadata) (user_id : ℤ) :
    user_id ∈ (createdBy challenge updater event T.user_challenges events).map (·.2.user_id) ↔
      (withKey (specifierOf updater) (.user user_id) events).getLast? ≠ none ∧
        T.user_challenges.get? (.user user_id) = none := by
  rw [List.mem_map]
  constructor
  · rintro ⟨⟨k, last⟩, hm, rfl⟩
    obtain ⟨hlast, hnone⟩ := of_mem_createdBy hm
    obtain rfl := user_of_getLast? h hlast
    exact ⟨by rw [hlast]; exact some_ne_none last, hnone⟩
  · rintro ⟨hsome, hnone⟩
    obtain ⟨last, hlast⟩ := ne_none_iff_exists'.mp hsome
    refine ⟨(.user user_id, last), (mem_toCreate htype).mpr ⟨(mem_items _ _ _).mpr hlast, hnone⟩, ?_⟩
    exact (Specifier.user.inj (user_of_getLast? h hlast)).symm

variable (event) in
/-- The users whose challenge is brought up to date. -/
theorem mem_updatedUsers (h : Rowed updater fresh count) (htype : challenge.type ≠ .aggregate)
    {T : Tables (UserRows Row)} (hT : WithRows T) (events : List EventMetadata) (user_id : ℤ) :
    user_id ∈ (updatedBy challenge updater event T.user_challenges events).map (·.user_id) ↔
      (withKey (specifierOf updater) (.user user_id) events).getLast? ≠ none ∧
        ∀ old, T.user_challenges.get? (.user user_id) = some old → old.is_complete = false := by
  rw [List.mem_map]
  constructor
  · rintro ⟨user_challenge, hmem, rfl⟩
    obtain ⟨last, hlast, ⟨hget, hopen⟩ | ⟨hm, hnew⟩⟩ := (mem_updatedBy hT.under).mp hmem
    · rw [hT.user _ _ hget] at hlast hget
      refine ⟨by rw [hlast]; exact some_ne_none last, fun old hold ↦ ?_⟩
      rw [hget] at hold
      cases hold
      exact hopen
    · have hk := user_of_getLast? h hlast
      have huser : last.user_id = user_challenge.user_id := by
        rw [← hnew]
        rfl
      rw [hk, huser] at hlast
      rw [hk, huser] at hm
      refine ⟨by rw [hlast]; exact some_ne_none last, fun old hold ↦ ?_⟩
      rw [(of_mem_createdBy hm).2] at hold
      cases hold
  · rintro ⟨hsome, hopen⟩
    obtain ⟨last, hlast⟩ := ne_none_iff_exists'.mp hsome
    cases hget : T.user_challenges.get? (.user user_id) with
    | some old =>
      have hk := hT.under _ _ hget
      refine ⟨old, (mem_updatedBy hT.under).mpr ?_, (Specifier.user.inj (hT.user _ _ hget)).symm⟩
      rw [hk]
      exact ⟨last, hlast, .inl ⟨hget, hopen old hget⟩⟩
    | none =>
      have hm : (.user user_id, last) ∈
          createdBy challenge updater event T.user_challenges events :=
        (mem_toCreate htype).mpr ⟨(mem_items _ _ _).mpr hlast, hget⟩
      refine ⟨_create_new_user_challenge challenge last.user_id (.user user_id),
        (mem_updatedBy hT.under).mpr ⟨last, hlast, .inr ⟨hm, rfl⟩⟩, ?_⟩
      exact (Specifier.user.inj (user_of_getLast? h hlast)).symm

/-- The rows after a batch. -/
def rowAfter (fresh : Row) (advance : Row → Row) (row : Option Row) :
    Option UserChallenge → Option Row
  | some old => if old.is_complete then row else row.map advance
  | none => some (advance fresh)

variable (event) in
theorem rows_after (h : Rowed updater fresh count) (htype : challenge.type ≠ .aggregate)
    {T : Tables (UserRows Row)} (hT : WithRows T) (events : List EventMetadata)
    (advance : ℤ → Row → Row) (user_id : ℤ) :
    advanced advance
        ((updatedBy challenge updater event T.user_challenges events).map (·.user_id))
        (inserted fresh
          ((createdBy challenge updater event T.user_challenges events).map (·.2.user_id)) T.rows)
        user_id =
      (withKey (specifierOf updater) (.user user_id) events).getLast?.elim (T.rows user_id) fun _ ↦
        rowAfter fresh (advance user_id) (T.rows user_id)
          (T.user_challenges.get? (.user user_id)) := by
  have hcreated := mem_createdUsers event h htype T events user_id
  have hupdated := mem_updatedUsers event h htype hT events user_id
  unfold advanced inserted
  cases hlast : (withKey (specifierOf updater) (.user user_id) events).getLast? with
  | none =>
    rw [hlast] at hcreated hupdated
    rw [if_neg (fun hmem ↦ (hupdated.mp hmem).1 rfl), if_neg (fun hmem ↦ (hcreated.mp hmem).1 rfl)]
    rfl
  | some last =>
    have hsome : some last ≠ none := some_ne_none last
    rw [hlast] at hcreated hupdated
    cases hget : T.user_challenges.get? (.user user_id) with
    | none =>
      rw [hget] at hcreated hupdated
      rw [if_pos (hupdated.mpr ⟨hsome, open_of_none rfl⟩), if_pos (hcreated.mpr ⟨hsome, rfl⟩)]
      rfl
    | some old =>
      rw [hget] at hcreated hupdated
      have hnew : user_id ∉
          (createdBy challenge updater event T.user_challenges events).map (·.2.user_id) := by
        intro hmem
        cases (hcreated.mp hmem).2
      rw [if_neg hnew, elim_some]
      dsimp only [rowAfter]
      by_cases hcomplete : old.is_complete = true
      · have hold : user_id ∉
            (updatedBy challenge updater event T.user_challenges events).map (·.user_id) := by
          intro hmem
          have hopen := (hupdated.mp hmem).2 old rfl
          rw [hcomplete] at hopen
          cases hopen
        rw [if_neg hold, if_pos hcomplete]
      · have hopen : ∀ other, some old = some other → other.is_complete = false := by
          intro other hother
          cases hother
          exact Bool.not_eq_true _ ▸ hcomplete
        rw [if_pos (hupdated.mpr ⟨hsome, hopen⟩), if_neg hcomplete]

variable (event) in
theorem nodup_createdUsers (h : Rowed updater fresh count) (htype : challenge.type ≠ .aggregate)
    (T : Tables (UserRows Row)) (events : List EventMetadata) :
    ((createdBy challenge updater event T.user_challenges events).map (·.2.user_id)).Nodup := by
  have hkeys : ((createdBy challenge updater event T.user_challenges events).map Prod.fst).Nodup := by
    unfold createdBy toCreate
    rw [if_neg htype]
    exact (filter_sublist.map Prod.fst).nodup (events_with_specifiers_map updater events).nodup
  refine Nodup.of_map Specifier.user ?_
  rw [List.map_map]
  convert hkeys using 1
  apply map_congr_left
  intro m hm
  exact (user_of_getLast? h (of_mem_createdBy hm).1).symm

variable (event) in
/-- No row of a new challenge is there, and every challenge that is brought up to date has one. -/
theorem rows_present (h : Rowed updater fresh count) (htype : challenge.type ≠ .aggregate)
    {T : Tables (UserRows Row)} (hT : WithRows T) (events : List EventMetadata) :
    (∀ m ∈ createdBy challenge updater event T.user_challenges events, T.rows m.2.user_id = none) ∧
      ∀ user_challenge ∈ updatedBy challenge updater event T.user_challenges events,
        (inserted fresh
          ((createdBy challenge updater event T.user_challenges events).map (·.2.user_id)) T.rows
          user_challenge.user_id).isSome = true := by
  constructor
  · intro m hm
    obtain ⟨hlast, hnone⟩ := of_mem_createdBy hm
    rw [user_of_getLast? h hlast] at hnone
    have hrow := hT.row m.2.user_id
    rw [hnone, isSome_none, isSome_eq_false_iff, isNone_iff_eq_none] at hrow
    exact hrow
  · intro user_challenge hmem
    have hupdated := (mem_updatedUsers event h htype hT _ _).mp
      (List.mem_map_of_mem (f := UserChallenge.user_id) hmem)
    unfold inserted
    split
    · rfl
    · next hold =>
      rw [hT.row, isSome_iff_ne_none]
      intro hnone
      exact hold ((mem_createdUsers event h htype T _ _).mpr ⟨hupdated.1, hnone⟩)

section After

variable (h : Rowed updater fresh count) {T T' : Tables (UserRows Row)} (hT : WithRows T)
  {events : List EventMetadata} {advance : ℤ → Row → Row}
  (hget : ∀ k, T'.user_challenges.get? k =
    (withKey (specifierOf updater) k events).getLast?.elim (T.user_challenges.get? k) fun last ↦
      afterEvent challenge (countBy count T'.rows) true k last (T.user_challenges.get? k))
  (hrows : ∀ user_id, T'.rows user_id =
    (withKey (specifierOf updater) (.user user_id) events).getLast?.elim (T.rows user_id) fun _ ↦
      rowAfter fresh (advance user_id) (T.rows user_id) (T.user_challenges.get? (.user user_id)))

include h hT hget hrows

theorem withRows_after : WithRows T' := by
  refine ⟨?_, ?_, ?_⟩
  · intro k user_challenge hsome
    rw [hget] at hsome
    cases hlast : (withKey (specifierOf updater) k events).getLast? with
    | none =>
      rw [hlast] at hsome
      exact hT.under k user_challenge hsome
    | some last =>
      rw [hlast] at hsome
      exact afterEvent_specifier (countBy_specifier h _) (hT.under k) hsome
  · intro k user_challenge hsome
    rw [hget] at hsome
    cases hlast : (withKey (specifierOf updater) k events).getLast? with
    | none =>
      rw [hlast] at hsome
      exact hT.user k user_challenge hsome
    | some last =>
      rw [hlast] at hsome
      refine afterEvent_forall (P := fun user_challenge ↦ k = .user user_challenge.user_id)
        (hT.user k) (user_of_getLast? h hlast) ?_ hsome
      intro block_number user_challenge heq
      rw [completedAt_user_id, countBy_user_id h]
      exact heq
  · intro user_id
    have hrow := hT.row user_id
    rw [hget, hrows]
    cases (withKey (specifierOf updater) (.user user_id) events).getLast? with
    | none => exact hrow
    | some last =>
      rw [elim_some, elim_some]
      cases hold : T.user_challenges.get? (.user user_id) with
      | none => rfl
      | some old =>
        rw [hold] at hrow
        dsimp only [rowAfter, afterEvent]
        by_cases hcomplete : old.is_complete = true
        · rw [if_pos hcomplete, if_pos hcomplete, hrow]
        · rw [if_neg hcomplete, if_neg hcomplete, isSome_map, hrow]
          rfl

theorem cellOf_after (k : Specifier) :
    cellOf T' k =
      (withKey (specifierOf updater) k events).getLast?.elim (cellOf T k) fun last ↦
        cellAfter challenge fresh count (advance last.user_id) last (cellOf T k) := by
  have hcell : cellOf T' k = (T'.user_challenges.get? k).bind fun user_challenge ↦
    (T'.rows user_challenge.user_id).map (user_challenge, ·) := rfl
  rw [hcell, hget]
  cases hlast : (withKey (specifierOf updater) k events).getLast? with
  | none =>
    rw [elim_none, elim_none]
    unfold cellOf
    cases hold : T.user_challenges.get? k with
    | none => rfl
    | some old =>
      have hrow := hrows old.user_id
      rw [← hT.user k old hold, hlast] at hrow
      rw [bind_some, bind_some, hrow]
      rfl
  | some last =>
    rw [elim_some, elim_some]
    obtain rfl := user_of_getLast? h hlast
    have hrow := hrows last.user_id
    rw [hlast, elim_some] at hrow
    cases hold : T.user_challenges.get? (.user last.user_id) with
    | none =>
      rw [hold] at hrow
      unfold cellOf
      rw [hold]
      dsimp only [afterEvent, cellAfter, bind_none]
      rw [if_pos rfl, bind_some, completedAt_user_id, countBy_user_id h]
      dsimp only [_create_new_user_challenge]
      rw [hrow]
      rw [countBy]
      rw [hrow]
      rfl
    | some old =>
      have huser := Specifier.user.inj (hT.user _ old hold)
      have hpresent := hT.row last.user_id
      rw [hold] at hpresent hrow
      obtain ⟨row, hpresent⟩ := isSome_iff_exists.mp hpresent
      have hcell : cellOf T (.user last.user_id) = some (old, row) := by
        unfold cellOf
        rw [hold, bind_some, ← huser, hpresent]
        rfl
      rw [hcell]
      dsimp only [afterEvent, cellAfter]
      dsimp only [rowAfter] at hrow
      rw [hpresent] at hrow
      by_cases hcomplete : old.is_complete = true
      · rw [if_pos hcomplete] at hrow
        rw [if_pos hcomplete, if_pos hcomplete, bind_some, ← huser, hrow]
        rfl
      · rw [if_neg hcomplete] at hrow
        rw [if_neg hcomplete, if_neg hcomplete, bind_some, completedAt_user_id,
          countBy_user_id h, countBy, ← huser, hrow]
        rfl

end After

/-- A batch whose updater advances the row of each challenge and counts the challenge by it does to
each specifier with an event what its last event does, and nothing to the others. -/
theorem Rowed.processStarted_eq (h : Rowed updater fresh count)
    (htype : challenge.type ≠ .aggregate) {T : Tables (UserRows Row)} (hT : WithRows T)
    (events : List EventMetadata) (advance : ℤ → Row → Row)
    (hupdated : ∀ rows : UserRows Row,
      (∀ user_challenge ∈ updatedBy challenge updater event T.user_challenges events,
        (rows user_challenge.user_id).isSome = true) →
      updater.update_user_challenges event rows
          (updatedBy challenge updater event T.user_challenges events) challenge.step_count
          (events_with_specifiers_map updater events).items challenge.starting_block =
        .ok (advanced advance
            ((updatedBy challenge updater event T.user_challenges events).map (·.user_id)) rows,
          (updatedBy challenge updater event T.user_challenges events).map
            (countBy count (advanced advance
              ((updatedBy challenge updater event T.user_challenges events).map (·.user_id))
              rows)))) :
    ∃ T', processStarted challenge updater event T events = .ok T' ∧ WithRows T' ∧
      ∀ k, cellOf T' k =
        (withKey (specifierOf updater) k events).getLast?.elim (cellOf T k) fun last ↦
          cellAfter challenge fresh count (advance last.user_id) last (cellOf T k) := by
  obtain ⟨hnone, hsome⟩ := rows_present event h htype hT events
  have hcreated := insertRows_eq fresh (nodup_createdUsers event h htype T events) hnone
  rw [← h.created] at hcreated
  obtain ⟨user_challenges, hok, hget⟩ := Challenges.processStarted_eq hT.under events
    (countBy_specifier h _) hcreated (hupdated _ hsome)
  have hrows := rows_after event h htype hT events advance
  have hafter : ∀ k, user_challenges.get? k =
      (withKey (specifierOf updater) k events).getLast?.elim (T.user_challenges.get? k) fun last ↦
        afterEvent challenge (countBy count (advanced advance
          ((updatedBy challenge updater event T.user_challenges events).map (·.user_id))
          (inserted fresh
            ((createdBy challenge updater event T.user_challenges events).map (·.2.user_id))
            T.rows))) true k last (T.user_challenges.get? k) := by
    intro k
    rw [hget]
    cases hlast : (withKey (specifierOf updater) k events).getLast? with
    | none => rfl
    | some last => exact afterEvent_createdBy htype hlast
  exact ⟨_, hok, withRows_after h hT hafter hrows, cellOf_after h hT hafter hrows⟩

theorem withRows_each (hinv : ∀ (T : Tables (UserRows Row)) events, WithRows T →
      WithRows (processAll challenge updater event T events)) (events : List EventMetadata) :
    ∀ {T : Tables (UserRows Row)}, WithRows T →
      WithRows (events.foldl (fun T e ↦ processAll challenge updater event T [e]) T) := by
  induction events with
  | nil => exact fun hT ↦ hT
  | cons e rest ih => exact fun hT ↦ ih (hinv _ [e] hT)

end Batch

end Challenges

end ColivingSpec.Discovery
