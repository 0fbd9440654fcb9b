import ColivingSpec.Discovery.ListenStreak
import Mathlib.Data.List.Perm.Subperm

/-!
# Batches of listens

The listen streak takes the rows of a batch in the order in which a query gives them, and advances
the row at a place by the listen at the same place among the events of the batch, whoever's listen
it is. Events one by one advance the row of each user by the user's own listens, all of them.
-/

namespace ColivingSpec.Discovery

open List Option

namespace Challenges

open Lib (Dict withKey)

/-! ### The rows of a batch -/

section Users

variable {Row : Type} {challenge : Challenge} {updater : ChallengeUpdater (UserRows Row)}
  {event : ChallengeEvent} {fresh : Row} {count : Row → UserChallenge → UserChallenge}

variable (updater event) in
/-- A batch brings a specifier up to date once. -/
theorem nodup_updatedSpecifiers (htype : challenge.type ≠ .aggregate)
    {user_challenges : Dict Specifier UserChallenge} (hunder : UnderSpecifiers user_challenges)
    (events : List EventMetadata) :
    ((updatedBy challenge updater event user_challenges events).map (·.specifier)).Nodup := by
  have hkeys := (events_with_specifiers_map updater events).nodup
  unfold updatedBy toUpdate
  rw [map_append, nodup_append]
  refine ⟨?_, ?_, ?_⟩
  · refine (filter_sublist.map UserChallenge.specifier).nodup ?_
    rw [Nodup, pairwise_map, pairwise_filterMap]
    refine (pairwise_map.mp hkeys).imp ?_
    intro m m' hne old hold old' hold'
    rw [hunder _ _ hold, hunder _ _ hold']
    exact hne
  · rw [List.map_map]
    unfold createdBy toCreate
    rw [if_neg htype]
    exact (filter_sublist.map Prod.fst).nodup hkeys
  · intro k hk k' hk' heq
    obtain ⟨old, hold, rfl⟩ := List.mem_map.mp hk
    obtain ⟨m, hm, hget⟩ := mem_filterMap.mp (mem_of_mem_filter hold)
    rw [List.map_map, List.mem_map] at hk'
    obtain ⟨⟨k', last⟩, hnew, rfl⟩ := hk'
    have hnone := (of_mem_createdBy hnew).2
    have hsome := hunder _ _ hget ▸ hget
    rw [heq] at hsome
    exact some_ne_none _ (hsome.symm.trans hnone)

theorem specifier_of_mem_updatedBy (h : Rowed updater fresh count)
    {T : Tables (UserRows Row)} (hT : WithRows T) {events : List EventMetadata}
    {user_challenge : UserChallenge}
    (hmem : user_challenge ∈ updatedBy challenge updater event T.user_challenges events) :
    user_challenge.specifier = .user user_challenge.user_id := by
  obtain ⟨last, hlast, ⟨hget, -⟩ | ⟨-, hnew⟩⟩ := (mem_updatedBy hT.under).mp hmem
  · exact hT.user _ _ hget
  · have huser : last.user_id = user_challenge.user_id := by
      rw [← hnew]
      rfl
    rw [← huser]
    exact user_of_getLast? h hlast

theorem nodup_updatedUsers (h : Rowed updater fresh count) (htype : challenge.type ≠ .aggregate)
    {T : Tables (UserRows Row)} (hT : WithRows T) (events : List EventMetadata) :
    ((updatedBy challenge updater event T.user_challenges events).map (·.user_id)).Nodup := by
  refine Nodup.of_map Specifier.user ?_
  rw [List.map_map]
  convert nodup_updatedSpecifiers updater event htype hT.under events using 1
  apply map_congr_left
  intro user_challenge hmem
  exact (specifier_of_mem_updatedBy h hT hmem).symm

/-- A batch has an event for each challenge it brings up to date. -/
theorem length_updatedBy_le (htype : challenge.type ≠ .aggregate)
    {user_challenges : Dict Specifier UserChallenge} (hunder : UnderSpecifiers user_challenges)
    (events : List EventMetadata) :
    (updatedBy challenge updater event user_challenges events).length ≤
      (events_with_specifiers_map updater events).items.length := by
  have hsub : (updatedBy challenge updater event user_challenges events).map (·.specifier) ⊆
      (events_with_specifiers_map updater events).items.map Prod.fst := by
    intro k hk
    obtain ⟨user_challenge, hmem, rfl⟩ := List.mem_map.mp hk
    obtain ⟨last, hlast, -⟩ := (mem_updatedBy hunder).mp hmem
    exact List.mem_map_of_mem (f := Prod.fst) ((mem_items _ _ _).mpr hlast)
  have hlen := (subperm_of_subset (nodup_updatedSpecifiers updater event htype hunder events)
    hsub).length_le
  rw [length_map, length_map] at hlen
  exact hlen

end Users

/-! ### Listens by place -/

/-- The event that stands among the batch's where the user's row stands in the query. -/
def listenAt (order : RowOrder) (user_ids : List ℤ) (metadatas : List FullEventMetadata)
    (user_id : ℤ) : Option FullEventMetadata :=
  ((order.order user_ids).zip metadatas).lookup user_id

/-- A row advanced by an event, if there is one. -/
def listenBy (metadata : Option FullEventMetadata) (streak : ChallengeListenStreak) :
    ChallengeListenStreak :=
  metadata.elim streak fun metadata ↦ listen metadata.2.extra.created_at streak

variable {user_ids : List ℤ} (order : RowOrder) {metadatas : List FullEventMetadata}

theorem _handle_digital_content_listens_eq (hnodup : user_ids.Nodup) :
    ∀ metadatas : List FullEventMetadata, user_ids.length ≤ metadatas.length →
      ∀ rows, _handle_digital_content_listens rows user_ids metadatas =
        .ok (advanced (fun user_id ↦ listenBy ((user_ids.zip metadatas).lookup user_id)) user_ids
          rows) := by
  induction user_ids with
  | nil => exact fun _ _ rows ↦ rfl
  | cons user_id rest ih =>
    intro metadatas hlen rows
    obtain ⟨hnot, hrest⟩ := nodup_cons.mp hnodup
    cases metadatas with
    | nil => cases hlen
    | cons metadata metadatas =>
      unfold _handle_digital_content_listens
      rw [ih hrest metadatas (Nat.le_of_succ_le_succ hlen)]
      congr 1
      funext other
      unfold advanced
      by_cases heq : other = user_id
      · subst heq
        rw [if_neg hnot, if_pos mem_cons_self, Function.update_self]
        dsimp only
        rw [zip_cons_cons, lookup_cons_self]
        rfl
      · have hmem : other ∈ user_id :: rest ↔ other ∈ rest := by
          rw [mem_cons, or_iff_right heq]
        have hlookup : ((user_id :: rest).zip (metadata :: metadatas)).lookup other =
            (rest.zip metadatas).lookup other := by
          rw [zip_cons_cons, lookup_cons, beq_false_of_ne heq]
        simp only [hmem, hlookup, Function.update_of_ne heq]

/-- A user with a row has an event at its place. -/
theorem listenAt_isSome (hlen : user_ids.length ≤ metadatas.length) {user_id : ℤ}
    (hmem : user_id ∈ user_ids) :
    (listenAt order user_ids metadatas user_id).isSome = true := by
  have hin : user_id ∈ order.order user_ids := (order.perm user_ids).mem_iff.mpr hmem
  have hlen' : (order.order user_ids).length ≤ metadatas.length := by
    rw [(order.perm user_ids).length_eq]
    exact hlen
  rw [← map_fst_zip hlen'] at hin
  obtain ⟨entry, hentry, heq⟩ := List.mem_map.mp hin
  exact lookup_isSome_iff.mpr ⟨entry, hentry, beq_iff_eq.mpr heq.symm⟩

/-- The updater advances each row by the event at its place. -/
theorem listenStreakUpdater_updated (step_count : ℤ) {rows : UserRows ChallengeListenStreak}
    {user_challenges : List UserChallenge} (starting_block : Option ℤ)
    (hnodup : (user_challenges.map (·.user_id)).Nodup)
    (hlen : user_challenges.length ≤ metadatas.length)
    (hsome : ∀ user_challenge ∈ user_challenges, (rows user_challenge.user_id).isSome = true) :
    (listenStreakUpdater order).update_user_challenges .digital_content_listen rows user_challenges
        (some step_count) metadatas starting_block =
      .ok (advanced (fun user_id ↦
            listenBy (listenAt order (user_challenges.map (·.user_id)) metadatas user_id))
          (user_challenges.map (·.user_id)) rows,
        user_challenges.map (countBy (countStreak step_count) (advanced (fun user_id ↦
            listenBy (listenAt order (user_challenges.map (·.user_id)) metadatas user_id))
          (user_challenges.map (·.user_id)) rows))) := by
  have hperm := order.perm (user_challenges.map (·.user_id))
  have hall : (order.order (user_challenges.map (·.user_id))).filter
      (fun user_id ↦ (rows user_id).isSome) = order.order (user_challenges.map (·.user_id)) := by
    rw [filter_eq_self]
    intro user_id hmem
    obtain ⟨user_challenge, hin, rfl⟩ := List.mem_map.mp (hperm.mem_iff.mp hmem)
    exact hsome user_challenge hin
  have hhandled := _handle_digital_content_listens_eq (hperm.nodup_iff.mpr hnodup)
    metadatas (by rw [hperm.length_eq, length_map]; exact hlen) rows
  have hadvanced : advanced (fun user_id ↦ listenBy
        (((order.order (user_challenges.map (·.user_id))).zip metadatas).lookup user_id))
        (order.order (user_challenges.map (·.user_id))) rows =
      advanced (fun user_id ↦
        listenBy (listenAt order (user_challenges.map (·.user_id)) metadatas user_id))
        (user_challenges.map (·.user_id)) rows := by
    funext user_id
    unfold advanced
    simp only [hperm.mem_iff]
    rfl
  rw [hadvanced] at hhandled
  have hpresent : ∀ user_challenge ∈ user_challenges,
      (advanced (fun user_id ↦
        listenBy (listenAt order (user_challenges.map (·.user_id)) metadatas user_id))
        (user_challenges.map (·.user_id)) rows user_challenge.user_id).isSome = true := by
    intro user_challenge hmem
    unfold advanced
    rw [if_pos (List.mem_map_of_mem (f := UserChallenge.user_id) hmem), isSome_map]
    exact hsome user_challenge hmem
  dsimp only [listenStreakUpdater]
  rw [hall, if_pos rfl, hhandled]
  dsimp only
  rw [updateAll_eq _ _ hpresent]

theorem listenStreakUpdater_rowed (step_count : ℤ) :
    Rowed (listenStreakUpdater order) ⟨none, 0⟩ (countStreak step_count) where
  specifier _ := rfl
  created _ _ := rfl
  count_specifier _ _ := rfl
  count_user_id _ _ := rfl

theorem mem_of_listenAt {order : RowOrder} {user_id : ℤ} {metadata : FullEventMetadata}
    (h : listenAt order user_ids metadatas user_id = some metadata) : metadata ∈ metadatas := by
  obtain ⟨before, after, hzip, -⟩ := lookup_eq_some_iff.mp h
  have hmem : (user_id, metadata) ∈ (order.order user_ids).zip metadatas := by
    rw [hzip]
    exact mem_append_right _ mem_cons_self
  exact (of_mem_zip hmem).2

/-! ### Batches -/

section Batch

variable {challenge : Challenge} {order : RowOrder} {step_count : ℤ}

/-- The event at the place of a user's row in a batch. -/
def pairedListen (challenge : Challenge) (order : RowOrder)
    (T : Tables (UserRows ChallengeListenStreak)) (events : List EventMetadata) (user_id : ℤ) :
    Option FullEventMetadata :=
  listenAt order
    ((updatedBy challenge (listenStreakUpdater order) .digital_content_listen T.user_challenges
      events).map (·.user_id))
    (events_with_specifiers_map (listenStreakUpdater order) events).items user_id

variable (order) in
/-- What a batch of listens does to each specifier. -/
theorem listenStreak_processAll (htype : challenge.type ≠ .aggregate)
    (hstep : challenge.step_count = some step_count) {T : Tables (UserRows ChallengeListenStreak)}
    (hT : WithRows T) (events : List EventMetadata) :
    WithRows (processAll challenge (listenStreakUpdater order) .digital_content_listen T events) ∧
      ∀ k, cellOf
          (processAll challenge (listenStreakUpdater order) .digital_content_listen T events) k =
        (withKey (specifierOf (listenStreakUpdater order)) k events).getLast?.elim (cellOf T k)
          fun last ↦ cellAfter challenge ⟨none, 0⟩ (countStreak step_count)
            (listenBy (pairedListen challenge order T events last.user_id)) last (cellOf T k) := by
  have h := listenStreakUpdater_rowed order step_count
  cases events with
  | nil => exact ⟨hT, fun k ↦ rfl⟩
  | cons e rest =>
    obtain ⟨T', hok, hrows, hcell⟩ := h.processStarted_eq htype hT (e :: rest)
      (fun user_id ↦ listenBy (pairedListen challenge order T (e :: rest) user_id)) (by
        intro rows hsome
        rw [hstep]
        exact listenStreakUpdater_updated order step_count challenge.starting_block
          (nodup_updatedUsers h htype hT _) (length_updatedBy_le htype hT.under _) hsome)
    dsimp only [processAll]
    rw [hok]
    exact ⟨hrows, hcell⟩

/-- An event by itself advances the row of its own user. -/
theorem cellOf_processAll_singleton (htype : challenge.type ≠ .aggregate)
    (hstep : challenge.step_count = some step_count) {T : Tables (UserRows ChallengeListenStreak)}
    (hT : WithRows T) (e : EventMetadata) (k : Specifier) :
    cellOf (processAll challenge (listenStreakUpdater order) .digital_content_listen T [e]) k =
      if specifierOf (listenStreakUpdater order) e = k then
        cellAfter challenge ⟨none, 0⟩ (countStreak step_count) (listen e.extra.created_at) e
          (cellOf T k)
      else cellOf T k := by
  have h := listenStreakUpdater_rowed order step_count
  rw [(listenStreak_processAll order htype hstep hT [e]).2, Lib.withKey_cons, Lib.withKey_nil]
  by_cases hkey : specifierOf (listenStreakUpdater order) e = k
  · rw [if_pos hkey, if_pos hkey]
    dsimp only [getLast?_singleton, elim_some]
    subst hkey
    have hlast : (withKey (specifierOf (listenStreakUpdater order)) (.user e.user_id)
        [e]).getLast? = some e := by
      rw [Lib.withKey_cons, if_pos (h.specifier e)]
      rfl
    have hupdated := mem_updatedUsers .digital_content_listen h htype hT [e] e.user_id
    rw [hlast] at hupdated
    by_cases hmem : e.user_id ∈ (updatedBy challenge (listenStreakUpdater order)
        .digital_content_listen T.user_challenges [e]).map (·.user_id)
    · obtain ⟨m, hm⟩ := isSome_iff_exists.mp (listenAt_isSome order
        (by rw [length_map]; exact length_updatedBy_le htype hT.under [e]) hmem)
      have heq : m.2 = e := by
        have hitem := (mem_items [e] m.1 m.2).mp (mem_of_listenAt hm)
        exact mem_singleton.mp (specifierOf_of_getLast? hitem).1
      have hby : listenBy (pairedListen challenge order T [e] e.user_id) =
          listen e.extra.created_at := by
        funext streak
        unfold pairedListen listenBy
        rw [hm, elim_some, heq]
      rw [hby]
    · rw [hupdated] at hmem
      simp only [ne_eq, reduceCtorEq, not_false_eq_true, true_and, not_forall,
        Bool.not_eq_false] at hmem
      obtain ⟨old, hold, hcomplete⟩ := hmem
      rw [hT.get?_eq] at hold
      obtain ⟨cell, hcell, rfl⟩ := map_eq_some_iff.mp hold
      rw [h.specifier, hcell]
      dsimp only [cellAfter]
      rw [if_pos hcomplete, if_pos hcomplete]
  · rw [if_neg hkey, if_neg hkey]
    rfl

/-! ### Listens one by one -/

/-- The listens of a user up to the one that completes the challenge. -/
def untilComplete (step_count : ℤ) : ChallengeListenStreak → List EventMetadata →
    List EventMetadata
  | _, [] => []
  | streak, e :: rest =>
    if (listen e.extra.created_at streak).listen_streak ≥ step_count then [e]
    else e :: untilComplete step_count (listen e.extra.created_at streak) rest

/-- The dates of some listens. -/
def datesOf (events : List EventMetadata) : List ℤ := events.map (·.extra.created_at)

/-- What one listen does to the challenge of its user. -/
def stepListen (challenge : Challenge) (step_count : ℤ) (e : EventMetadata) :
    Option (UserChallenge × ChallengeListenStreak) → Option (UserChallenge × ChallengeListenStreak) :=
  cellAfter challenge ⟨none, 0⟩ (countStreak step_count) (listen e.extra.created_at) e

variable {old : UserChallenge} {streak : ChallengeListenStreak} {events : List EventMetadata}

theorem foldl_stepListen_complete (hcomplete : old.is_complete = true) (events : List EventMetadata) :
    events.foldl (fun cell e ↦ stepListen challenge step_count e cell) (some (old, streak)) =
      some (old, streak) := by
  induction events with
  | nil => rfl
  | cons e rest ih =>
    rw [foldl_cons, stepListen]
    dsimp only [cellAfter]
    rw [if_pos hcomplete]
    exact ih

/-- A user's listens one by one leave the row they all leave, up to the one that completes the
challenge, and the block of that one. -/
theorem foldl_stepListen {final : EventMetadata} (events : List EventMetadata) :
    ∀ {old : UserChallenge} {streak : ChallengeListenStreak}, old.is_complete = false →
      (untilComplete step_count streak events).getLast? = some final →
        events.foldl (fun cell e ↦ stepListen challenge step_count e cell) (some (old, streak)) =
          some (completedAt final.block_number
              (countStreak step_count
                (listens (datesOf (untilComplete step_count streak events)) streak) old),
            listens (datesOf (untilComplete step_count streak events)) streak) := by
  induction events with
  | nil =>
    intro old streak _ hfinal
    cases hfinal
  | cons e rest ih =>
    intro old streak hopen hfinal
    have hstep : stepListen challenge step_count e (some (old, streak)) =
        some (completedAt e.block_number
          (countStreak step_count (listen e.extra.created_at streak) old),
          listen e.extra.created_at streak) := by
      rw [stepListen]
      dsimp only [cellAfter]
      rw [if_neg (by rw [hopen]; exact Bool.false_ne_true)]
    rw [foldl_cons, hstep]
    unfold untilComplete at hfinal ⊢
    by_cases hends : (listen e.extra.created_at streak).listen_streak ≥ step_count
    · rw [if_pos hends] at hfinal ⊢
      cases hfinal
      apply foldl_stepListen_complete
      rw [completedAt_is_complete]
      exact decide_eq_true hends
    · rw [if_neg hends] at hfinal ⊢
      have hopen' : (countStreak step_count (listen e.extra.created_at streak) old).is_complete =
          false := decide_eq_false hends
      have hsame : completedAt e.block_number
          (countStreak step_count (listen e.extra.created_at streak) old) =
            countStreak step_count (listen e.extra.created_at streak) old := by
        rw [completedAt, if_neg (by rw [hopen']; exact Bool.false_ne_true)]
      rw [hsame]
      cases rest with
      | nil =>
        obtain rfl : e = final := some.inj hfinal
        exact congrArg (fun old ↦ some (old, listen e.extra.created_at streak)) hsame.symm
      | cons e' rest =>
        have hnext : untilComplete step_count (listen e.extra.created_at streak) (e' :: rest) ≠
            [] := by
          unfold untilComplete
          split <;> exact cons_ne_nil _ _
        rw [getLast?_cons_of_ne_nil hnext] at hfinal
        exact ih hopen' hfinal

theorem untilComplete_ne_nil (step_count : ℤ) (streak : ChallengeListenStreak) (h : events ≠ []) :
    untilComplete step_count streak events ≠ [] := by
  cases events with
  | nil => exact absurd rfl h
  | cons e rest =>
    unfold untilComplete
    split <;> exact cons_ne_nil _ _

/-! ### A batch against its events one by one -/

/-- A challenge that is created starts from a fresh row. -/
theorem cellAfter_none (htype : challenge.type ≠ .aggregate) (e : EventMetadata)
    (advance : ChallengeListenStreak → ChallengeListenStreak) :
    cellAfter challenge ⟨none, 0⟩ (countStreak step_count) advance e none =
      cellAfter challenge ⟨none, 0⟩ (countStreak step_count) advance e
        (some (_create_new_user_challenge challenge e.user_id (.user e.user_id), ⟨none, 0⟩)) := by
  have hopen : (_create_new_user_challenge challenge e.user_id (.user e.user_id)).is_complete =
      false := decide_eq_false htype
  dsimp only [cellAfter]
  rw [hopen, if_neg Bool.false_ne_true]

/-- One listen leaves what the listens of a user leave one by one when it stands for them, and the
batch gives the block of the listen that completes the challenge. -/
theorem cellAfter_eq_foldl_iff (hopen : old.is_complete = false) (hpos : 0 ≤ streak.listen_streak)
    (hevents : events ≠ []) (created_at : ℤ) (last : EventMetadata) :
    cellAfter challenge ⟨none, 0⟩ (countStreak step_count) (listen created_at) last
          (some (old, streak)) =
        events.foldl (fun cell e ↦ stepListen challenge step_count e cell) (some (old, streak)) ↔
      StandsFor streak.last_listen_date created_at
          (datesOf (untilComplete step_count streak events)) ∧
        ((listen created_at streak).listen_streak ≥ step_count →
          (untilComplete step_count streak events).getLast?.map (·.block_number) =
            some last.block_number) := by
  obtain ⟨final, hfinal⟩ := ne_none_iff_exists'.mp
    (getLast?_eq_none_iff.not.mpr
      (untilComplete_ne_nil step_count streak hevents))
  rw [foldl_stepListen events hopen hfinal, hfinal, ← listens_eq_listen_iff hpos]
  dsimp only [cellAfter]
  rw [if_neg (by rw [hopen]; exact Bool.false_ne_true), some.injEq, Prod.mk.injEq,
    map_some, some.injEq]
  constructor
  · rintro ⟨hchallenge, hrow⟩
    rw [← hrow, completedAt_inj] at hchallenge
    exact ⟨hrow.symm, fun hends ↦ (hchallenge (decide_eq_true hends)).symm⟩
  · rintro ⟨hrow, hblock⟩
    rw [hrow, completedAt_inj]
    exact ⟨fun hends ↦ (hblock (of_decide_eq_true hends)).symm, rfl⟩

/-- No streak is negative. -/
def StreaksNonneg (T : Tables (UserRows ChallengeListenStreak)) : Prop :=
  ∀ user_id streak, T.rows user_id = some streak → 0 ≤ streak.listen_streak

theorem streaksNonneg_processAll (htype : challenge.type ≠ .aggregate)
    (hstep : challenge.step_count = some step_count) {T : Tables (UserRows ChallengeListenStreak)}
    (hT : WithRows T) (hpos : StreaksNonneg T) (events : List EventMetadata) :
    StreaksNonneg
      (processAll challenge (listenStreakUpdater order) .digital_content_listen T events) := by
  obtain ⟨hT', hcell⟩ := listenStreak_processAll order htype hstep hT events
  have hby : ∀ metadata streak, 0 ≤ ChallengeListenStreak.listen_streak streak →
      0 ≤ (listenBy metadata streak).listen_streak := by
    intro metadata streak hnonneg
    cases metadata with
    | none => exact hnonneg
    | some metadata => exact listen_streak_nonneg hnonneg
  intro user_id streak hsome
  rw [hT'.rows_eq, hcell] at hsome
  have hrow := hT.rows_eq user_id
  obtain ⟨cell, hafter, rfl⟩ := map_eq_some_iff.mp hsome
  cases hlast : (withKey (specifierOf (listenStreakUpdater order)) (.user user_id)
      events).getLast? with
  | none =>
    rw [hlast, elim_none] at hafter
    rw [hafter] at hrow
    exact hpos user_id _ hrow
  | some last =>
    rw [hlast, elim_some] at hafter
    cases hold : cellOf T (.user user_id) with
    | none =>
      rw [hold] at hafter
      cases hafter
      exact hby _ _ (Int.le_refl 0)
    | some old =>
      obtain ⟨old, row⟩ := old
      rw [hold] at hafter hrow
      dsimp only [cellAfter] at hafter
      have hnonneg := hpos user_id row hrow
      split at hafter
      · cases hafter
        exact hnonneg
      · cases hafter
        exact hby _ _ hnonneg

/-- The listen at the place of a user's row stands for the user's own listens. -/
def ListensAgree (challenge : Challenge) (order : RowOrder) (step_count : ℤ)
    (T : Tables (UserRows ChallengeListenStreak)) (events own : List EventMetadata)
    (last : EventMetadata) : Prop :=
  let streak := (T.rows last.user_id).getD ⟨none, 0⟩
  ∀ paired, pairedListen challenge order T events last.user_id = some paired →
    StandsFor streak.last_listen_date paired.2.extra.created_at
        (datesOf (untilComplete step_count streak own)) ∧
      ((listen paired.2.extra.created_at streak).listen_streak ≥ step_count →
        (untilComplete step_count streak own).getLast?.map (·.block_number) =
          some last.block_number)

/-- A challenge that is open, or new, is left the same by a batch and by the listens of its user
exactly where the listens agree. -/
theorem listensAgree_iff (htype : challenge.type ≠ .aggregate)
    {T : Tables (UserRows ChallengeListenStreak)} (hT : WithRows T) {last : EventMetadata}
    (hlast : (withKey (specifierOf (listenStreakUpdater order)) (.user last.user_id)
      events).getLast? = some last) (hopen : old.is_complete = false)
    (hpos : 0 ≤ streak.listen_streak) (hstreak : (T.rows last.user_id).getD ⟨none, 0⟩ = streak)
    (hall : ∀ old, T.user_challenges.get? (.user last.user_id) = some old →
      old.is_complete = false) :
    cellAfter challenge ⟨none, 0⟩ (countStreak step_count)
          (listenBy (pairedListen challenge order T events last.user_id)) last (some (old, streak)) =
        (withKey (specifierOf (listenStreakUpdater order)) (.user last.user_id) events).foldl
          (fun cell e ↦ stepListen challenge step_count e cell) (some (old, streak)) ↔
      ListensAgree challenge order step_count T events
        (withKey (specifierOf (listenStreakUpdater order)) (.user last.user_id) events) last := by
  have h := listenStreakUpdater_rowed order step_count
  have hown : withKey (specifierOf (listenStreakUpdater order)) (.user last.user_id) events ≠
      [] := by
    intro hnil
    rw [hnil] at hlast
    cases hlast
  have hmem := (mem_updatedUsers .digital_content_listen h htype hT events last.user_id).mpr
    ⟨by rw [hlast]; exact some_ne_none last, hall⟩
  obtain ⟨paired, hpaired⟩ := isSome_iff_exists.mp (listenAt_isSome order
    (by rw [length_map]; exact length_updatedBy_le htype hT.under events) hmem)
  have hby : listenBy (pairedListen challenge order T events last.user_id) =
      listen paired.2.extra.created_at := by
    funext streak
    unfold pairedListen listenBy
    rw [hpaired, elim_some]
  rw [hby, cellAfter_eq_foldl_iff hopen hpos hown]
  unfold ListensAgree
  dsimp only
  rw [hstreak]
  constructor
  · intro hstands other hother
    rw [pairedListen, hpaired] at hother
    cases hother
    exact hstands
  · intro hstands
    exact hstands paired hpaired

/-- The first listen of a user without a challenge finds it open, with a fresh row. -/
theorem foldl_stepListen_none (htype : challenge.type ≠ .aggregate) {own : List EventMetadata}
    (hown : own ≠ []) {user_id : ℤ} (huser : ∀ e ∈ own, e.user_id = user_id) :
    own.foldl (fun cell e ↦ stepListen challenge step_count e cell) none =
      own.foldl (fun cell e ↦ stepListen challenge step_count e cell)
        (some (_create_new_user_challenge challenge user_id (.user user_id), ⟨none, 0⟩)) := by
  cases own with
  | nil => exact absurd rfl hown
  | cons e rest =>
    rw [foldl_cons, foldl_cons, stepListen, cellAfter_none htype, huser e mem_cons_self]

/-- A batch leaves what its listens leave one by one exactly where, for each user whose challenge is
open, the listen at the place of the user's row stands for the user's own. -/
theorem listenStreak_eq_each_iff (htype : challenge.type ≠ .aggregate)
    (hstep : challenge.step_count = some step_count) {T : Tables (UserRows ChallengeListenStreak)}
    (hT : WithRows T) (hpos : StreaksNonneg T) (events : List EventMetadata) :
    ((∀ k, (processAll challenge (listenStreakUpdater order) .digital_content_listen T
            events).user_challenges.get? k =
          (events.foldl (fun T e ↦ processAll challenge (listenStreakUpdater order)
            .digital_content_listen T [e]) T).user_challenges.get? k) ∧
        (processAll challenge (listenStreakUpdater order) .digital_content_listen T events).rows =
          (events.foldl (fun T e ↦ processAll challenge (listenStreakUpdater order)
            .digital_content_listen T [e]) T).rows) ↔
      ∀ k last, (withKey (specifierOf (listenStreakUpdater order)) k events).getLast? = some last →
        (∀ old, T.user_challenges.get? k = some old → old.is_complete = false) →
          ListensAgree challenge order step_count T events
            (withKey (specifierOf (listenStreakUpdater order)) k events) last := by
  have hinv : ∀ (T : Tables (UserRows ChallengeListenStreak)) events, WithRows T →
      WithRows (processAll challenge (listenStreakUpdater order) .digital_content_listen T
        events) := fun T events hT ↦ (listenStreak_processAll order htype hstep hT events).1
  have heach := Lib.cell_foldl (specifierOf (listenStreakUpdater order)) cellOf
    (stepListen challenge step_count) WithRows (fun T e hT ↦ hinv T [e] hT)
    (fun T e hT k ↦ cellOf_processAll_singleton htype hstep hT e k) events T hT
  rw [(hinv T events hT).same_iff (withRows_each hinv events hT)]
  refine forall_congr' fun k ↦ ?_
  rw [(listenStreak_processAll order htype hstep hT events).2, heach]
  have h := listenStreakUpdater_rowed order step_count
  cases hlast : (withKey (specifierOf (listenStreakUpdater order)) k events).getLast? with
  | none =>
    rw [getLast?_eq_none_iff.mp hlast]
    exact iff_of_true rfl fun _ hsome ↦ nomatch hsome
  | some last =>
    obtain rfl := user_of_getLast? h hlast
    have hown : withKey (specifierOf (listenStreakUpdater order)) (.user last.user_id) events ≠
        [] := by
      intro hnil
      rw [hnil] at hlast
      cases hlast
    have hrow := hT.rows_eq last.user_id
    have hget := hT.get?_eq (.user last.user_id)
    rw [elim_some]
    cases hcell : cellOf T (.user last.user_id) with
    | none =>
      rw [hcell] at hrow hget
      have hall := open_of_none hget
      have hopen : (_create_new_user_challenge challenge last.user_id
          (.user last.user_id)).is_complete = false := decide_eq_false htype
      have hstreak : (T.rows last.user_id).getD ⟨none, 0⟩ = ⟨none, 0⟩ := by
        rw [hrow]
        rfl
      rw [cellAfter_none htype, foldl_stepListen_none htype hown fun e he ↦ ?_,
        listensAgree_iff htype hT hlast hopen (Int.le_refl 0) hstreak hall]
      · constructor
        · rintro hagree other hother -
          cases hother
          exact hagree
        · intro hagree
          exact hagree last rfl hall
      · rw [← Specifier.user.injEq, ← h.specifier]
        exact (Lib.mem_withKey.mp he).2
    | some cell =>
      obtain ⟨old, streak⟩ := cell
      rw [hcell] at hrow hget
      by_cases hcomplete : old.is_complete = true
      · rw [foldl_stepListen_complete hcomplete]
        dsimp only [cellAfter]
        rw [if_pos hcomplete]
        refine iff_of_true rfl fun other _ hall ↦ ?_
        rw [hall old hget] at hcomplete
        cases hcomplete
      · rw [Bool.not_eq_true] at hcomplete
        have hall := open_of_some hget hcomplete
        rw [listensAgree_iff htype hT hlast hcomplete (hpos _ _ hrow) (by rw [hrow]; rfl) hall]
        constructor
        · rintro hagree other hother -
          cases hother
          exact hagree
        · intro hagree
          exact hagree last rfl hall

end Batch

end Challenges

end ColivingSpec.Discovery
