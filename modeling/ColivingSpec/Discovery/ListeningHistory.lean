import ColivingSpec.Lib.NewestKeys
import ColivingSpec.Lib.Replay
import Mathlib.Data.List.Dedup

/-!
# The listening history

A run of the task merges the next plays, in the order of their numbers, into the history of each user
who has one among them, and moves the checkpoint to the last. The history is that of the newest
distinct contents as long as no play of a content is older than an earlier one by the same user.
-/

namespace ColivingSpec.Discovery

open Lib List

namespace ListeningHistory

/-- A row of `plays`, as far as the task reads it. -/
structure Play where
  id : ℕ
  userId : Option ℕ
  playItemId : ℕ
  createdAt : ℕ
  deriving DecidableEq, Repr

/-- `ListenHistory.to_dict`: a content and a time, whose text sorts as the time does. -/
abbrev Listen := ℕ × ℕ

/-- The listen of a play. -/
def Play.listen (play : Play) : Listen := (play.playItemId, play.createdAt)

/-- `index_user_listening_history.py:19`. -/
def batchSize : ℕ := 100000

/-- The default of `limit` in `sort_listening_history`. -/
def historyLimit : ℕ := 1000

/-- The plays in the order of their numbers, the histories by user, and the checkpoint. -/
structure Tables where
  plays : List Play
  listeningHistory : Dict ℕ (List Listen)
  checkpoint : ℕ

namespace Tables

variable (t : Tables) (user : ℕ)

/-- The next plays of users who are known (`index_user_listening_history.py:39–45`). -/
def newPlays : List Play :=
  (t.plays.filter fun play ↦ decide (t.checkpoint < play.id) && play.userId.isSome).take batchSize

/-- The listens of a user among the new plays, the latest first
(`index_user_listening_history.py:67–77`). -/
def newListens (newPlays : List Play) (user : ℕ) : List Listen :=
  (newPlays.reverse.filter fun play ↦ decide (play.userId = some user)).map Play.listen

/-- The history with the new listens, which is empty before for a user without a row
(`index_user_listening_history.py:80–99`). -/
def merged (newPlays : List Play) (user : ℕ) : List Listen :=
  newestEntries historyLimit (recorded
    (((t.listeningHistory.get? user).getD []).reverse ++ (newListens newPlays user).reverse))

/-- `index_user_listening_history.py:31–108`. -/
def index : Tables :=
  match t.newPlays.getLast? with
  | none => t
  | some last =>
    let users := (t.newPlays.filterMap Play.userId).dedup
    { t with
      listeningHistory := users.foldl (fun d user ↦ d.set user (t.merged t.newPlays user))
        t.listeningHistory
      checkpoint := last.id }

/-- The plays up to the checkpoint, by one user. -/
def indexed : List Play :=
  t.plays.filter fun play ↦ decide (play.id ≤ t.checkpoint) && decide (play.userId = some user)

/-- All plays by one user. -/
def playsBy : List Play :=
  t.plays.filter fun play ↦ decide (play.userId = some user)

/-- The user's history is that of the newest distinct contents among the indexed plays; without one
there is no row. -/
def HoldsNewest : Prop :=
  match t.listeningHistory.get? user with
  | none => t.indexed user = []
  | some history => t.indexed user ≠ [] ∧
      Newest historyLimit ((t.indexed user).map Play.listen) history

end Tables

/-- What happens: a play is added, or the task runs. -/
inductive Event where
  | adds (play : Play)
  | runs
  deriving Repr

/-- One event; numbers only grow. -/
def step (t : Tables) : Event → Except String Tables
  | .adds play =>
    if 0 < play.id ∧ ∀ earlier ∈ t.plays, earlier.id < play.id then
      .ok { t with plays := t.plays ++ [play] }
    else .error "not the next play"
  | .runs => .ok t.index

/-- No plays, no histories. -/
def start : Tables := ⟨[], Dict.empty, 0⟩

/-- The tables after a run of events. -/
def tables (events : List Event) : Tables := replay step start events

/-- A play is not older than an earlier one of the same content by the same user. -/
def NotOlder (t : Tables) : Event → Prop
  | .adds play => ∀ user, play.userId = some user → ∀ earlier ∈ t.playsBy user,
      earlier.playItemId = play.playItemId → earlier.createdAt ≤ play.createdAt
  | .runs => True

/-- What holds between the events of a run. -/
structure Consistent (t : Tables) : Prop where
  ordered : t.plays.Pairwise fun play play' ↦ play.id < play'.id
  checkpoint : t.checkpoint = 0 ∨ ∃ play ∈ t.plays, play.id = t.checkpoint
  rise : ∀ user, TimesRise ((t.playsBy user).map Play.listen)
  newest : ∀ user, t.HoldsNewest user

/-! ### One run -/

/-- The first elements of a list that rises are those up to the last of them. -/
theorem take_eq_filter {plays : List Play}
    (hordered : plays.Pairwise fun play play' ↦ play.id < play'.id) {n : ℕ} {last : Play}
    (hlast : (plays.take n).getLast? = some last) :
    plays.take n = plays.filter fun play ↦ decide (play.id ≤ last.id) := by
  obtain ⟨front, hfront⟩ := getLast?_eq_some_iff.mp hlast
  conv_rhs => rw [← take_append_drop n plays]
  rw [← take_append_drop n plays] at hordered
  obtain ⟨htake, -, hacross⟩ := pairwise_append.mp hordered
  have hin : (plays.take n).filter (fun play ↦ decide (play.id ≤ last.id)) = plays.take n := by
    rw [filter_eq_self]
    intro play hplay
    rw [hfront] at hplay htake
    rcases mem_append.mp hplay with hfirst | hfirst
    · have hlt := (pairwise_append.mp htake).2.2 play hfirst last (mem_singleton_self _)
      exact decide_eq_true hlt.le
    · rw [mem_singleton.mp hfirst]
      exact decide_eq_true (Nat.le_refl _)
  have hout : (plays.drop n).filter (fun play ↦ decide (play.id ≤ last.id)) = [] := by
    rw [filter_eq_nil_iff]
    intro play hplay hle
    have hlt := hacross last (mem_of_getLast? hlast) play hplay
    have hle' := of_decide_eq_true hle
    omega
  rw [filter_append, hin, hout, append_nil]

/-- What lies at or below a higher mark is what lies at or below a lower one, and what lies
between. -/
theorem filter_le_split {plays : List Play}
    (hordered : plays.Pairwise fun play play' ↦ play.id < play'.id) {low high : ℕ}
    (hle : low ≤ high) :
    plays.filter (fun play ↦ decide (play.id ≤ high)) =
      plays.filter (fun play ↦ decide (play.id ≤ low)) ++
        plays.filter fun play ↦ decide (low < play.id) && decide (play.id ≤ high) := by
  induction plays with
  | nil => rfl
  | cons play plays ih =>
    obtain ⟨hfirst, hrest⟩ := pairwise_cons.mp hordered
    rw [filter_cons, filter_cons, filter_cons, ih hrest]
    by_cases hlow : play.id ≤ low
    · have hhigh : play.id ≤ high := hlow.trans hle
      have hnot : ¬ low < play.id := by omega
      simp [hlow, hhigh, hnot]
    · have hnone : plays.filter (fun play ↦ decide (play.id ≤ low)) = [] := by
        rw [filter_eq_nil_iff]
        intro other hother hother'
        have hlt := hfirst other hother
        have hle' := of_decide_eq_true hother'
        omega
      have hbetween : low < play.id := by omega
      rw [hnone]
      by_cases hhigh : play.id ≤ high
      · simp [hlow, hhigh, hbetween]
      · simp [hlow, hhigh]

namespace Tables

variable {t : Tables} {last : Play}

/-- The plays of a user among the new ones. -/
theorem filter_newPlays (hordered : t.plays.Pairwise fun play play' ↦ play.id < play'.id)
    (hlast : t.newPlays.getLast? = some last) (user : ℕ) :
    t.newPlays.filter (fun play ↦ decide (play.userId = some user)) =
      (t.playsBy user).filter fun play ↦
        decide (t.checkpoint < play.id) && decide (play.id ≤ last.id) := by
  have htake := take_eq_filter (hordered.sublist filter_sublist) hlast
  have hnew : t.newPlays = _ := htake
  rw [hnew, playsBy, filter_filter, filter_filter, filter_filter]
  apply filter_congr
  intro play _
  by_cases huser : play.userId = some user
  · simp [huser, Bool.and_comm]
  · simp [huser]

/-- The last new play lies behind the checkpoint. -/
theorem checkpoint_lt (hlast : t.newPlays.getLast? = some last) :
    last ∈ t.plays ∧ t.checkpoint < last.id := by
  have hmem := mem_of_mem_take (mem_of_getLast? hlast)
  obtain ⟨hin, hbehind⟩ := mem_filter.mp hmem
  rw [Bool.and_eq_true] at hbehind
  exact ⟨hin, of_decide_eq_true hbehind.1⟩

theorem index_eq (hlast : t.newPlays.getLast? = some last) :
    t.index = { t with
      listeningHistory := (t.newPlays.filterMap Play.userId).dedup.foldl
        (fun d user ↦ d.set user (t.merged t.newPlays user)) t.listeningHistory
      checkpoint := last.id } := by
  rw [index, hlast]

/-- A run indexes the new plays of a user after those before. -/
theorem indexed_index (hordered : t.plays.Pairwise fun play play' ↦ play.id < play'.id)
    (hlast : t.newPlays.getLast? = some last) (user : ℕ) :
    t.index.indexed user = t.indexed user ++
      t.newPlays.filter fun play ↦ decide (play.userId = some user) := by
  have hsplit := filter_le_split (hordered.sublist (filter_sublist
    (p := fun play ↦ decide (play.userId = some user)))) (checkpoint_lt hlast).2.le
  rw [filter_newPlays hordered hlast, index_eq hlast]
  show t.plays.filter (fun play ↦ decide (play.id ≤ last.id) && decide (play.userId = some user)) =
    t.plays.filter (fun play ↦ decide (play.id ≤ t.checkpoint) &&
      decide (play.userId = some user)) ++ _
  rw [← filter_filter, ← filter_filter]
  exact hsplit

/-- What a run leaves of the history of a user. -/
theorem get?_index (hlast : t.newPlays.getLast? = some last) (user : ℕ) :
    t.index.listeningHistory.get? user =
      if user ∈ t.newPlays.filterMap Play.userId then some (t.merged t.newPlays user)
      else t.listeningHistory.get? user := by
  rw [index_eq hlast]
  by_cases hin : user ∈ t.newPlays.filterMap Play.userId
  · rw [if_pos hin]
    exact get?_foldl_set_of_mem (fun user ↦ user) _ (mem_dedup.mpr hin)
      (fun _ _ heq ↦ heq) t.listeningHistory
  · rw [if_neg hin]
    apply get?_foldl_set_of_not_mem (fun user ↦ user)
    rintro other hother rfl
    exact hin (mem_dedup.mp hother)

/-- A run keeps the history of a user that of the newest distinct contents. -/
theorem HoldsNewest.index (hordered : t.plays.Pairwise fun play play' ↦ play.id < play'.id)
    (hlast : t.newPlays.getLast? = some last) {user : ℕ}
    (hrise : TimesRise ((t.playsBy user).map Play.listen)) (h : t.HoldsNewest user) :
    t.index.HoldsNewest user := by
  have hindexed := indexed_index hordered hlast user
  have hsublist : (t.index.indexed user).Sublist (t.playsBy user) := by
    rw [index_eq hlast]
    show (t.plays.filter fun play ↦ decide (play.id ≤ last.id) &&
      decide (play.userId = some user)).Sublist _
    rw [← filter_filter]
    exact filter_sublist
  unfold HoldsNewest
  rw [get?_index hlast]
  by_cases hin : user ∈ t.newPlays.filterMap Play.userId
  · rw [if_pos hin]
    have hbefore : Newest historyLimit ((t.indexed user).map Play.listen)
        ((t.listeningHistory.get? user).getD []) := by
      unfold HoldsNewest at h
      cases hget : t.listeningHistory.get? user with
      | none =>
        rw [hget] at h
        have hnil : t.indexed user = [] := h
        rw [hnil]
        exact newest_nil historyLimit
      | some history =>
        rw [hget] at h
        exact h.2
    have hnew : (newListens t.newPlays user).reverse =
        (t.newPlays.filter fun play ↦ decide (play.userId = some user)).map Play.listen := by
      rw [newListens, ← map_reverse, ← filter_reverse, reverse_reverse]
    rw [hindexed] at hsublist
    have hrise' := hrise.sublist (hsublist.map Play.listen)
    rw [map_append] at hrise'
    obtain ⟨play, hplay, huser⟩ := mem_filterMap.mp hin
    rw [hindexed, map_append, merged, hnew]
    refine ⟨?_, hbefore.merge hrise'⟩
    exact append_ne_nil_of_right_ne_nil _
      (ne_nil_of_mem (mem_filter.mpr ⟨hplay, decide_eq_true huser⟩))
  · rw [if_neg hin]
    have hnone : t.newPlays.filter (fun play ↦ decide (play.userId = some user)) = [] := by
      rw [filter_eq_nil_iff]
      intro play hplay huser
      exact hin (mem_filterMap.mpr ⟨play, hplay, of_decide_eq_true huser⟩)
    rw [hindexed, hnone, append_nil]
    exact h

end Tables

/-! ### Any run of events -/

theorem consistent_start : Consistent start where
  ordered := List.Pairwise.nil
  checkpoint := .inl rfl
  rise _ := List.Pairwise.nil
  newest _ := rfl

/-- A play that is added lies behind the checkpoint and changes no history. -/
theorem Consistent.adds {t : Tables} (h : Consistent t) {play : Play}
    (hnotOlder : NotOlder t (.adds play)) (hpos : 0 < play.id)
    (hlast : ∀ earlier ∈ t.plays, earlier.id < play.id) :
    Consistent { t with plays := t.plays ++ [play] } := by
  have hbehind : t.checkpoint < play.id := by
    rcases h.checkpoint with hzero | ⟨earlier, hearlier, hsame⟩
    · omega
    · rw [← hsame]
      exact hlast earlier hearlier
  refine ⟨?_, ?_, ?_, ?_⟩
  · apply pairwise_append.mpr
    refine ⟨h.ordered, pairwise_singleton _ _, ?_⟩
    intro earlier hearlier play' hplay'
    rw [mem_singleton.mp hplay']
    exact hlast earlier hearlier
  · exact h.checkpoint.imp_right fun ⟨earlier, hearlier, hsame⟩ ↦
      ⟨earlier, mem_append_left _ hearlier, hsame⟩
  · intro user
    show TimesRise (((t.plays ++ [play]).filter _).map Play.listen)
    rw [filter_append, filter_singleton]
    by_cases huser : play.userId = some user
    · rw [decide_eq_true huser, map_append]
      apply pairwise_append.mpr
      refine ⟨h.rise user, pairwise_singleton _ _, ?_⟩
      intro listen hlisten listen' hlisten' hsame
      obtain ⟨earlier, hearlier, rfl⟩ := mem_map.mp hlisten
      obtain rfl : listen' = play.listen := mem_singleton.mp hlisten'
      exact hnotOlder user huser earlier hearlier hsame
    · rw [decide_eq_false huser]
      show TimesRise ((t.playsBy user ++ []).map Play.listen)
      rw [append_nil]
      exact h.rise user
  · intro user
    have hindexed : Tables.indexed { t with plays := t.plays ++ [play] } user =
        t.indexed user := by
      have hnot : ¬ play.id ≤ t.checkpoint := by omega
      show (t.plays ++ [play]).filter _ = t.plays.filter _
      rw [filter_append, filter_singleton, decide_eq_false hnot]
      exact append_nil _
    have hnewest := h.newest user
    unfold Tables.HoldsNewest at hnewest ⊢
    rw [hindexed]
    exact hnewest

theorem Consistent.index {t : Tables} (h : Consistent t) : Consistent t.index := by
  cases hlast : t.newPlays.getLast? with
  | none =>
    rw [Tables.index, hlast]
    exact h
  | some last =>
    have heq := Tables.index_eq hlast
    refine ⟨?_, ?_, ?_, fun user ↦ (h.newest user).index h.ordered hlast (h.rise user)⟩
    · rw [heq]
      exact h.ordered
    · rw [heq]
      exact .inr ⟨last, (Tables.checkpoint_lt hlast).1, rfl⟩
    · intro user
      rw [heq]
      exact h.rise user

theorem Consistent.step {t t' : Tables} {e : Event} (h : Consistent t) (hnotOlder : NotOlder t e)
    (hstep : step t e = .ok t') : Consistent t' := by
  cases e with
  | adds play =>
    dsimp only [ListeningHistory.step] at hstep
    split at hstep
    case isTrue hnext =>
      cases hstep
      exact h.adds hnotOlder hnext.1 hnext.2
    case isFalse => cases hstep
  | runs =>
    cases hstep
    exact h.index

theorem consistent_tables {events : List Event} (h : Along step NotOlder start events) :
    Consistent (tables events) :=
  replay_invariant Consistent (fun _ _ _ hs hg hstep ↦ hs.step hg hstep) consistent_start h

/-- When a run finds nothing new, all plays of the user are indexed. -/
theorem indexed_eq_playsBy {t : Tables} (h : t.newPlays = []) (user : ℕ) :
    t.indexed user = t.playsBy user := by
  have hnone : t.plays.filter (fun play ↦
      decide (t.checkpoint < play.id) && play.userId.isSome) = [] :=
    (take_eq_nil_iff.mp h).resolve_left (by decide)
  apply filter_congr
  intro play hplay
  have hnot := filter_eq_nil_iff.mp hnone play hplay
  by_cases huser : play.userId = some user
  · have hle : play.id ≤ t.checkpoint := by simpa [huser] using hnot
    simp [huser, hle]
  · simp [huser]

/-- Two histories of the same plays are the same, where different contents have different times. -/
theorem Tables.HoldsNewest.unique {t t' : Tables} {user : ℕ} (h : t.HoldsNewest user)
    (h' : t'.HoldsNewest user) (hsame : t.indexed user = t'.indexed user)
    (hdiffer : ∀ play ∈ t.indexed user, ∀ play' ∈ t.indexed user,
      play.createdAt = play'.createdAt → play.playItemId = play'.playItemId) :
    t.listeningHistory.get? user = t'.listeningHistory.get? user := by
  unfold HoldsNewest at h h'
  rw [← hsame] at h'
  cases hget : t.listeningHistory.get? user with
  | none =>
    rw [hget] at h
    have hnil : t.indexed user = [] := h
    cases hget' : t'.listeningHistory.get? user with
    | none => rfl
    | some history' =>
      rw [hget'] at h'
      exact absurd hnil h'.1
  | some history =>
    rw [hget] at h
    cases hget' : t'.listeningHistory.get? user with
    | none =>
      rw [hget'] at h'
      exact absurd h' h.1
    | some history' =>
      rw [hget'] at h'
      congr 1
      refine h.2.unique h'.2 ?_
      intro listen hlisten listen' hlisten' htime
      obtain ⟨play, hplay, rfl⟩ := mem_map.mp hlisten
      obtain ⟨play', hplay', rfl⟩ := mem_map.mp hlisten'
      exact hdiffer play hplay play' hplay' htime

end ListeningHistory

open ListeningHistory in
/-- In a run in which no play is older than an earlier one of the same content by the same user, each
history is at all times that of the newest distinct contents among the indexed plays, which are all
plays when a run finds nothing new; and it does not depend on when the task ran, as long as different
contents have different times. -/
theorem listeningHistory_newest (events : List ListeningHistory.Event)
    (h : Along ListeningHistory.step NotOlder ListeningHistory.start events) :
    (∀ user, (tables events).HoldsNewest user) ∧
      ((tables events).newPlays = [] →
        ∀ user, (tables events).indexed user = (tables events).playsBy user) ∧
      ∀ events', Along ListeningHistory.step NotOlder ListeningHistory.start events' → ∀ user,
        (tables events).indexed user = (tables events').indexed user →
        (∀ play ∈ (tables events).indexed user, ∀ play' ∈ (tables events).indexed user,
          play.createdAt = play'.createdAt → play.playItemId = play'.playItemId) →
        (tables events).listeningHistory.get? user =
          (tables events').listeningHistory.get? user := by
  refine ⟨(consistent_tables h).newest, indexed_eq_playsBy, ?_⟩
  intro events' h' user hsame hdiffer
  exact ((consistent_tables h).newest user).unique ((consistent_tables h').newest user) hsame hdiffer

open ListeningHistory in
/-- A play, a run, and a later play of the same content: the history has it once, with its later
time. -/
theorem listeningHistory_newest_again :
    (tables [.adds ⟨1, some 7, 3, 10⟩, .runs, .adds ⟨2, some 7, 3, 20⟩, .runs]).HoldsNewest 7 :=
  (listeningHistory_newest _ (by
    refine ⟨?_, trivial, ?_, trivial, trivial⟩
    · intro user _ earlier hearlier
      cases hearlier
    · intro user huser earlier hearlier hitem
      cases huser
      have hall : ∀ earlier ∈ (tables [.adds ⟨1, some 7, 3, 10⟩, .runs]).playsBy 7,
          earlier.createdAt ≤ 20 := by decide +kernel
      exact hall earlier hearlier)).1 7

open ListeningHistory in
/-- Two plays of one content by one user, of which the second is older. -/
def olderReplay : List ListeningHistory.Event := [.adds ⟨1, some 7, 3, 20⟩, .adds ⟨2, some 7, 3, 10⟩, .runs]

open ListeningHistory in
/-- The history has the time of the older one. -/
theorem not_holdsNewest_olderReplay :
    (tables olderReplay).listeningHistory.get? 7 = some [(3, 10)] ∧
      ¬ (tables olderReplay).HoldsNewest 7 := by
  have hget : (tables olderReplay).listeningHistory.get? 7 = some [(3, 10)] := by decide +kernel
  refine ⟨hget, ?_⟩
  unfold Tables.HoldsNewest
  rw [hget]
  rintro ⟨-, hnewest⟩
  have hlater : ((3, 20) : Listen) ∈ ((tables olderReplay).indexed 7).map Play.listen := by
    decide +kernel
  exact absurd ((hnewest.latest (3, 10) List.mem_cons_self).2 (3, 20) hlater rfl) (by decide)

end ColivingSpec.Discovery
