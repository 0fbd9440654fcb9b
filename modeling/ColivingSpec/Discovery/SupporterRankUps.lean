import ColivingSpec.Discovery.AggregateTips
import Mathlib.Data.List.Sort

/-!
# Supporters and their ranks

What a run of the task of `index_aggregate_tips.py` does beside the aggregate of the tips: the
counts of supporters in `aggregate_user`, and a `SupporterRankUp` for each sender that rose on
the leaderboard of a receiver. The rows of a query come in any order.
-/

namespace ColivingSpec.Discovery.AggregateTips

open Lib List Option

abbrev Aggregate := Dict (ℕ × ℕ) ℤ

/-- `LEADERBOARD_SIZE`: line 25. -/
def LEADERBOARD_SIZE : ℕ := 5

/-- A row of the rank query. -/
structure AggregateTipRank where
  rank : ℕ
  senderUserId : ℕ
  receiverUserId : ℕ
  amount : ℤ
  deriving DecidableEq

/-- The key of the row of the aggregate that it is of. -/
def AggregateTipRank.pair (row : AggregateTipRank) : ℕ × ℕ :=
  (row.senderUserId, row.receiverUserId)

variable (aggregate : Aggregate)

/-- `RANK() OVER (PARTITION BY receiver_user_id ORDER BY amount DESC)`. -/
def rankOf (pair : ℕ × ℕ) (amount : ℤ) : ℕ :=
  (aggregate.items.filter fun row ↦ row.1.2 = pair.2 ∧ amount < row.2).length + 1

/-- `GET_AGGREGATE_USER_TIPS_RANKS_QUERY`: lines 110–136. -/
def ranksQuery (recent : List UserTip) (aggregate : Aggregate) : List AggregateTipRank :=
  ((aggregate.items.filter fun row ↦ row.1.2 ∈ recent.map UserTip.receiverUserId).map fun row ↦
    ⟨rankOf aggregate row.1 row.2, row.1.1, row.1.2, row.2⟩).filter (·.rank ≤ LEADERBOARD_SIZE)

/-- `itertools.groupby` by the receiver. -/
def groupby : List AggregateTipRank → List (ℕ × List AggregateTipRank)
  | [] => []
  | row :: rest =>
    match groupby rest with
    | [] => [(row.receiverUserId, [row])]
    | (key, subiter) :: groups =>
      if key = row.receiverUserId then (key, row :: subiter) :: groups
      else (row.receiverUserId, [row]) :: (key, subiter) :: groups

/-- `grouped_ranks_before`: lines 168–173. -/
def groupedRanks (ranksBefore : List AggregateTipRank) : NestedDict ℕ ℕ ℕ :=
  (groupby ranksBefore).foldl (fun d group ↦ d.set group.1
    (group.2.foldl (fun d row ↦ d.set row.senderUserId row.rank) Dict.empty)) Dict.empty

/-- A row of `supporter_rank_ups`. -/
structure SupporterRankUp where
  slot : ℕ
  senderUserId : ℕ
  receiverUserId : ℕ
  rank : ℕ
  deriving DecidableEq

/-- `index_rank_ups`: lines 161–192. -/
def indexRankUps (ranksBefore ranksAfter : List AggregateTipRank) (slot : ℕ) :
    List SupporterRankUp :=
  (ranksAfter.filter fun row ↦
    match (groupedRanks ranksBefore).find? row.receiverUserId row.senderUserId with
    | none => true
    | some rank => row.rank < rank).map fun row ↦
      ⟨slot, row.senderUserId, row.receiverUserId, row.rank⟩

/-- The rows of the aggregate with a user at one end. -/
def countOf (endOf : ℕ × ℕ → ℕ) (user : ℕ) : ℕ :=
  (aggregate.items.filter fun row ↦ endOf row.1 = user).length

/-- The columns of `aggregate_user` that the statement updates. -/
structure AggregateUser where
  supporterCount : ℕ
  supportingCount : ℕ
  deriving DecidableEq

/-- The select list of lines 88–99. Columns are matched by position: what is named
`supporting_count` there goes to `supporter_count`, and the other way round. -/
def selectCounts (user : ℕ) : AggregateUser :=
  let totalSupporting := countOf aggregate Prod.snd user
  let totalSupporters := countOf aggregate Prod.fst user
  ⟨totalSupporting, totalSupporters⟩

/-- The users of some tips. -/
def userIds (recent : List UserTip) : List ℕ :=
  recent.map UserTip.senderUserId ++ recent.map UserTip.receiverUserId

/-- The statement of lines 55–107, after that of `addTips`. -/
def updateCounts (recent : List UserTip) (aggregate : Aggregate)
    (aggregateUser : Dict ℕ AggregateUser) : Dict ℕ AggregateUser :=
  (userIds recent).foldl (fun d user ↦ d.set user (selectCounts aggregate user)) aggregateUser

/-- An order for the rows of a query. -/
def RowOrder := { order : List AggregateTipRank → List AggregateTipRank // ∀ l, (order l).Perm l }

/-- The tables, with the checkpoint of the task. -/
structure TipTables where
  userTips : List UserTip
  aggregateUserTips : Aggregate
  aggregateUser : Dict ℕ AggregateUser
  checkpoint : ℕ
  supporterRankUps : List SupporterRankUp

/-- Tips that are committed before a run, and the order of the rows of its two rank queries. -/
structure TaskRun where
  tips : List UserTip
  before : RowOrder
  after : RowOrder

section Run

variable (t : TipTables) (run : TaskRun)

/-- The tips that the run finds. -/
def found : List UserTip := t.userTips ++ run.tips

/-- `func.max(UserTip.slot)`. -/
def maxSlot : ℕ := ((found t run).map UserTip.slot).max?.getD 0

/-- The tips of the run. -/
def recent : List UserTip := between t.checkpoint (maxSlot t run) (found t run)

/-- The aggregate after the run. -/
def aggregateAfter : Aggregate := addTips (recent t run) t.aggregateUserTips

/-- The rows of the first rank query. -/
def ranksBefore : List AggregateTipRank :=
  run.before.1 (ranksQuery (recent t run) t.aggregateUserTips)

/-- The rows of the second rank query. -/
def ranksAfter : List AggregateTipRank :=
  run.after.1 (ranksQuery (recent t run) (aggregateAfter t run))

/-- The rows that the run adds. -/
def added : List SupporterRankUp :=
  if t.checkpoint = maxSlot t run then []
  else indexRankUps (ranksBefore t run) (ranksAfter t run) (maxSlot t run)

/-- `_update_aggregate_tips`: lines 195–218. -/
def updateAggregateTips : TipTables :=
  if t.checkpoint = maxSlot t run then { t with userTips := found t run }
  else {
    userTips := found t run
    aggregateUserTips := aggregateAfter t run
    aggregateUser := updateCounts (recent t run) (aggregateAfter t run) t.aggregateUser
    checkpoint := maxSlot t run
    supporterRankUps := t.supporterRankUps ++ added t run }

/-- One run; it does not fail. -/
def runTask : Except String TipTables := .ok (updateAggregateTips t run)

/-- The run sees all tips up to the highest slot: none is committed at or below the checkpoint. -/
def SeesAll : Prop := ∀ tip ∈ run.tips, t.checkpoint < tip.slot

/-! ### What a run should do -/

/-- The rank of a pair on the leaderboard of its receiver, if it is on it. -/
def leaderboardRank (aggregate : Aggregate) (pair : ℕ × ℕ) : Option ℕ :=
  ((aggregate.get? pair).map (rankOf aggregate pair)).filter (· ≤ LEADERBOARD_SIZE)

/-- The rank ups added are those of the senders that came onto the leaderboard or rose on it. -/
structure RankUpsExact : Prop where
  nodup : (added t run).Nodup
  mem_iff : ∀ up, up ∈ added t run ↔ up.slot = maxSlot t run ∧
    leaderboardRank (aggregateAfter t run) (up.senderUserId, up.receiverUserId) = some up.rank ∧
    ∀ rank, leaderboardRank t.aggregateUserTips (up.senderUserId, up.receiverUserId) = some rank →
      up.rank < rank

/-- All users of tips have the number of rows with them as the receiver, and as the sender. -/
def CountsExact (t : TipTables) : Prop :=
  ∀ user ∈ userIds t.userTips, ∃ counts, t.aggregateUser.get? user = some counts ∧
    counts.supporterCount = countOf t.aggregateUserTips Prod.snd user ∧
    counts.supportingCount = countOf t.aggregateUserTips Prod.fst user

/-- The last rows in a row of a receiver. -/
def lastGroup (rows : List AggregateTipRank) (receiver : ℕ) : List AggregateTipRank :=
  ((withKey Prod.fst receiver (groupby rows)).getLast?.map Prod.snd).getD []

/-- A row of a sender that did not rise, and is still on the leaderboard, is among the last rows in
a row of its receiver. -/
def InLastGroups : Prop :=
  ∀ row ∈ ranksBefore t run, ∀ rank,
    leaderboardRank (aggregateAfter t run) row.pair = some rank → row.rank ≤ rank →
      row ∈ lastGroup (ranksBefore t run) row.receiverUserId

end Run

/-! ### The rows of the queries -/

variable {t : TipTables} {run : TaskRun} {aggregate : Aggregate} {rows : List AggregateTipRank}
  {row : AggregateTipRank} {pair : ℕ × ℕ} {rank : ℕ}

/-- What is counted in two aggregates that have the rows counted in common. -/
theorem length_filter_eq {aggregate' : Aggregate} {p : (ℕ × ℕ) × ℤ → Bool}
    (h : ∀ row, p row = true → aggregate.get? row.1 = aggregate'.get? row.1) :
    (aggregate.items.filter p).length = (aggregate'.items.filter p).length := by
  have hnodup : ∀ d : Aggregate, (d.items.filter p).Nodup := fun d ↦ d.nodup.of_map.filter p
  refine ((perm_ext_iff_of_nodup (hnodup _) (hnodup _)).mpr fun row ↦ ?_).length_eq
  rw [mem_filter, mem_filter, Dict.mem_items, Dict.mem_items]
  exact and_congr_left fun hp ↦ by rw [h row hp]

theorem leaderboardRank_eq_some : leaderboardRank aggregate pair = some rank ↔
    ∃ amount, aggregate.get? pair = some amount ∧ rankOf aggregate pair amount = rank ∧
      rank ≤ LEADERBOARD_SIZE := by
  simp only [leaderboardRank, filter_eq_some_iff, map_eq_some_iff, decide_eq_true_eq]
  constructor
  · rintro ⟨⟨amount, hget, hrank⟩, hle⟩
    exact ⟨amount, hget, hrank, hle⟩
  · rintro ⟨amount, hget, hrank, hle⟩
    exact ⟨⟨amount, hget, hrank⟩, hle⟩

/-- The rows of a rank query are the pairs on the leaderboards of the receivers of recent tips. -/
theorem mem_ranksQuery {recent : List UserTip} : row ∈ ranksQuery recent aggregate ↔
    row.receiverUserId ∈ recent.map UserTip.receiverUserId ∧
      aggregate.get? row.pair = some row.amount ∧ rankOf aggregate row.pair row.amount = row.rank ∧
      row.rank ≤ LEADERBOARD_SIZE := by
  rw [ranksQuery, mem_filter, List.mem_map, decide_eq_true_eq]
  constructor
  · rintro ⟨⟨entry, hentry, rfl⟩, hle⟩
    obtain ⟨hmem, hreceiver⟩ := mem_filter.mp hentry
    exact ⟨of_decide_eq_true hreceiver, (aggregate.mem_items _ _).mp hmem, rfl, hle⟩
  · rintro ⟨hreceiver, hget, hrank, hle⟩
    refine ⟨⟨(row.pair, row.amount), mem_filter.mpr ⟨?_, decide_eq_true hreceiver⟩, ?_⟩, hle⟩
    · exact (aggregate.mem_items _ _).mpr hget
    · rw [hrank]
      rfl

theorem exists_mem_ranksQuery {recent : List UserTip}
    (hreceiver : pair.2 ∈ recent.map UserTip.receiverUserId)
    (h : leaderboardRank aggregate pair = some rank) :
    ∃ row ∈ ranksQuery recent aggregate, row.pair = pair ∧ row.rank = rank := by
  obtain ⟨amount, hget, hrank, hle⟩ := leaderboardRank_eq_some.mp h
  exact ⟨⟨rank, pair.1, pair.2, amount⟩, mem_ranksQuery.mpr ⟨hreceiver, hget, hrank, hle⟩, rfl, rfl⟩

theorem leaderboardRank_of_mem {recent : List UserTip} (h : row ∈ ranksQuery recent aggregate) :
    leaderboardRank aggregate row.pair = some row.rank := by
  obtain ⟨-, hget, hrank, hle⟩ := mem_ranksQuery.mp h
  exact leaderboardRank_eq_some.mpr ⟨row.amount, hget, hrank, hle⟩

/-- A pair has one row. -/
theorem eq_of_mem_ranksQuery {recent : List UserTip} {row' : AggregateTipRank}
    (h : row ∈ ranksQuery recent aggregate) (h' : row' ∈ ranksQuery recent aggregate)
    (hpair : row.pair = row'.pair) : row = row' := by
  obtain ⟨-, hget, hrank, -⟩ := mem_ranksQuery.mp h
  obtain ⟨-, hget', hrank', -⟩ := mem_ranksQuery.mp h'
  rw [hpair] at hget hrank
  have hamount : row.amount = row'.amount := some.inj (hget.symm.trans hget')
  obtain ⟨hsender, hreceiver⟩ := Prod.mk.inj hpair
  cases row
  cases row'
  simp_all

theorem mem_groupby {group : ℕ × List AggregateTipRank} (h : group ∈ groupby rows) :
    ∀ row ∈ group.2, row ∈ rows ∧ row.receiverUserId = group.1 := by
  induction rows generalizing group with
  | nil => cases h
  | cons first rest ih =>
    have hrest : ∀ group ∈ groupby rest, ∀ row ∈ group.2,
        row ∈ first :: rest ∧ row.receiverUserId = group.1 := fun group hgroup row hrow ↦
      (ih hgroup row hrow).imp_left (mem_cons_of_mem first)
    have hfirst : ∀ group ∈ [(first.receiverUserId, [first])], ∀ row ∈ group.2,
        row ∈ first :: rest ∧ row.receiverUserId = group.1 := by simp
    unfold groupby at h
    cases hgroups : groupby rest with
    | nil =>
      rw [hgroups] at h
      exact hfirst group h
    | cons head groups =>
      rw [hgroups] at h hrest
      simp only at h
      split at h
      · next hkey =>
        rcases mem_cons.mp h with rfl | hmem
        · intro row hrow
          rcases mem_cons.mp hrow with rfl | hrow
          · exact ⟨mem_cons_self, hkey.symm⟩
          · exact hrest head mem_cons_self row hrow
        · exact hrest group (mem_cons_of_mem _ hmem)
      · rcases mem_cons.mp h with rfl | hmem
        · exact hfirst _ mem_cons_self
        · exact hrest group hmem

/-- What is looked up for a pair is the rank of a row of it among the last rows in a row. -/
theorem find?_groupedRanks (rows : List AggregateTipRank) (sender receiver : ℕ) :
    (groupedRanks rows).find? receiver sender
      = (withKey AggregateTipRank.senderUserId sender (lastGroup rows receiver)).getLast?.map
        AggregateTipRank.rank := by
  rw [NestedDict.find?, groupedRanks, get?_foldl_set Prod.fst, Dict.get?_empty, or_none, lastGroup]
  cases (withKey Prod.fst receiver (groupby rows)).getLast? with
  | none => rfl
  | some group =>
    rw [map_some, bind_some, get?_foldl_set AggregateTipRank.senderUserId, Dict.get?_empty, or_none]
    rfl

theorem mem_of_mem_lastGroup {receiver : ℕ} (h : row ∈ lastGroup rows receiver) :
    row ∈ rows ∧ row.receiverUserId = receiver := by
  unfold lastGroup at h
  cases hlast : (withKey Prod.fst receiver (groupby rows)).getLast? with
  | none =>
    rw [hlast] at h
    cases h
  | some group =>
    rw [hlast] at h
    obtain ⟨hgroup, rfl⟩ := mem_withKey.mp (mem_of_getLast? hlast)
    exact mem_groupby hgroup row h

theorem exists_of_find?_eq_some {sender receiver : ℕ}
    (h : (groupedRanks rows).find? receiver sender = some rank) :
    ∃ row ∈ lastGroup rows receiver, row ∈ rows ∧ row.pair = (sender, receiver) ∧
      row.rank = rank := by
  rw [find?_groupedRanks] at h
  obtain ⟨row, hlast, hrank⟩ := map_eq_some_iff.mp h
  obtain ⟨hmem, rfl⟩ := mem_withKey.mp (mem_of_getLast? hlast)
  obtain ⟨hrow, rfl⟩ := mem_of_mem_lastGroup hmem
  exact ⟨row, hmem, hrow, rfl, hrank⟩

theorem exists_find?_of_mem (h : row ∈ lastGroup rows row.receiverUserId) :
    ∃ rank, (groupedRanks rows).find? row.receiverUserId row.senderUserId = some rank := by
  rw [find?_groupedRanks]
  have hmem : row ∈ withKey AggregateTipRank.senderUserId row.senderUserId
      (lastGroup rows row.receiverUserId) := mem_withKey.mpr ⟨h, rfl⟩
  obtain ⟨last, hlast⟩ := ne_none_iff_exists'.mp
    (getLast?_eq_none_iff.not.mpr (ne_nil_of_mem hmem))
  exact ⟨last.rank, by rw [hlast]; rfl⟩

/-! ### One run -/

/-- A run that is skipped would find no tips and change nothing. -/
theorem recent_eq_nil (h : t.checkpoint = maxSlot t run) : recent t run = [] := by
  unfold recent between
  rw [filter_eq_nil_iff]
  intro tip _ hbetween
  have := of_decide_eq_true hbetween
  omega

theorem added_eq : added t run
    = indexRankUps (ranksBefore t run) (ranksAfter t run) (maxSlot t run) := by
  unfold added
  split
  · next h =>
    have hnil : ranksAfter t run = [] := by
      have hperm := run.after.2 (ranksQuery (recent t run) (aggregateAfter t run))
      have hquery : ranksQuery (recent t run) (aggregateAfter t run) = [] := by
        rw [eq_nil_iff_forall_not_mem]
        intro row hrow
        have hreceiver := (mem_ranksQuery.mp hrow).1
        rw [recent_eq_nil h] at hreceiver
        cases hreceiver
      rw [hquery] at hperm
      rw [ranksAfter, hquery]
      exact hperm.eq_nil
    rw [hnil]
    rfl
  · rfl

/-- Rows of the aggregate without a recent tip stay. -/
theorem get?_aggregateAfter (h : pair ∉ (recent t run).map UserTip.pair) :
    (aggregateAfter t run).get? pair = t.aggregateUserTips.get? pair :=
  get?_addTips_of_not_mem h

/-- A receiver without a recent tip keeps its leaderboard. -/
theorem leaderboardRank_aggregateAfter
    (h : pair.2 ∉ (recent t run).map UserTip.receiverUserId) :
    leaderboardRank (aggregateAfter t run) pair = leaderboardRank t.aggregateUserTips pair := by
  have hget : ∀ other : ℕ × ℕ, other.2 = pair.2 →
      (aggregateAfter t run).get? other = t.aggregateUserTips.get? other := by
    intro other hother
    refine get?_aggregateAfter fun hmem ↦ h ?_
    obtain ⟨tip, htip, rfl⟩ := List.mem_map.mp hmem
    exact List.mem_map.mpr ⟨tip, htip, hother⟩
  have hrank : rankOf (aggregateAfter t run) pair = rankOf t.aggregateUserTips pair := by
    funext amount
    exact congrArg (· + 1) (length_filter_eq fun row hrow ↦ hget _ (of_decide_eq_true hrow).1)
  rw [leaderboardRank, leaderboardRank, hget pair rfl, hrank]

theorem mem_added {up : SupporterRankUp} : up ∈ added t run ↔ up.slot = maxSlot t run ∧
    up.receiverUserId ∈ (recent t run).map UserTip.receiverUserId ∧
    leaderboardRank (aggregateAfter t run) (up.senderUserId, up.receiverUserId) = some up.rank ∧
    ∀ rank, (groupedRanks (ranksBefore t run)).find? up.receiverUserId up.senderUserId = some rank →
      up.rank < rank := by
  have hafter : ∀ row, row ∈ ranksAfter t run ↔
      row ∈ ranksQuery (recent t run) (aggregateAfter t run) := fun row ↦
    (run.after.2 _).mem_iff
  rw [added_eq, indexRankUps, List.mem_map]
  constructor
  · rintro ⟨row, hrow, rfl⟩
    obtain ⟨hmem, hrises⟩ := mem_filter.mp hrow
    have hquery := (hafter row).mp hmem
    refine ⟨rfl, (mem_ranksQuery.mp hquery).1, leaderboardRank_of_mem hquery, fun rank hrank ↦ ?_⟩
    rw [hrank] at hrises
    exact of_decide_eq_true hrises
  · rintro ⟨hslot, hreceiver, hrank, hrises⟩
    obtain ⟨row, hrow, hpair, hrowrank⟩ := exists_mem_ranksQuery hreceiver hrank
    obtain ⟨hsender, hreceiver⟩ := Prod.mk.inj hpair
    refine ⟨row, mem_filter.mpr ⟨(hafter row).mpr hrow, ?_⟩, ?_⟩
    · rw [hsender, hreceiver, hrowrank]
      split
      · rfl
      · next rank hfind => exact decide_eq_true (hrises rank hfind)
    · rw [hsender, hreceiver, hrowrank, ← hslot]

theorem nodup_added : (added t run).Nodup := by
  have hquery : ((ranksQuery (recent t run) (aggregateAfter t run)).map
      AggregateTipRank.pair).Nodup := by
    refine Sublist.nodup (filter_sublist.map _) ?_
    rw [List.map_map]
    exact (aggregateAfter t run).nodup.sublist (filter_sublist.map _)
  have hafter : ((ranksAfter t run).map AggregateTipRank.pair).Nodup :=
    ((run.after.2 _).map _).nodup_iff.mpr hquery
  refine Nodup.of_map (fun up : SupporterRankUp ↦ (up.senderUserId, up.receiverUserId)) ?_
  rw [added_eq, indexRankUps, List.map_map]
  exact hafter.sublist (filter_sublist.map _)

/-- The rank ups of a run are exact just when no row of the first query is lost that matters. -/
theorem rankUpsExact_iff : RankUpsExact t run ↔ InLastGroups t run := by
  have hbefore : ∀ row, row ∈ ranksBefore t run ↔
      row ∈ ranksQuery (recent t run) t.aggregateUserTips := fun row ↦ (run.before.2 _).mem_iff
  constructor
  · intro hexact row hrow rank hrank hle
    have hquery := (hbefore row).mp hrow
    by_contra hlost
    have hadded : ⟨maxSlot t run, row.senderUserId, row.receiverUserId, rank⟩ ∈ added t run := by
      refine mem_added.mpr ⟨rfl, (mem_ranksQuery.mp hquery).1, hrank, fun other hother ↦ ?_⟩
      obtain ⟨row', hlast, hrow', hpair, -⟩ := exists_of_find?_eq_some hother
      have heq := eq_of_mem_ranksQuery hquery ((hbefore row').mp hrow') hpair.symm
      exact absurd (heq ▸ hlast) hlost
    have hlt := ((hexact.mem_iff _).mp hadded).2.2 row.rank (leaderboardRank_of_mem hquery)
    exact absurd hle (Nat.not_le.mpr hlt)
  · intro hlast
    refine ⟨nodup_added, fun up ↦ mem_added.trans (and_congr_right fun _ ↦ ?_)⟩
    constructor
    · rintro ⟨hreceiver, hrank, hrises⟩
      refine ⟨hrank, fun rank hold ↦ ?_⟩
      obtain ⟨row, hquery, hpair, rfl⟩ := exists_mem_ranksQuery hreceiver hold
      obtain ⟨hsender, hreceiver⟩ := Prod.mk.inj hpair
      by_contra hle
      have hin := hlast row ((hbefore row).mpr hquery) up.rank (hpair ▸ hrank) (Nat.not_lt.mp hle)
      obtain ⟨found, hfound⟩ := exists_find?_of_mem hin
      obtain ⟨row', -, hrow', hpair', rfl⟩ := exists_of_find?_eq_some hfound
      have heq := eq_of_mem_ranksQuery hquery ((hbefore row').mp hrow') hpair'.symm
      rw [hsender, hreceiver] at hfound
      exact hle (heq ▸ hrises _ hfound)
    · rintro ⟨hrank, hrises⟩
      refine ⟨?_, hrank, fun rank hfind ↦ ?_⟩
      · by_contra hnot
        rw [leaderboardRank_aggregateAfter hnot] at hrank
        exact absurd (hrises _ hrank) (Nat.lt_irrefl _)
      · obtain ⟨row, -, hrow, hpair, rfl⟩ := exists_of_find?_eq_some hfind
        exact hrises _ (hpair ▸ leaderboardRank_of_mem ((hbefore row).mp hrow))

/-! ### Any number of runs -/

/-- No tips. -/
def noTips : TipTables := ⟨[], Dict.empty, Dict.empty, 0, []⟩

/-- What holds between runs. -/
structure Settled (t : TipTables) : Prop where
  checkpoint : ∀ tip ∈ t.userTips, tip.slot ≤ t.checkpoint
  sums : HoldsSums t.userTips t.aggregateUserTips
  counts : CountsExact t

theorem le_maxSlot {tip : UserTip} (h : tip ∈ found t run) : tip.slot ≤ maxSlot t run := by
  have hmem := List.mem_map_of_mem (f := UserTip.slot) h
  unfold maxSlot
  cases hmax : ((found t run).map UserTip.slot).max? with
  | none =>
    rw [max?_eq_none_iff.mp hmax] at hmem
    cases hmem
  | some slot => exact (max?_le_iff hmax).mp (Nat.le_refl _) _ hmem

/-- A run finds the new tips. -/
theorem recent_eq (ht : Settled t) (hall : SeesAll t run) : recent t run = run.tips := by
  unfold recent between found
  rw [filter_append, filter_eq_nil_iff.mpr, nil_append, filter_eq_self]
  · exact fun tip htip ↦ decide_eq_true ⟨hall tip htip, le_maxSlot (mem_append_right _ htip)⟩
  · intro tip htip hbetween
    have hlow := ht.checkpoint tip htip
    have := of_decide_eq_true hbetween
    omega

/-- A run writes as if it were never skipped. -/
theorem updateAggregateTips_eq : updateAggregateTips t run = {
    userTips := found t run
    aggregateUserTips := aggregateAfter t run
    aggregateUser := updateCounts (recent t run) (aggregateAfter t run) t.aggregateUser
    checkpoint := maxSlot t run
    supporterRankUps := t.supporterRankUps ++ added t run } := by
  unfold updateAggregateTips
  split
  · next h =>
    rw [aggregateAfter, recent_eq_nil h, added, if_pos h, append_nil, ← h]
    rfl
  · rfl

/-- A user without a recent tip keeps the rows at this end. -/
theorem countOf_aggregateAfter {endOf : ℕ × ℕ → ℕ} {user : ℕ}
    (hend : ∀ tip : UserTip,
      endOf tip.pair = tip.senderUserId ∨ endOf tip.pair = tip.receiverUserId)
    (h : user ∉ userIds (recent t run)) :
    countOf (aggregateAfter t run) endOf user = countOf t.aggregateUserTips endOf user := by
  refine length_filter_eq fun row hrow ↦ get?_aggregateAfter fun hmem ↦ h ?_
  obtain ⟨tip, htip, hpair⟩ := List.mem_map.mp hmem
  rw [← of_decide_eq_true hrow, ← hpair]
  rcases hend tip with heq | heq
  · rw [heq]
    exact mem_append_left _ (List.mem_map_of_mem htip)
  · rw [heq]
    exact mem_append_right _ (List.mem_map_of_mem htip)

/-- A run that sees all tips leaves all that is counted exact. -/
theorem Settled.updateAggregateTips (ht : Settled t) (hall : SeesAll t run) :
    Settled (AggregateTips.updateAggregateTips t run) := by
  rw [updateAggregateTips_eq]
  refine ⟨fun tip htip ↦ le_maxSlot htip, ?_, fun user huser ↦ ?_⟩
  · have hsums : HoldsSums (t.userTips ++ recent t run) (aggregateAfter t run) := ht.sums.addTips
    rwa [recent_eq ht hall] at hsums
  · simp only [updateCounts]
    by_cases hrecent : user ∈ userIds (recent t run)
    · rw [get?_foldl_set_of_mem (fun user ↦ user) _ hrecent fun _ _ heq ↦ heq]
      exact ⟨_, rfl, rfl, rfl⟩
    · have hold : user ∈ userIds t.userTips := by
        rw [recent_eq ht hall] at hrecent
        simp only [found, userIds, map_append, mem_append] at huser hrecent ⊢
        tauto
      have hother : ∀ other ∈ userIds (recent t run), other ≠ user := by
        rintro other hmem rfl
        exact hrecent hmem
      rw [get?_foldl_set_of_not_mem (fun user ↦ user) _ hother,
        countOf_aggregateAfter (fun _ ↦ .inr rfl) hrecent,
        countOf_aggregateAfter (fun _ ↦ .inl rfl) hrecent]
      exact ht.counts user hold

theorem settled_noTips : Settled noTips where
  checkpoint _ htip := by cases htip
  sums _ := rfl
  counts _ huser := by cases huser

/-- After runs each of which saw all tips, the sums and the counts are exact; so are the rank ups
of the last run just when no row that matters is lost from its first query. -/
theorem supporter_counts_and_rank_ups (runs : List TaskRun) (run : TaskRun)
    (h : Along runTask SeesAll noTips (runs ++ [run])) :
    HoldsSums (replay runTask noTips (runs ++ [run])).userTips
      (replay runTask noTips (runs ++ [run])).aggregateUserTips ∧
    (replay runTask noTips (runs ++ [run])).supporterRankUps
      = (replay runTask noTips runs).supporterRankUps ++ added (replay runTask noTips runs) run ∧
    (CountsExact (replay runTask noTips (runs ++ [run])) ∧
        RankUpsExact (replay runTask noTips runs) run ↔
      InLastGroups (replay runTask noTips runs) run) := by
  have hsettled := replay_invariant Settled (fun _ _ _ ht hall hok ↦ by
    cases hok
    exact ht.updateAggregateTips hall) settled_noTips h
  have hlast : replay runTask noTips (runs ++ [run])
      = updateAggregateTips (replay runTask noTips runs) run := replay_append _ _ _ _
  refine ⟨hsettled.sums, ?_, ?_⟩
  · rw [hlast, updateAggregateTips_eq]
  · rw [rankUpsExact_iff]
    exact ⟨fun hexact ↦ hexact.2, fun hin ↦ ⟨hsettled.counts, hin⟩⟩

/-! ### A receiver whose rows come apart -/

instance (t : TipTables) (run : TaskRun) : Decidable (SeesAll t run) :=
  inferInstanceAs (Decidable (∀ tip ∈ run.tips, _))

/-- Rows in the order of their senders. -/
def bySender : RowOrder :=
  ⟨List.insertionSort (·.senderUserId ≤ ·.senderUserId), List.perm_insertionSort _⟩

/-- Two supporters of user 1, the first of whom also supports user 2; then a third tips both. -/
def firstRun : TaskRun := ⟨[⟨1, 10, 1, 5⟩, ⟨1, 11, 1, 3⟩, ⟨1, 10, 2, 1⟩], bySender, bySender⟩

@[inherit_doc firstRun] def secondRun : TaskRun :=
  ⟨[⟨2, 12, 1, 1⟩, ⟨2, 12, 2, 2⟩], bySender, bySender⟩

theorem supporter_counts_and_rank_ups_secondRun :
    CountsExact (replay runTask noTips [firstRun, secondRun]) ∧
        RankUpsExact (replay runTask noTips [firstRun]) secondRun ↔
      InLastGroups (replay runTask noTips [firstRun]) secondRun :=
  (supporter_counts_and_rank_ups [firstRun] secondRun (by decide +kernel)).2.2

/-- The first supporter of user 1 has stayed first, and is recorded as having risen. -/
theorem rank_up_without_rise : ¬ ∀ runs run, Along runTask SeesAll noTips (runs ++ [run]) →
    CountsExact (replay runTask noTips (runs ++ [run])) ∧
      RankUpsExact (replay runTask noTips runs) run := by
  intro h
  have hexact := (h [firstRun] secondRun (by decide +kernel)).2
  have hadded : ⟨2, 10, 1, 1⟩ ∈ added (replay runTask noTips [firstRun]) secondRun := by
    decide +kernel
  exact absurd (((hexact.mem_iff _).mp hadded).2.2 1 (by decide +kernel)) (Nat.lt_irrefl 1)

end ColivingSpec.Discovery.AggregateTips
