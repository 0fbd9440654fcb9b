import ColivingSpec.Discovery.SolanaNotifications

/-!
# Polls of Solana notifications

What a response holds of a row, and what a consumer has got after a run. A row is got once if it is
committed above the slot the consumer has come to, if no poll goes back behind what was got, and if
the rows it is joined with are there once.
-/

namespace ColivingSpec

open Lib List Option

namespace SolanaNotifications

namespace Node

variable (n : Node)

/-- How often the consumer has got a row. -/
def deliveries (row : Row) : ℕ := (n.responses.flatten.map Notification.row).count row

/-- Every row above `base` that the consumer has passed is in one response, once, the others are in
none, and the endpoint has not raised. -/
structure DeliversOnce (base : ℕ) : Prop where
  delivered : ∀ row ∈ n.rows, base < row.slot →
    n.deliveries row = if row.slot ≤ n.minSlotNumber then 1 else 0
  answered : n.raised = false

/-- Rows that are told apart by their keys, and responses about them. -/
structure Sound : Prop where
  keys : (n.rows.map Row.key).Nodup
  known : ∀ row, row ∉ n.rows → n.deliveries row = 0

/-- How often a row is in a response whose range it is in. -/
def multiplicity : Row → ℕ
  | .milestone milestone => (n.owners milestone).length
  | .reaction reaction => (n.senders reaction).length
  | _ => 1

/-- The rows an event commits. -/
def committed : Event → List Row
  | .commits p => ((n.runs p).bind fun run ↦ run.batches.head?).getD []
  | .commitsTips =>
    match n.tipsRun with
    | some run => if run.hasSet then run.rankUps.map .supporterRankUp else []
    | none => []
  | .commitsReactions reactions => reactions.map .reaction
  | _ => []

/-- What a reaction is to is a stored tip, and a reaction of type `tip` of the range is to it. -/
def ToTip (low high : ℕ) (reaction : Reaction) : Prop :=
  (∃ tip ∈ n.tips, tip.signature = reaction.reactedTo) ∧
    ∃ result ∈ n.reactionResults low high,
      result.1.reactionType = "tip" ∧ result.1.reactedTo = reaction.reactedTo

instance (low high : ℕ) (reaction : Reaction) : Decidable (n.ToTip low high reaction) :=
  inferInstanceAs (Decidable (_ ∧ _))

/-- A poll up to `high` gets every row of the range once and goes back behind none. -/
structure PollsOnce (base high : ℕ) : Prop where
  tips : ∀ result ∈ n.reactionResults n.minSlotNumber high,
    n.ToTip n.minSlotNumber high result.1
  once : ∀ row ∈ n.rows, base < row.slot → n.minSlotNumber < row.slot → row.slot ≤ high →
    n.multiplicity row = 1
  onward : ∀ row ∈ n.rows, base < row.slot → row.slot ≤ n.minSlotNumber → row.slot ≤ high

instance (base high : ℕ) : Decidable (n.PollsOnce base high) :=
  decidable_of_iff (_ ∧ _ ∧ _) ⟨fun h ↦ ⟨h.1, h.2.1, h.2.2⟩, fun h ↦ ⟨h.tips, h.once, h.onward⟩⟩

/-- New rows are above the slot that the consumer has come to, and polls get each row once. -/
def Undisturbed (maxSlotDiff base : ℕ) (e : Event) : Prop :=
  match e with
  | .polls maxSlotNumber =>
    n.PollsOnce base (n.maxSlotNumber maxSlotDiff n.minSlotNumber maxSlotNumber)
  | e => ((n.rows ++ n.committed e).map Row.key).Nodup →
    ∀ row ∈ n.committed e, base < row.slot → n.minSlotNumber < row.slot

instance (maxSlotDiff base : ℕ) : DecidablePred (n.Undisturbed maxSlotDiff base)
  | .polls _ => inferInstanceAs (Decidable (n.PollsOnce base _))
  | .starts .. | .commits _ | .fails _ | .sets _ | .startsTips _ | .setsTips | .commitsTips
  | .failsTips | .commitsReactions _ | .indexes .. =>
    inferInstanceAs (Decidable (_ → ∀ row ∈ n.committed _, _))

/-! ### A response -/

variable {n} {base low high : ℕ} {row : Row}

theorem count_flatMap_replicate {l : List Row} (f : Row → ℕ) (row : Row) :
    (l.flatMap fun r ↦ replicate (f r) r).count row = l.count row * f row := by
  induction l with
  | nil => simp
  | cons r l ih =>
    rw [flatMap_cons, count_append, ih, count_cons, count_replicate]
    by_cases h : r = row
    · subst h
      simp [Nat.add_mul, Nat.add_comm]
    · simp [h]

theorem map_row_notificationsOf (r : Row) (hr : r.table ≠ .reactions) :
    (n.notificationsOf r).map Notification.row = replicate (n.multiplicity r) r := by
  cases r with
  | milestone milestone =>
    simp [notificationsOf, multiplicity, Function.comp_def, Notification.row]
  | reaction => exact absurd rfl hr
  | _ => rfl

/-- The rows of a range and a table are there once. -/
theorem count_query (hrows : n.rows.Nodup) (t : Table) (row : Row) :
    (n.query t low high).count row
      = if row ∈ n.rows ∧ row.table = t ∧ low < row.slot ∧ row.slot ≤ high then 1 else 0 := by
  have hnodup : (n.query t low high).Nodup := hrows.filter _
  rw [hnodup.count]
  simp [query, mem_filter]

theorem map_fst_reactionResults :
    (n.reactionResults low high).map (fun result ↦ Row.reaction result.1)
      = (n.query .reactions low high).flatMap fun r ↦ replicate (n.multiplicity r) r := by
  rw [reactionResults, map_flatMap]
  apply flatMap_congr
  intro r hr
  have htable : r.table = .reactions := by
    simp only [query, mem_filter, decide_eq_true_eq] at hr
    exact hr.2.1
  cases r with
  | reaction reaction =>
    simp [multiplicity, Function.comp_def]
  | _ => nomatch htable

variable {notifications : List Notification} {maxSlotDiff : ℕ} {maxSlotNumber : Option ℕ}
  (key : SlotKey) (slot : Option ℕ) {e : Event}

/-- The notifications of reactions, when none of them raises. -/
theorem map_row_reactions (h : n.reactions low high = .ok notifications) :
    notifications.map Notification.row
      = (n.query .reactions low high).flatMap fun r ↦ replicate (n.multiplicity r) r := by
  rw [← map_fst_reactionResults]
  apply map_of_mapM_eq_ok _ h
  intro result notification hok
  obtain ⟨tip, -, hok⟩ := bind_eq_ok.mp hok
  rw [pure_eq_ok] at hok
  rw [← hok]
  rfl

theorem succeeds_tipOf_iff (reaction : Reaction) :
    Succeeds (n.tipOf low high reaction) ↔ n.ToTip low high reaction := by
  have hfind : Succeeds (n.tipOf low high reaction) ↔
      ∃ tip ∈ n.tips, (∃ result ∈ n.reactionResults low high,
        result.1.reactionType = "tip" ∧ result.1.reactedTo = tip.signature) ∧
          tip.signature = reaction.reactedTo := by
    rw [tipOf]
    split
    · next tip htip =>
      refine iff_of_true ⟨tip, rfl⟩ ?_
      have hmem := mem_of_find?_eq_some htip
      have hsignature := find?_some htip
      simp only [mem_reverse, mem_filter, mem_filterMap, decide_eq_true_eq,
        ite_none_right_eq_some, some.injEq] at hmem hsignature
      exact ⟨tip, hmem.1, hmem.2, hsignature⟩
    · next hnone =>
      refine iff_of_false (fun ⟨_, h⟩ ↦ nomatch h) ?_
      rintro ⟨tip, hmem, hresult, hsignature⟩
      rw [find?_eq_none] at hnone
      apply hnone tip
      · simp only [mem_reverse, mem_filter, mem_filterMap, decide_eq_true_eq,
          ite_none_right_eq_some, some.injEq]
        exact ⟨hmem, hresult⟩
      · simpa using hsignature
  rw [hfind, ToTip]
  constructor
  · rintro ⟨tip, hmem, hresult, hsignature⟩
    exact ⟨⟨tip, hmem, hsignature⟩, hsignature ▸ hresult⟩
  · rintro ⟨⟨tip, hmem, hsignature⟩, hresult⟩
    exact ⟨tip, hmem, hsignature ▸ hresult, hsignature⟩

theorem succeeds_reactions_iff :
    Succeeds (n.reactions low high) ↔
      ∀ result ∈ n.reactionResults low high, n.ToTip low high result.1 := by
  rw [reactions, succeeds_mapM_iff]
  apply forall₂_congr
  intro result _
  rw [← succeeds_tipOf_iff]
  constructor
  · rintro ⟨_, hok⟩
    obtain ⟨tip, htip, -⟩ := bind_eq_ok.mp hok
    exact ⟨tip, htip⟩
  · rintro ⟨tip, htip⟩
    exact ⟨.reaction result.1 result.2 tip, by rw [htip]; rfl⟩

theorem map_row_unsorted (ts : List Table) (hts : Table.reactions ∉ ts) :
    (ts.flatMap fun t ↦ (n.query t low high).flatMap n.notificationsOf).map Notification.row
      = ts.flatMap fun t ↦
          (n.query t low high).flatMap fun r ↦ replicate (n.multiplicity r) r := by
  rw [map_flatMap]
  apply flatMap_congr
  intro t ht
  rw [map_flatMap]
  apply flatMap_congr
  intro r hr
  apply map_row_notificationsOf
  simp only [query, mem_filter, decide_eq_true_eq] at hr
  rw [hr.2.1]
  exact fun h ↦ hts (h ▸ ht)

/-- A response holds each row of its range as often as the row is joined, and no other row. -/
theorem count_response (hrows : n.rows.Nodup) {minSlotNumber : ℕ}
    (h : n.solanaNotifications maxSlotDiff minSlotNumber maxSlotNumber = .ok (notifications, high))
    (row : Row) :
    (notifications.map Notification.row).count row
      = if row ∈ n.rows ∧ minSlotNumber < row.slot ∧ row.slot ≤ high then n.multiplicity row
        else 0 := by
  obtain ⟨reactions, hreactions, hok⟩ := bind_eq_ok.mp h
  rw [pure_eq_ok, Prod.mk.injEq] at hok
  obtain ⟨hsorted, hhigh⟩ := hok
  rw [hhigh] at hsorted hreactions
  rw [← hsorted, ((perm_insertionSort _ _).map Notification.row).count_eq, map_append,
    count_append, map_row_unsorted _ (by decide), map_row_reactions hreactions,
    count_flatMap]
  simp only [map_cons, map_nil, Function.comp_apply, count_flatMap_replicate,
    count_query hrows, sum_cons, sum_nil]
  by_cases hrange : row ∈ n.rows ∧ minSlotNumber < row.slot ∧ row.slot ≤ high
  · rw [if_pos hrange]
    cases row with
    | _ => simp [Row.table, hrange.1, hrange.2.1, hrange.2.2]
  · rw [if_neg hrange]
    have hnone : ∀ t, ¬(row ∈ n.rows ∧ row.table = t ∧ minSlotNumber < row.slot
        ∧ row.slot ≤ high) := fun t h ↦ hrange ⟨h.1, h.2.2⟩
    simp [hnone]

theorem succeeds_solanaNotifications_iff (n : Node) (maxSlotDiff minSlotNumber : ℕ)
    (maxSlotNumber : Option ℕ) :
    Succeeds (n.solanaNotifications maxSlotDiff minSlotNumber maxSlotNumber) ↔
      Succeeds (n.reactions minSlotNumber
        (n.maxSlotNumber maxSlotDiff minSlotNumber maxSlotNumber)) := by
  rw [solanaNotifications, succeeds_bind_iff (p := True), and_true]
  exact fun reactions ↦ iff_of_true ⟨_, rfl⟩ trivial

/-- The second part of a response is the end of its range. -/
theorem snd_solanaNotifications {minSlotNumber : ℕ}
    (h : n.solanaNotifications maxSlotDiff minSlotNumber maxSlotNumber
      = .ok (notifications, high)) :
    high = n.maxSlotNumber maxSlotDiff minSlotNumber maxSlotNumber := by
  obtain ⟨reactions, -, hok⟩ := bind_eq_ok.mp h
  rw [pure_eq_ok, Prod.mk.injEq] at hok
  exact hok.2.symm

/-! ### A step -/

/-- The rows are added if their keys are free; nothing else that a consumer sees changes. -/
structure Adds (n n' : Node) (rows : List Row) : Prop where
  rows : n'.rows = if ((n.rows ++ rows).map Row.key).Nodup then n.rows ++ rows else n.rows
  minSlotNumber : n'.minSlotNumber = n.minSlotNumber
  responses : n'.responses = n.responses
  raised : n'.raised = n.raised

variable {n' : Node} {rows : List Row}

theorem Adds.of_nil (hkeys : (n.rows.map Row.key).Nodup) (hrows : n'.rows = n.rows)
    (hmin : n'.minSlotNumber = n.minSlotNumber) (hresponses : n'.responses = n.responses)
    (hraised : n'.raised = n.raised) : n.Adds n' [] where
  rows := by rw [append_nil, if_pos hkeys, hrows]
  minSlotNumber := hmin
  responses := hresponses
  raised := hraised

theorem Adds.of_insert (h : n.insert rows = .ok n') : n.Adds n' rows := by
  obtain ⟨hkeys, h⟩ := require_bind_eq_ok.mp h
  rw [pure_eq_ok] at h
  subst h
  exact ⟨by rw [if_pos hkeys], rfl, rfl, rfl⟩

theorem Adds.of_insert_error {reason : String} (h : n.insert rows = .error reason) :
    n.Adds n rows := by
  have hkeys : ¬((n.rows ++ rows).map Row.key).Nodup := by
    intro hkeys
    rw [insert, require, if_pos hkeys] at h
    nomatch h
  exact ⟨by rw [if_neg hkeys], rfl, rfl, rfl⟩

theorem set_rows : (n.set key slot).rows = n.rows := by
  cases slot <;> rfl

theorem set_minSlotNumber :
    (n.set key slot).minSlotNumber = n.minSlotNumber := by
  cases slot <;> rfl

theorem set_responses :
    (n.set key slot).responses = n.responses := by
  cases slot <;> rfl

theorem set_raised : (n.set key slot).raised = n.raised := by
  cases slot <;> rfl

theorem Adds.of_set (hkeys : (n.rows.map Row.key).Nodup) (key : SlotKey) (slot : Option ℕ) :
    n.Adds (n.set key slot) [] :=
  of_nil hkeys (set_rows key slot) (set_minSlotNumber key slot) (set_responses key slot)
    (set_raised key slot)

/-- An event that commits nothing. -/
theorem Adds.of_step (hkeys : (n.rows.map Row.key).Nodup)
    (h : ∀ n', step maxSlotDiff n e = .ok n' → n.Adds n' []) :
    n.Adds (attempt (step maxSlotDiff) n e) [] := by
  rcases attempt_cases (step maxSlotDiff) n e with heq | hok
  · rw [heq]
    exact of_nil hkeys rfl rfl rfl rfl
  · exact h _ hok

/-- A session that commits the rows and then changes nothing that a consumer sees. -/
theorem Adds.of_insert_bind (f : Node → Node)
    (hstep : step maxSlotDiff n e = (do return f (← n.insert rows)))
    (hf : ∀ n', n.Adds n' rows → n.Adds (f n') rows) :
    n.Adds (attempt (step maxSlotDiff) n e) rows := by
  cases hinsert : n.insert rows with
  | ok n' =>
    have hok : step maxSlotDiff n e = .ok (f n') := by rw [hstep, hinsert]; rfl
    rw [attempt_of_ok _ hok]
    exact hf n' (of_insert hinsert)
  | error reason =>
    have herror : step maxSlotDiff n e = .error reason := by rw [hstep, hinsert]; rfl
    rw [attempt_of_error _ herror]
    exact of_insert_error hinsert

/-- An event that is no poll adds the rows it commits. -/
theorem adds_attempt (maxSlotDiff : ℕ) (hn : n.Sound)
    (he : ∀ maxSlotNumber, e ≠ .polls maxSlotNumber) :
    n.Adds (attempt (step maxSlotDiff) n e) (n.committed e) := by
  cases e with
  | starts p run =>
    apply Adds.of_step hn.keys
    intro n' hok
    simp only [step, require_bind_eq_ok, pure_eq_ok] at hok
    rw [← hok.2.2]
    exact Adds.of_nil hn.keys rfl rfl rfl rfl
  | commits p =>
    cases hrun : n.runs p with
    | none =>
      simp only [committed, hrun, bind_none, getD_none]
      apply Adds.of_step hn.keys
      simp [step, hrun]
    | some run =>
      obtain ⟨lastSlot, latestGlobalSlot, batches⟩ := run
      cases batches with
      | nil =>
        simp only [committed, hrun, bind_some, head?_nil, getD_none]
        apply Adds.of_step hn.keys
        simp [step, hrun]
      | cons batch batches =>
        simp only [committed, hrun, bind_some, head?_cons, getD_some]
        apply Adds.of_insert_bind fun n' ↦
          n'.setRun p (some ⟨lastSlot, latestGlobalSlot, batches⟩)
        · simp only [step, hrun]
        · exact fun n' hn' ↦ ⟨hn'.rows, hn'.minSlotNumber, hn'.responses, hn'.raised⟩
  | fails | failsTips | indexes => exact Adds.of_nil hn.keys rfl rfl rfl rfl
  | sets p =>
    apply Adds.of_step hn.keys
    intro n' hok
    simp only [step] at hok
    split at hok
    · next lastSlot latestGlobalSlot _ =>
      rw [Except.ok.injEq] at hok
      rw [← hok]
      have hset := Adds.of_set hn.keys (.program p) (lastSlot.or latestGlobalSlot)
      exact ⟨hset.rows, hset.minSlotNumber, hset.responses, hset.raised⟩
    · cases hok
  | startsTips ranked =>
    apply Adds.of_step hn.keys
    intro n' hok
    simp only [step, require_bind_eq_ok] at hok
    have hok := hok.2
    split at hok
    · rw [pure_eq_ok] at hok
      rw [← hok]
      exact Adds.of_set hn.keys _ _
    · rw [pure_eq_ok] at hok
      rw [← hok]
      exact Adds.of_nil hn.keys rfl rfl rfl rfl
  | setsTips =>
    apply Adds.of_step hn.keys
    intro n' hok
    simp only [step] at hok
    split at hok
    · next run _ =>
      rw [Except.ok.injEq] at hok
      rw [← hok]
      have hset := Adds.of_set hn.keys .aggregateTips run.userBankSlot
      exact ⟨hset.rows, hset.minSlotNumber, hset.responses, hset.raised⟩
    · cases hok
  | commitsTips =>
    cases hrun : n.tipsRun with
    | none =>
      simp only [committed, hrun]
      apply Adds.of_step hn.keys
      simp [step, hrun]
    | some run =>
      obtain ⟨userBankSlot, maxSlot, rankUps, ready⟩ := run
      cases ready with
      | false =>
        simp only [committed, hrun]
        apply Adds.of_step hn.keys
        simp [step, hrun]
      | true =>
        simp only [committed, hrun, if_true]
        apply Adds.of_insert_bind fun n' ↦ { n' with
          checkpoint := if maxSlot = 0 then n'.checkpoint else maxSlot
          tipsRun := none }
        · simp only [step, hrun]
          rfl
        · exact fun n' hn' ↦ ⟨hn'.rows, hn'.minSlotNumber, hn'.responses, hn'.raised⟩
  | commitsReactions reactions =>
    apply Adds.of_insert_bind id _ fun n' hn' ↦ hn'
    simp only [step, committed, id, bind_pure]
  | polls maxSlotNumber => exact absurd rfl (he maxSlotNumber)

theorem deliveries_append (h : n'.responses = n.responses ++ [notifications]) (row : Row) :
    n'.deliveries row = n.deliveries row + (notifications.map Notification.row).count row := by
  simp [deliveries, h, count_append]

theorem Adds.deliveries_eq (h : n.Adds n' rows) (row : Row) :
    n'.deliveries row = n.deliveries row := by
  rw [deliveries, deliveries, h.responses]

/-- Rows stay. -/
theorem Adds.mem (h : n.Adds n' rows) (hrow : row ∈ n.rows) : row ∈ n'.rows := by
  rw [h.rows]
  split
  · exact mem_append_left _ hrow
  · exact hrow

theorem Sound.of_adds (hn : n.Sound) (h : n.Adds n' rows) : n'.Sound where
  keys := by
    rw [h.rows]
    split
    · next hkeys => exact hkeys
    · exact hn.keys
  known row hrow := by
    rw [h.deliveries_eq]
    exact hn.known row fun hmem ↦ hrow (h.mem hmem)

/-- New rows were not there. -/
theorem notMem_of_nodup_keys (hkeys : ((n.rows ++ rows).map Row.key).Nodup) (hrow : row ∈ rows) :
    row ∉ n.rows := by
  intro hmem
  rw [map_append] at hkeys
  exact disjoint_of_nodup_append hkeys (List.mem_map_of_mem hmem) (List.mem_map_of_mem hrow)

/-- Rows above what the consumer has passed are missed by nobody. -/
theorem deliversOnce_adds_iff (hn : n.Sound) (hp : n.DeliversOnce base) (h : n.Adds n' rows) :
    n'.DeliversOnce base ↔ (((n.rows ++ rows).map Row.key).Nodup →
      ∀ row ∈ rows, base < row.slot → n.minSlotNumber < row.slot) := by
  constructor
  · intro hp' hkeys row hrow hbase
    have hmem : row ∈ n'.rows := by
      rw [h.rows, if_pos hkeys]
      exact mem_append_right _ hrow
    have hdelivered := hp'.delivered row hmem hbase
    rw [h.deliveries_eq, hn.known row (notMem_of_nodup_keys hkeys hrow), h.minSlotNumber]
      at hdelivered
    by_contra hpassed
    rw [if_pos (Nat.not_lt.mp hpassed)] at hdelivered
    nomatch hdelivered
  · intro habove
    refine ⟨fun row hrow hbase ↦ ?_, h.raised.trans hp.answered⟩
    rw [h.deliveries_eq, h.minSlotNumber]
    by_cases hold : row ∈ n.rows
    · exact hp.delivered row hold hbase
    · rw [h.rows] at hrow
      split at hrow
      · next hkeys =>
        have hnew : row ∈ rows := (mem_append.mp hrow).resolve_left hold
        have hslot := habove hkeys row hnew hbase
        rw [hn.known row hold, if_neg (by omega)]
      · exact absurd hrow hold

/-- A poll that raises. -/
theorem attempt_polls_error {reason : String}
    (h : n.solanaNotifications maxSlotDiff n.minSlotNumber maxSlotNumber = .error reason) :
    attempt (step maxSlotDiff) n (.polls maxSlotNumber) = { n with raised := true } := by
  apply attempt_of_ok
  simp only [step, h]

/-- A poll that is answered. -/
theorem attempt_polls_ok (h : n.solanaNotifications maxSlotDiff n.minSlotNumber maxSlotNumber
      = .ok (notifications, high)) :
    attempt (step maxSlotDiff) n (.polls maxSlotNumber)
      = { n with minSlotNumber := high, responses := n.responses ++ [notifications] } := by
  apply attempt_of_ok
  simp only [step, h]

theorem Sound.of_polls (hn : n.Sound) (maxSlotDiff : ℕ) (maxSlotNumber : Option ℕ) :
    (attempt (step maxSlotDiff) n (.polls maxSlotNumber)).Sound := by
  cases h : n.solanaNotifications maxSlotDiff n.minSlotNumber maxSlotNumber with
  | error reason =>
    rw [attempt_polls_error h]
    exact ⟨hn.keys, hn.known⟩
  | ok response =>
    rw [attempt_polls_ok h]
    refine ⟨hn.keys, fun row hrow ↦ ?_⟩
    rw [deliveries_append rfl, hn.known row hrow, count_response hn.keys.of_map h,
      if_neg fun hrange ↦ hrow hrange.1]

/-- Once the responses are counted, a poll keeps its promise about a row just when it gets the row
once or has got it. -/
theorem deliversOnce_polls_iff (hn : n.Sound) (hp : n.DeliversOnce base) (maxSlotDiff : ℕ)
    (maxSlotNumber : Option ℕ) :
    (attempt (step maxSlotDiff) n (.polls maxSlotNumber)).DeliversOnce base ↔
      n.PollsOnce base (n.maxSlotNumber maxSlotDiff n.minSlotNumber maxSlotNumber) := by
  have hsucceeds :=
    succeeds_solanaNotifications_iff n maxSlotDiff n.minSlotNumber maxSlotNumber
  rw [succeeds_reactions_iff] at hsucceeds
  cases h : n.solanaNotifications maxSlotDiff n.minSlotNumber maxSlotNumber with
  | error reason =>
    rw [attempt_polls_error h]
    constructor
    · intro hp'
      nomatch hp'.answered
    · intro hpolls
      obtain ⟨response, hok⟩ := hsucceeds.mpr hpolls.tips
      rw [h] at hok
      nomatch hok
  | ok response =>
    obtain ⟨notifications, high⟩ := response
    have hcount := count_response hn.keys.of_map h
    have hhigh := snd_solanaNotifications h
    rw [attempt_polls_ok h, ← hhigh]
    rw [← hhigh] at hsucceeds
    have htips := hsucceeds.mp ⟨_, h⟩
    -- what the consumer has of a row is what it had and what the response holds
    have hrow : ∀ row ∈ n.rows, base < row.slot →
        (({ n with minSlotNumber := high, responses := n.responses ++ [notifications] } :
            Node).deliveries row = (if row.slot ≤ high then 1 else 0) ↔
          (n.minSlotNumber < row.slot → row.slot ≤ high → n.multiplicity row = 1) ∧
            (row.slot ≤ n.minSlotNumber → row.slot ≤ high)) := by
      intro row hmem hbase
      rw [deliveries_append rfl, hcount, hp.delivered row hmem hbase]
      by_cases hpassed : row.slot ≤ n.minSlotNumber
      · have hnot : ¬n.minSlotNumber < row.slot := by omega
        by_cases hle : row.slot ≤ high <;> simp [hpassed, hnot, hle]
      · have hnew : n.minSlotNumber < row.slot := by omega
        by_cases hle : row.slot ≤ high <;> simp [hpassed, hnew, hle, hmem]
    constructor
    · intro hp'
      refine ⟨htips, fun row hmem hbase ↦ ?_, fun row hmem hbase ↦ ?_⟩
      · exact ((hrow row hmem hbase).mp (hp'.delivered row hmem hbase)).1
      · exact ((hrow row hmem hbase).mp (hp'.delivered row hmem hbase)).2
    · intro hpolls
      refine ⟨fun row hmem hbase ↦ ?_, hp.answered⟩
      exact (hrow row hmem hbase).mpr ⟨hpolls.once row hmem hbase, hpolls.onward row hmem hbase⟩

theorem Sound.attempt (hn : n.Sound) (maxSlotDiff : ℕ) (e : Event) :
    (Lib.attempt (step maxSlotDiff) n e).Sound := by
  by_cases he : ∃ maxSlotNumber, e = .polls maxSlotNumber
  · obtain ⟨maxSlotNumber, rfl⟩ := he
    exact hn.of_polls maxSlotDiff maxSlotNumber
  · exact hn.of_adds (adds_attempt maxSlotDiff hn fun maxSlotNumber h ↦ he ⟨maxSlotNumber, h⟩)

theorem deliversOnce_attempt_iff (hn : n.Sound) (hp : n.DeliversOnce base) (maxSlotDiff : ℕ)
    (e : Event) :
    (attempt (step maxSlotDiff) n e).DeliversOnce base ↔ n.Undisturbed maxSlotDiff base e := by
  cases e with
  | polls maxSlotNumber => exact deliversOnce_polls_iff hn hp maxSlotDiff maxSlotNumber
  | _ => exact deliversOnce_adds_iff hn hp (adds_attempt maxSlotDiff hn fun _ h ↦ nomatch h)

/-! ### Runs -/

/-- The rows are told apart by their keys and the consumer has not polled. -/
structure Opens (n : Node) : Prop where
  keys : (n.rows.map Row.key).Nodup
  responses : n.responses = []
  raised : n.raised = false

theorem Opens.sound (h : n.Opens) : n.Sound where
  keys := h.keys
  known row _ := by simp [deliveries, h.responses]

theorem Opens.deliversOnce (h : n.Opens) : n.DeliversOnce n.minSlotNumber where
  delivered row _ hbase := by
    rw [if_neg (Nat.not_le.mpr hbase), deliveries, h.responses]
    rfl
  answered := h.raised

end Node

/-- In a run, every row above where the consumer began is in one response once the consumer has
passed it, and no poll raises, as long as no row is committed behind the consumer and each poll
gets the rows of its range once. -/
theorem solana_notifications_delivered_once (maxSlotDiff : ℕ) (n : Node) (es : List Event)
    (hn : n.Opens) :
    (∀ fs, fs <+: es → (replay (step maxSlotDiff) n fs).DeliversOnce n.minSlotNumber) ↔
      Along (step maxSlotDiff) (fun n' e ↦ n'.Undisturbed maxSlotDiff n.minSlotNumber e) n es := by
  apply prefixes_iff_along (W := Node.Sound) (P := fun n' ↦ n'.DeliversOnce n.minSlotNumber)
  · intro n e n' hn hok
    rw [← attempt_of_ok _ hok]
    exact hn.attempt maxSlotDiff e
  · exact fun n' e hn' hp ↦ Node.deliversOnce_attempt_iff hn' hp maxSlotDiff e
  · exact hn.sound
  · exact hn.deliversOnce

/-- A node that has indexed nothing, and a consumer that begins at slot 0. -/
def fresh : Node where
  rows := []
  digitalContents := []
  users := []
  slots := fun _ ↦ none
  checkpoint := 0
  runs := fun _ ↦ none
  tipsRun := none
  minSlotNumber := 0
  responses := []
  raised := false

/-- A tip is found at slot 90, then the other indexers get to slots above. -/
def tipIndexed : List Event :=
  [.starts .userBank ⟨some 90, none, [[.userTip ⟨90, "signature", 1, 2, 10⟩]]⟩, .commits .userBank,
    .sets .userBank, .starts .plays ⟨none, some 95, []⟩, .sets .plays,
    .starts .rewardsManager ⟨none, some 96, []⟩, .sets .rewardsManager]

/-- The rank up of the tip is committed before the poll. -/
def rankUpCommitted : List Event :=
  tipIndexed ++ [.startsTips [(1, 2, 1)], .setsTips, .commitsTips, .polls none]

theorem solana_notifications_delivered_once_committed :
    (replay (step 100000) fresh rankUpCommitted).DeliversOnce 0 :=
  (solana_notifications_delivered_once 100000 fresh rankUpCommitted ⟨by decide, rfl, rfl⟩).mpr
    ⟨by decide, by decide, by decide, by decide, by decide, by decide, by decide, by decide,
      by decide, by decide, by decide, trivial⟩ rankUpCommitted List.prefix_rfl

/-- The poll comes between `redis.set` and the end of the session. -/
def rankUpOvertaken : List Event :=
  tipIndexed ++ [.startsTips [(1, 2, 1)], .setsTips, .polls none, .commitsTips]

/-- The rank up is committed at slot 90 when the consumer is at slot 90, and is in no response. -/
theorem rank_up_not_delivered :
    fresh.Opens ∧
      ¬∀ fs, fs <+: rankUpOvertaken → (replay (step 100000) fresh fs).DeliversOnce 0 := by
  refine ⟨⟨by decide, rfl, rfl⟩, fun hall ↦ ?_⟩
  have hend := hall rankUpOvertaken List.prefix_rfl
  have hdelivered := hend.delivered (.supporterRankUp ⟨90, 1, 2, 1⟩) (by decide) (by decide)
  have hnone : (replay (step 100000) fresh rankUpOvertaken).deliveries
      (.supporterRankUp ⟨90, 1, 2, 1⟩) = 0 := by decide
  have hpassed : (Row.supporterRankUp ⟨90, 1, 2, 1⟩).slot
      ≤ (replay (step 100000) fresh rankUpOvertaken).minSlotNumber := by decide
  nomatch hdelivered

end SolanaNotifications

end ColivingSpec
