import ColivingSpec.ContentNode.SecondarySyncHealthTracker
import Mathlib.Algebra.Ring.Nat

/-!
# Success rates of a day's syncs

What the counters in Redis hold is a record for each secondary, user, sync type, day and
outcome, and a key is the record's names joined. The keys are found by a pattern and read back by
splitting; the rates then add up the records of each secondary and user asked for.
-/

namespace ColivingSpec

open Lib List

namespace SecondarySyncHealthTracker

/-- The names a count is kept under. Endpoints, wallets, sync types and dates do not run into the
separators around them. -/
structure OutcomeKey where
  secondary : String
  wallet : String
  syncType : String
  date : String
  outcome : Outcome
  clean : ∀ name ∈ [secondary, wallet, syncType, date], Joined.Clean ":::".toList name.toList

/-- The key in Redis. -/
def OutcomeKey.text (key : OutcomeKey) : String :=
  _getRedisKeyPattern key.date
    ⟨some key.secondary, some key.wallet, some key.syncType, some key.outcome.value, none⟩

/-- The parts of a key after its prefix. -/
def OutcomeKey.parts (key : OutcomeKey) : List (List Char) :=
  [key.secondary.toList, key.wallet.toList, key.syncType.toList, key.date.toList,
    key.outcome.value.toList]

theorem separator_ne_nil : ":::".toList ≠ [] := by decide

variable (key : OutcomeKey) {glob : String → String → Bool} {today : String} {wallets : List String}
  {contents : Dict OutcomeKey ℕ} (metrics : UserSecondarySyncMetricsMap)
  (entries : List (String × List String)) (start : UserSecondarySyncMetricsMap)
  (mapping : Dict String (List String)) (count : ℕ)

theorem OutcomeKey.toList_text :
    key.text.toList = RedisKeyPrefix.toList ++ Joined.joined ":::".toList key.parts := by
  simp only [text, _getRedisKeyPattern, parts, String.toList_append, Option.getD_some,
    Joined.joined_cons, Joined.joined_nil, append_assoc, append_nil]

theorem OutcomeKey.clean_parts :
    ∀ part ∈ key.parts, Joined.Clean ":::".toList part := by
  intro part hpart
  have hclean := key.clean
  simp only [forall_mem_cons] at hclean
  obtain ⟨hsecondary, hwallet, hsyncType, hdate, -⟩ := hclean
  simp only [parts, mem_cons, not_mem_nil, or_false] at hpart
  rcases hpart with rfl | rfl | rfl | rfl | rfl
  · exact hsecondary
  · exact hwallet
  · exact hsyncType
  · exact hdate
  · cases key.outcome <;> decide

/-- A key is split into what it was joined from. -/
theorem OutcomeKey.split_text :
    Joined.split ":::".toList key.text.toList = RedisKeyPrefix.toList :: key.parts := by
  rw [key.toList_text]
  apply Joined.split_append_joined separator_ne_nil
  rw [forall_mem_cons]
  exact ⟨by decide, key.clean_parts⟩

theorem OutcomeKey.parse_secondary :
    _parseRedisKeyIntoComponents key.text 1 = some key.secondary := by
  rw [_parseRedisKeyIntoComponents, key.split_text]
  exact congrArg some String.ofList_toList

theorem OutcomeKey.parse_wallet :
    _parseRedisKeyIntoComponents key.text 2 = some key.wallet := by
  rw [_parseRedisKeyIntoComponents, key.split_text]
  exact congrArg some String.ofList_toList

theorem OutcomeKey.parse_outcome :
    _parseRedisKeyIntoComponents key.text 5 = some key.outcome.value := by
  rw [_parseRedisKeyIntoComponents, key.split_text]
  exact congrArg some String.ofList_toList

theorem Outcome.value_injective : Function.Injective Outcome.value := by
  intro first second h
  cases first <;> cases second <;> first | rfl | (revert h; decide)

/-- Records under different names have different keys. -/
theorem OutcomeKey.text_injective : Function.Injective OutcomeKey.text := by
  intro first second h
  have hparts : RedisKeyPrefix.toList :: first.parts = RedisKeyPrefix.toList :: second.parts := by
    rw [← first.split_text, ← second.split_text, h]
  cases first
  cases second
  simp only [parts, cons.injEq, String.toList_inj, and_true, true_and] at hparts
  obtain ⟨rfl, rfl, rfl, rfl, houtcome⟩ := hparts
  obtain rfl := Outcome.value_injective houtcome
  rfl

instance : DecidableEq OutcomeKey := fun first second ↦
  decidable_of_iff (first.text = second.text)
    ⟨fun h ↦ OutcomeKey.text_injective h, fun h ↦ congrArg OutcomeKey.text h⟩

/-! ### The scan -/

/-- What `MATCH` does with the pattern of a day, whose stars stand for any text. -/
def MatchesDay (glob : String → String → Bool) (today : String) : Prop :=
  ∀ key, glob (_getRedisKeyPattern today ⟨none, none, none, none, none⟩) key = true ↔
    ∃ secondary wallet syncType outcome : String, key =
      RedisKeyPrefix ++ ":::" ++ secondary ++ ":::" ++ wallet ++ ":::" ++ syncType ++ ":::" ++
        today ++ ":::" ++ outcome

/-- The keys the pattern of a day finds are those of the day's records. -/
theorem MatchesDay.text_iff (hglob : MatchesDay glob today) (key : OutcomeKey) :
    glob (_getRedisKeyPattern today ⟨none, none, none, none, none⟩) key.text = true ↔
      key.date = today := by
  rw [hglob]
  constructor
  · rintro ⟨secondary, wallet, syncType, outcome, htext⟩
    have hjoined : Joined.joined ":::".toList key.parts = Joined.joined ":::".toList
        [secondary.toList, wallet.toList, syncType.toList, today.toList, outcome.toList] := by
      have hlist := congrArg String.toList htext
      rw [key.toList_text] at hlist
      simp only [String.toList_append, append_assoc] at hlist
      rw [append_cancel_left hlist]
      simp only [Joined.joined_cons, Joined.joined_nil, append_assoc, append_nil]
    have hparts := Joined.eq_of_joined_eq separator_ne_nil key.clean_parts hjoined rfl
    simp only [OutcomeKey.parts, cons.injEq, String.toList_inj] at hparts
    exact hparts.2.2.2.1
  · rintro rfl
    exact ⟨key.secondary, key.wallet, key.syncType, key.outcome.value, rfl⟩

/-- The counters of the records. -/
def toRedis (contents : Dict OutcomeKey ℕ) : Redis :=
  contents.mapKeys OutcomeKey.text OutcomeKey.text_injective

/-- A wallet of the list stands somewhere in the key. -/
def mentions (wallets : List String) (key : String) : Bool :=
  wallets.any fun wallet ↦ decide (wallet.toList <:+: key.toList)

/-- The records of the day whose keys mention a wallet. -/
def found (contents : Dict OutcomeKey ℕ) (today : String) (wallets : List String) :
    List (OutcomeKey × ℕ) :=
  contents.items.filter fun record ↦
    decide (record.1.date = today) && mentions wallets record.1.text

theorem OutcomeKey.text_ne_empty : key.text ≠ "" := by
  intro h
  have hlist := congrArg String.toList h
  rw [key.toList_text] at hlist
  exact absurd (append_eq_nil_iff.mp hlist).1 (by decide)

theorem batchGetSyncRequestOutcomeMetricsForToday_eq (hglob : MatchesDay glob today)
    (contents : Dict OutcomeKey ℕ) (wallets : List String) :
    batchGetSyncRequestOutcomeMetricsForToday glob today (toRedis contents) wallets =
      (found contents today wallets).map fun record ↦ (record.1.text, record.2) := by
  have hkeys : _getAllKeysMatchingPattern glob (toRedis contents)
      (_getRedisKeyPattern today ⟨none, none, none, none, none⟩) (mentions wallets) =
      (found contents today wallets).map fun record ↦ record.1.text := by
    unfold _getAllKeysMatchingPattern toRedis Dict.mapKeys found
    simp only [map_map, filter_map, filter_filter]
    refine congrArg _ (filter_congr ?_)
    intro record _
    simp only [Function.comp_apply, record.1.text_ne_empty, ne_eq, not_false_eq_true, decide_true,
      Bool.true_and]
    rw [Bool.and_comm]
    congr 1
    rw [Bool.eq_iff_iff, hglob.text_iff, decide_eq_true_iff]
  change (_getAllKeysMatchingPattern glob (toRedis contents) _ (mentions wallets)).filterMap _ = _
  rw [hkeys, filterMap_map, ← filterMap_eq_map]
  apply filterMap_congr
  intro record hrecord
  have hmem : (record.1.text, record.2) ∈ (toRedis contents).items :=
    mem_map_of_mem (mem_of_mem_filter hrecord)
  simp only [Function.comp_apply, (Dict.mem_items _ _ _).mp hmem, Option.map_some]

/-! ### Adding up -/

/-- The total of the records of a secondary, a user and an outcome. -/
def total (records : List (OutcomeKey × ℕ)) (secondary wallet : String) (outcome : Outcome) : ℕ :=
  ((records.filter fun record ↦ decide (record.1.secondary = secondary ∧
    record.1.wallet = wallet ∧ record.1.outcome = outcome)).map Prod.snd).sum

/-- The count recorded on a day for a secondary, a user and an outcome, over all sync types. -/
def recordedToday (contents : Dict OutcomeKey ℕ) (today secondary wallet : String)
    (outcome : Outcome) : ℕ :=
  total (contents.items.filter fun record ↦ decide (record.1.date = today)) secondary wallet outcome

theorem total_cons (record : OutcomeKey × ℕ) (records : List (OutcomeKey × ℕ))
    (secondary wallet : String) (outcome : Outcome) :
    total (record :: records) secondary wallet outcome =
      (if record.1.secondary = secondary ∧ record.1.wallet = wallet ∧ record.1.outcome = outcome
        then record.2 else 0) + total records secondary wallet outcome := by
  unfold total
  rw [filter_cons]
  by_cases h : record.1.secondary = secondary ∧ record.1.wallet = wallet ∧
      record.1.outcome = outcome
  · rw [if_pos (decide_eq_true h), if_pos h, map_cons, sum_cons]
  · rw [if_neg (by simpa using h), if_neg h, Nat.zero_add]

/-- The key of a record mentions its wallet. -/
theorem mentions_wallet {key : OutcomeKey} (h : key.wallet ∈ wallets) :
    mentions wallets key.text = true := by
  rw [mentions, any_eq_true]
  refine ⟨key.wallet, h, decide_eq_true ?_⟩
  rw [key.toList_text]
  refine ⟨RedisKeyPrefix.toList ++ (":::".toList ++ key.secondary.toList ++ ":::".toList),
    Joined.joined ":::".toList [key.syncType.toList, key.date.toList, key.outcome.value.toList],
    ?_⟩
  simp only [OutcomeKey.parts, Joined.joined_cons, Joined.joined_nil, append_assoc]

/-- The wallets asked for lose none of their records. -/
theorem total_found {wallet : String} (h : wallet ∈ wallets) (secondary : String)
    (outcome : Outcome) :
    total (found contents today wallets) secondary wallet outcome =
      recordedToday contents today secondary wallet outcome := by
  unfold recordedToday total found
  rw [filter_filter, filter_filter]
  congr 2
  apply filter_congr
  intro record _
  by_cases hrecord : record.1.secondary = secondary ∧ record.1.wallet = wallet ∧
      record.1.outcome = outcome
  · have hmentions : mentions wallets record.1.text = true :=
      mentions_wallet (hrecord.2.1.symm ▸ h)
    rw [hmentions, Bool.and_true]
  · rw [decide_eq_false hrecord, Bool.false_and, Bool.false_and]

/-! ### The loops -/

/-- A secondary is asked for under a wallet. -/
def Asked (mapping : Dict String (List String)) (wallet secondary : String) : Prop :=
  ∃ secondaries, mapping.get? wallet = some secondaries ∧ secondary ∈ secondaries

/-- Every wallet asked for has a secondary. -/
def HasSecondaries (mapping : Dict String (List String)) : Prop :=
  ∀ wallet secondaries, mapping.get? wallet = some secondaries → secondaries ≠ []

variable (wallet secondary : String)

theorem initialEntry_find? (secondaries : List String) (wallet' secondary : String) :
    NestedDict.find? (initialEntry metrics (wallet, secondaries)) wallet' secondary =
      if wallet = wallet' ∧ secondary ∈ secondaries then some ⟨0, 0, 1⟩
      else NestedDict.find? metrics wallet' secondary := by
  unfold initialEntry
  induction secondaries generalizing metrics with
  | nil => simp
  | cons first rest ih =>
    rw [foldl_cons, ih, NestedDict.find?_setEntry]
    by_cases hwallet : wallet = wallet'
    · by_cases hrest : secondary ∈ rest
      · simp [hwallet, hrest]
      · by_cases hfirst : first = secondary
        · simp [hwallet, hfirst]
        · simp [hwallet, hrest, hfirst, Ne.symm hfirst]
    · simp [hwallet]

theorem initialEntry_get? (secondaries : List String) (wallet' : String) :
    ((initialEntry metrics (wallet, secondaries)).get? wallet').isSome ↔
      (wallet = wallet' ∧ secondaries ≠ []) ∨ (metrics.get? wallet').isSome := by
  unfold initialEntry
  induction secondaries generalizing metrics with
  | nil => simp
  | cons first rest ih =>
    rw [foldl_cons, ih, NestedDict.setEntry, Dict.get?_set]
    by_cases hwallet : wallet = wallet'
    · simp [hwallet]
    · simp [hwallet]

theorem foldl_initialEntry_find? (metrics : UserSecondarySyncMetrics) :
    NestedDict.find? (entries.foldl initialEntry start) wallet secondary = some metrics ↔
      ((∃ entry ∈ entries, entry.1 = wallet ∧ secondary ∈ entry.2) ∧ metrics = ⟨0, 0, 1⟩) ∨
      ((∀ entry ∈ entries, ¬ (entry.1 = wallet ∧ secondary ∈ entry.2)) ∧
        NestedDict.find? start wallet secondary = some metrics) := by
  induction entries generalizing start with
  | nil => simp
  | cons entry entries ih =>
    rw [foldl_cons, ih, initialEntry_find?]
    simp only [forall_mem_cons, exists_mem_cons_iff]
    by_cases hentry : entry.1 = wallet ∧ secondary ∈ entry.2
    · rw [if_pos hentry]
      constructor
      · rintro (⟨-, hzero⟩ | ⟨-, hzero⟩)
        · exact .inl ⟨.inl hentry, hzero⟩
        · exact .inl ⟨.inl hentry, (Option.some.inj hzero).symm⟩
      · rintro (⟨-, hzero⟩ | ⟨⟨hnot, -⟩, -⟩)
        · by_cases hrest : ∃ entry ∈ entries, entry.1 = wallet ∧ secondary ∈ entry.2
          · exact .inl ⟨hrest, hzero⟩
          · exact .inr ⟨fun other hmem hother ↦ hrest ⟨other, hmem, hother⟩, congrArg _ hzero.symm⟩
        · exact absurd hentry hnot
    · rw [if_neg hentry]
      simp only [hentry, false_or, not_false_eq_true, true_and]

theorem foldl_initialEntry_get? :
    ((entries.foldl initialEntry start).get? wallet).isSome ↔
      (∃ entry ∈ entries, entry.1 = wallet ∧ entry.2 ≠ []) ∨ (start.get? wallet).isSome := by
  induction entries generalizing start with
  | nil => simp
  | cons entry entries ih =>
    rw [foldl_cons, ih, initialEntry_get?, exists_mem_cons_iff, or_assoc, or_left_comm]

/-- What the table starts with: an empty count for each secondary asked for. -/
theorem initialMetrics_find? (metrics : UserSecondarySyncMetrics) :
    NestedDict.find? (initialMetrics mapping) wallet secondary = some metrics ↔
      Asked mapping wallet secondary ∧ metrics = ⟨0, 0, 1⟩ := by
  unfold initialMetrics Asked
  rw [foldl_initialEntry_find?, NestedDict.find?_empty]
  simp only [reduceCtorEq, and_false, or_false, ← Dict.mem_items, Prod.exists]
  constructor
  · rintro ⟨⟨_, secondaries, hmem, rfl, hsecondary⟩, hzero⟩
    exact ⟨⟨secondaries, hmem, hsecondary⟩, hzero⟩
  · rintro ⟨⟨secondaries, hmem, hsecondary⟩, hzero⟩
    exact ⟨⟨wallet, secondaries, hmem, rfl, hsecondary⟩, hzero⟩

/-- Only a wallet with a secondary has an entry. -/
theorem initialMetrics_get? :
    ((initialMetrics mapping).get? wallet).isSome ↔
      ∃ secondaries, mapping.get? wallet = some secondaries ∧ secondaries ≠ [] := by
  unfold initialMetrics
  rw [foldl_initialEntry_get?]
  simp only [Dict.get?_empty, Option.isSome_none, Bool.false_eq_true, or_false, ← Dict.mem_items,
    Prod.exists]
  constructor
  · rintro ⟨_, secondaries, hmem, rfl, hne⟩
    exact ⟨secondaries, hmem, hne⟩
  · rintro ⟨secondaries, hmem, hne⟩
    exact ⟨wallet, secondaries, hmem, rfl, hne⟩

/-- The counts with those of the records added. -/
def UserSecondarySyncMetrics.addRecords (metrics : UserSecondarySyncMetrics)
    (records : List (OutcomeKey × ℕ)) (secondary wallet : String) : UserSecondarySyncMetrics :=
  { metrics with
    successCount := metrics.successCount + total records secondary wallet .SUCCESS
    failureCount := metrics.failureCount + total records secondary wallet .FAILURE }

theorem addRecords_cons (metrics : UserSecondarySyncMetrics) (key : OutcomeKey) (count : ℕ)
    (records : List (OutcomeKey × ℕ)) :
    (metrics.add (some key.outcome.value) count).addRecords records key.secondary key.wallet =
      metrics.addRecords ((key, count) :: records) key.secondary key.wallet := by
  unfold UserSecondarySyncMetrics.addRecords
  rw [total_cons, total_cons]
  cases houtcome : key.outcome with
  | SUCCESS =>
    have hadd : metrics.add (some Outcome.SUCCESS.value) count =
        { metrics with successCount := metrics.successCount + count } := if_pos rfl
    rw [hadd]
    simp [Nat.add_assoc]
  | FAILURE =>
    have hadd : metrics.add (some Outcome.FAILURE.value) count =
        { metrics with failureCount := metrics.failureCount + count } := by
      unfold UserSecondarySyncMetrics.add
      rw [if_neg (by decide), if_pos rfl]
    rw [hadd]
    simp [Nat.add_assoc]

theorem addRecords_cons_of_ne (metrics : UserSecondarySyncMetrics) (record : OutcomeKey × ℕ)
    (records : List (OutcomeKey × ℕ)) {secondary wallet : String}
    (h : ¬ (record.1.secondary = secondary ∧ record.1.wallet = wallet)) :
    metrics.addRecords (record :: records) secondary wallet =
      metrics.addRecords records secondary wallet := by
  unfold UserSecondarySyncMetrics.addRecords
  rw [total_cons, total_cons, if_neg fun hall ↦ h ⟨hall.1, hall.2.1⟩,
    if_neg fun hall ↦ h ⟨hall.1, hall.2.1⟩, Nat.zero_add, Nat.zero_add]

/-- The table with one record added, if its secondary is asked for. -/
def addRecord (metrics : UserSecondarySyncMetricsMap) (key : OutcomeKey) (count : ℕ) :
    UserSecondarySyncMetricsMap :=
  match NestedDict.find? metrics key.wallet key.secondary with
  | none => metrics
  | some counts =>
    NestedDict.setEntry metrics key.wallet key.secondary (counts.add (some key.outcome.value) count)

theorem addRecord_find? :
    NestedDict.find? (addRecord metrics key count) wallet secondary =
      if key.wallet = wallet ∧ key.secondary = secondary then
        (NestedDict.find? metrics wallet secondary).map (·.add (some key.outcome.value) count)
      else NestedDict.find? metrics wallet secondary := by
  unfold addRecord
  cases hcounts : NestedDict.find? metrics key.wallet key.secondary with
  | none =>
    simp only
    split
    · next heq =>
      rw [← heq.1, ← heq.2, hcounts]
      rfl
    · rfl
  | some counts =>
    simp only [NestedDict.find?_setEntry]
    split
    · next heq =>
      rw [← heq.1, ← heq.2, hcounts]
      rfl
    · rfl

theorem addRecord_get? :
    ((addRecord metrics key count).get? wallet).isSome = (metrics.get? wallet).isSome := by
  unfold addRecord
  cases hcounts : NestedDict.find? metrics key.wallet key.secondary with
  | none => rfl
  | some counts =>
    simp only [NestedDict.setEntry, Dict.get?_set]
    split
    · next heq =>
      obtain ⟨inner, hinner, -⟩ := Option.bind_eq_some_iff.mp hcounts
      rw [← heq, hinner]
      rfl
    · rfl

/-- One record of the loop. -/
theorem aggregate_cons (rest : List (String × ℕ)) :
    aggregate metrics ((key.text, count) :: rest) =
      if (metrics.get? key.wallet).isSome then aggregate (addRecord metrics key count) rest
      else .error ("Cannot use 'in' operator to search for '" ++ key.secondary ++
        "' in undefined") := by
  rw [aggregate]
  simp only [key.parse_wallet, key.parse_secondary, key.parse_outcome, Option.bind_some]
  unfold addRecord NestedDict.find?
  cases hinner : metrics.get? key.wallet with
  | none => rfl
  | some inner =>
    simp only [Option.isSome_some, if_true, Option.bind_some]
    cases hcounts : inner.get? key.secondary with
    | none => rfl
    | some counts => rfl

/-- The loop goes through when each record's wallet has an entry. -/
theorem aggregate_ok_iff (records : List (OutcomeKey × ℕ)) (metrics : UserSecondarySyncMetricsMap) :
    (∃ after, aggregate metrics (records.map fun record ↦ (record.1.text, record.2)) = .ok after) ↔
      ∀ record ∈ records, (metrics.get? record.1.wallet).isSome := by
  induction records generalizing metrics with
  | nil => simp [aggregate]
  | cons record records ih =>
    rw [map_cons, aggregate_cons, forall_mem_cons]
    by_cases hwallet : (metrics.get? record.1.wallet).isSome
    · simp only [hwallet, if_true, true_and, ih, addRecord_get?]
    · simp [hwallet]

theorem aggregate_get? {records : List (OutcomeKey × ℕ)} {metrics after : UserSecondarySyncMetricsMap}
    (h : aggregate metrics (records.map fun record ↦ (record.1.text, record.2)) = .ok after)
    (wallet : String) : (after.get? wallet).isSome = (metrics.get? wallet).isSome := by
  induction records generalizing metrics with
  | nil =>
    cases h
    rfl
  | cons record records ih =>
    rw [map_cons, aggregate_cons] at h
    split at h
    · rw [ih h, addRecord_get?]
    · cases h

/-- What the loop leaves: every count with its records added. -/
theorem aggregate_find? {records : List (OutcomeKey × ℕ)}
    {metrics after : UserSecondarySyncMetricsMap}
    (h : aggregate metrics (records.map fun record ↦ (record.1.text, record.2)) = .ok after)
    (wallet secondary : String) :
    NestedDict.find? after wallet secondary =
      (NestedDict.find? metrics wallet secondary).map (·.addRecords records secondary wallet) := by
  induction records generalizing metrics with
  | nil =>
    cases h
    exact Option.map_id'.symm
  | cons record records ih =>
    rw [map_cons, aggregate_cons] at h
    split at h
    · rw [ih h, addRecord_find?]
      split
      · next heq =>
        rw [Option.map_map, ← heq.1, ← heq.2]
        refine congrArg (Option.map · _) (funext fun counts ↦ ?_)
        exact addRecords_cons counts record.1 record.2 records
      · next hne =>
        refine congrArg (Option.map · _) (funext fun counts ↦ ?_)
        exact (addRecords_cons_of_ne counts record records fun heq ↦ hne ⟨heq.2, heq.1⟩).symm
    · cases h

/-- The rates are computed when every wallet has an entry. -/
theorem computeRates_ok_iff (wallets : List String) (metrics : UserSecondarySyncMetricsMap) :
    (∃ after, computeRates metrics wallets = .ok after) ↔
      ∀ wallet ∈ wallets, (metrics.get? wallet).isSome := by
  induction wallets generalizing metrics with
  | nil => simp [computeRates]
  | cons wallet wallets ih =>
    rw [computeRates, forall_mem_cons]
    cases hinner : metrics.get? wallet with
    | none => simp
    | some inner =>
      simp only [ih, Option.isSome_some, true_and, Dict.get?_set]
      refine forall_congr' fun other ↦ forall_congr' fun _ ↦ ?_
      split
      · next heq => simp [← heq, hinner]
      · rfl

/-- What the rates leave: the counts, each with its rate. -/
theorem computeRates_find? {metrics after : UserSecondarySyncMetricsMap}
    (h : computeRates metrics wallets = .ok after) (wallet secondary : String) :
    NestedDict.find? after wallet secondary =
      if wallet ∈ wallets then (NestedDict.find? metrics wallet secondary).map (·.withRate)
      else NestedDict.find? metrics wallet secondary := by
  induction wallets generalizing metrics with
  | nil =>
    cases h
    rfl
  | cons first wallets ih =>
    rw [computeRates] at h
    split at h
    · cases h
    · next inner hinner =>
      rw [ih h]
      have hset : NestedDict.find? (metrics.set first (inner.mapValues (·.withRate))) wallet
          secondary =
          if first = wallet then (NestedDict.find? metrics wallet secondary).map (·.withRate)
          else NestedDict.find? metrics wallet secondary := by
        unfold NestedDict.find?
        rw [Dict.get?_set]
        split
        · next heq => rw [← heq, hinner, Option.bind_some, Option.bind_some, Dict.get?_mapValues]
        · rfl
      rw [hset]
      have htwice : (fun counts : UserSecondarySyncMetrics ↦ counts.withRate.withRate) =
          fun counts ↦ counts.withRate := rfl
      by_cases heq : first = wallet
      · simp only [heq, if_true, mem_cons, true_or, Option.map_map, Function.comp_def, htwice,
          ite_self]
      · simp only [heq, Ne.symm heq, if_false, mem_cons, false_or]

/-! ### The rates of the day -/

/-- The result covers what was asked for, and only that, with the counts recorded. -/
structure RatesExact (contents : Dict OutcomeKey ℕ) (today : String)
    (mapping : Dict String (List String)) (rates : UserSecondarySyncMetricsMap) : Prop where
  pairs : ∀ wallet secondary,
    (NestedDict.find? rates wallet secondary).isSome ↔ Asked mapping wallet secondary
  counts : ∀ wallet secondary metrics, NestedDict.find? rates wallet secondary = some metrics →
    metrics.successCount = recordedToday contents today secondary wallet .SUCCESS ∧
    metrics.failureCount = recordedToday contents today secondary wallet .FAILURE
  rate : ∀ wallet secondary metrics, NestedDict.find? rates wallet secondary = some metrics →
    recordedToday contents today secondary wallet .SUCCESS = 0 →
    recordedToday contents today secondary wallet .FAILURE = 0 → metrics.successRate = 1

/-- Every record of the day whose key mentions a wallet asked for is of a wallet asked for. -/
def MentionsAsked (contents : Dict OutcomeKey ℕ) (today : String)
    (mapping : Dict String (List String)) : Prop :=
  ∀ record ∈ contents.items, record.1.date = today →
    mentions (mapping.items.map Prod.fst) record.1.text = true →
    ∃ secondaries, mapping.get? record.1.wallet = some secondaries

theorem mem_wallets_iff :
    wallet ∈ mapping.items.map Prod.fst ↔ ∃ secondaries, mapping.get? wallet = some secondaries := by
  rw [mem_map]
  constructor
  · rintro ⟨entry, hmem, rfl⟩
    exact ⟨entry.2, (Dict.mem_items _ _ _).mp hmem⟩
  · rintro ⟨secondaries, hget⟩
    exact ⟨(wallet, secondaries), (Dict.mem_items _ _ _).mpr hget, rfl⟩

/-- The function over the records found. -/
theorem computeUsersSecondarySyncSuccessRatesForToday_eq (hglob : MatchesDay glob today)
    (contents : Dict OutcomeKey ℕ) (mapping : Dict String (List String)) :
    computeUsersSecondarySyncSuccessRatesForToday glob today (toRedis contents) mapping =
      match aggregate (initialMetrics mapping)
        ((found contents today (mapping.items.map Prod.fst)).map
          fun record ↦ (record.1.text, record.2)) with
      | .error message => .error message
      | .ok metrics => computeRates metrics (mapping.items.map Prod.fst) := by
  rw [← batchGetSyncRequestOutcomeMetricsForToday_eq hglob]
  rfl

/-- The function returns when each wallet has a secondary and the records found are theirs. -/
theorem computeRates_returns_iff (hglob : MatchesDay glob today) (contents : Dict OutcomeKey ℕ)
    (mapping : Dict String (List String)) :
    (∃ rates, computeUsersSecondarySyncSuccessRatesForToday glob today (toRedis contents) mapping =
        .ok rates) ↔
      HasSecondaries mapping ∧ MentionsAsked contents today mapping := by
  rw [computeUsersSecondarySyncSuccessRatesForToday_eq hglob]
  have hrecords := aggregate_ok_iff (found contents today (mapping.items.map Prod.fst))
    (initialMetrics mapping)
  simp only [initialMetrics_get?] at hrecords
  constructor
  · rintro ⟨rates, hrates⟩
    split at hrates
    · cases hrates
    · next metrics hmetrics =>
      have hwallets := (computeRates_ok_iff _ _).mp ⟨rates, hrates⟩
      have hfound := hrecords.mp ⟨metrics, hmetrics⟩
      constructor
      · intro wallet secondaries hget
        have hentry := hwallets wallet ((mem_wallets_iff mapping wallet).mpr ⟨secondaries, hget⟩)
        rw [aggregate_get? hmetrics, initialMetrics_get?] at hentry
        obtain ⟨secondaries', hget', hne⟩ := hentry
        rw [hget] at hget'
        exact Option.some.inj hget' ▸ hne
      · intro record hrecord htoday hmentions
        have hmem : record ∈ found contents today (mapping.items.map Prod.fst) :=
          mem_filter.mpr ⟨hrecord, by rw [hmentions, htoday, decide_eq_true rfl]; rfl⟩
        obtain ⟨secondaries, hget, -⟩ := hfound record hmem
        exact ⟨secondaries, hget⟩
  · rintro ⟨hsecondaries, hmentions⟩
    have hfound : ∀ record ∈ found contents today (mapping.items.map Prod.fst),
        ∃ secondaries, mapping.get? record.1.wallet = some secondaries ∧ secondaries ≠ [] := by
      intro record hrecord
      obtain ⟨hmem, htest⟩ := mem_filter.mp hrecord
      rw [Bool.and_eq_true, decide_eq_true_iff] at htest
      obtain ⟨secondaries, hget⟩ := hmentions record hmem htest.1 htest.2
      exact ⟨secondaries, hget, hsecondaries _ _ hget⟩
    obtain ⟨metrics, hmetrics⟩ := hrecords.mpr hfound
    rw [hmetrics]
    refine (computeRates_ok_iff _ _).mpr ?_
    intro wallet hwallet
    obtain ⟨secondaries, hget⟩ := (mem_wallets_iff mapping wallet).mp hwallet
    rw [aggregate_get? hmetrics, initialMetrics_get?]
    exact ⟨secondaries, hget, hsecondaries _ _ hget⟩

/-- What the function returns is exact. -/
theorem ratesExact_of_ok (hglob : MatchesDay glob today) {mapping : Dict String (List String)}
    {rates : UserSecondarySyncMetricsMap}
    (h : computeUsersSecondarySyncSuccessRatesForToday glob today (toRedis contents) mapping =
      .ok rates) :
    RatesExact contents today mapping rates := by
  rw [computeUsersSecondarySyncSuccessRatesForToday_eq hglob] at h
  split at h
  · cases h
  · next metrics hmetrics =>
    have hfind : ∀ wallet secondary result,
        NestedDict.find? rates wallet secondary = some result ↔
          Asked mapping wallet secondary ∧
            result = ((⟨0, 0, 1⟩ : UserSecondarySyncMetrics).addRecords
              (found contents today (mapping.items.map Prod.fst)) secondary wallet).withRate := by
      intro wallet secondary result
      rw [computeRates_find? h, aggregate_find? hmetrics]
      split
      · rw [Option.map_map, Option.map_eq_some_iff]
        simp only [initialMetrics_find?, Function.comp_apply]
        constructor
        · rintro ⟨counts, ⟨hasked, rfl⟩, rfl⟩
          exact ⟨hasked, rfl⟩
        · rintro ⟨hasked, rfl⟩
          exact ⟨_, ⟨hasked, rfl⟩, rfl⟩
      · next hnot =>
        have hnone : ¬ Asked mapping wallet secondary := fun ⟨secondaries, hget, _⟩ ↦
          hnot ((mem_wallets_iff mapping wallet).mpr ⟨secondaries, hget⟩)
        rw [Option.map_eq_some_iff]
        simp only [initialMetrics_find?, hnone, false_and, exists_false]
    have htotal : ∀ {wallet secondary : String}, Asked mapping wallet secondary → ∀ outcome,
        total (found contents today (mapping.items.map Prod.fst)) secondary wallet outcome =
          recordedToday contents today secondary wallet outcome :=
      fun ⟨secondaries, hget, _⟩ outcome ↦
        total_found ((mem_wallets_iff mapping _).mpr ⟨secondaries, hget⟩) _ outcome
    refine ⟨?_, ?_, ?_⟩
    · intro wallet secondary
      rw [Option.isSome_iff_exists]
      simp only [hfind, exists_and_left, exists_eq, and_true]
    · intro wallet secondary result hresult
      obtain ⟨hasked, rfl⟩ := (hfind wallet secondary result).mp hresult
      rw [← htotal hasked, ← htotal hasked]
      exact ⟨Nat.zero_add _, Nat.zero_add _⟩
    · intro wallet secondary result hresult _ hnone
      obtain ⟨hasked, rfl⟩ := (hfind wallet secondary result).mp hresult
      rw [← htotal hasked] at hnone
      have hfailures : 0 + total (found contents today (mapping.items.map Prod.fst)) secondary wallet
          .FAILURE = 0 := by rw [hnone]
      exact if_pos hfailures

/-- **Success rates**: the function returns, and exactly what was recorded, where each wallet has a
secondary and no key of another wallet mentions one that is asked for. -/
theorem computeUsersSecondarySyncSuccessRatesForToday_exact_iff {glob : String → String → Bool}
    {today : String} (hglob : MatchesDay glob today) (contents : Dict OutcomeKey ℕ)
    (mapping : Dict String (List String)) :
    (∃ rates, computeUsersSecondarySyncSuccessRatesForToday glob today (toRedis contents) mapping =
        .ok rates ∧ RatesExact contents today mapping rates) ↔
      HasSecondaries mapping ∧ MentionsAsked contents today mapping := by
  rw [← computeRates_returns_iff hglob]
  constructor
  · rintro ⟨rates, hrates, -⟩
    exact ⟨rates, hrates⟩
  · rintro ⟨rates, hrates⟩
    exact ⟨rates, hrates, ratesExact_of_ok hglob hrates⟩

/-- `MATCH` for patterns of stars and letters that stand for themselves. -/
def starGlob (pattern key : String) : Bool := Joined.starMatch '*' pattern.toList key.toList

/-- Such a `MATCH` finds the keys of a day. -/
theorem matchesDay_starGlob (h : '*' ∉ today.toList) :
    MatchesDay starGlob today := by
  intro key
  have hpattern : (_getRedisKeyPattern today ⟨none, none, none, none, none⟩).toList =
      (RedisKeyPrefix ++ ":::").toList ++ '*' :: (":::".toList ++ '*' :: (":::".toList ++ '*' ::
        ((":::" ++ today ++ ":::").toList ++ '*' :: []))) := by
    simp only [_getRedisKeyPattern, String.toList_append, Option.getD_none, append_assoc]
    rfl
  have hdate : '*' ∉ (":::" ++ today ++ ":::").toList := by
    simp only [String.toList_append, mem_append, not_or]
    exact ⟨⟨by decide, h⟩, by decide⟩
  have hseparator : '*' ∉ ":::".toList := by decide
  have hprefix : '*' ∉ (RedisKeyPrefix ++ ":::").toList := by decide
  have hend : ∀ text : List Char, ∃ passed rest, text = passed ++ rest ∧
      Joined.starMatch '*' [] rest = true :=
    fun text ↦ ⟨text, [], (append_nil _).symm, rfl⟩
  unfold starGlob
  rw [hpattern]
  simp only [Joined.starMatch_literal hprefix, Joined.starMatch_star,
    Joined.starMatch_literal hseparator, Joined.starMatch_literal hdate, hend, and_true]
  constructor
  · rintro ⟨_, hkey, secondary, _, rfl, _, rfl, wallet, _, rfl, _, rfl, syncType, _, rfl, outcome,
      rfl⟩
    refine ⟨String.ofList secondary, String.ofList wallet, String.ofList syncType,
      String.ofList outcome, String.toList_inj.mp ?_⟩
    rw [hkey]
    simp only [String.toList_append, String.toList_ofList, append_assoc]
  · rintro ⟨secondary, wallet, syncType, outcome, rfl⟩
    refine ⟨_, ?_, secondary.toList, _, rfl, _, rfl, wallet.toList, _, rfl, _, rfl,
      syncType.toList, _, rfl, outcome.toList, rfl⟩
    simp only [String.toList_append, append_assoc]

/-- A user with one secondary and one failure today. -/
theorem computeUsersSecondarySyncSuccessRatesForToday_exact_one :
    let key : OutcomeKey := ⟨"http://s1.co", "0xa", "RECURRING", "2022-11-01", .FAILURE, by decide⟩
    let mapping : Dict String (List String) := Dict.empty.set "0xa" ["http://s1.co"]
    ∃ rates, computeUsersSecondarySyncSuccessRatesForToday starGlob "2022-11-01"
        (toRedis (Dict.empty.set key 1)) mapping = .ok rates ∧
      RatesExact (Dict.empty.set key 1) "2022-11-01" mapping rates := by
  intro key mapping
  refine (computeUsersSecondarySyncSuccessRatesForToday_exact_iff
    (matchesDay_starGlob (by decide)) (Dict.empty.set key 1) mapping).mpr ⟨?_, ?_⟩
  · intro wallet secondaries hget
    rw [Dict.get?_set, Dict.get?_empty] at hget
    split at hget
    · cases hget
      exact List.cons_ne_nil _ _
    · cases hget
  · intro record hrecord _ _
    rw [List.mem_singleton.mp hrecord]
    exact ⟨["http://s1.co"], rfl⟩

/-- A user without secondaries makes the function throw. -/
theorem computeUsersSecondarySyncSuccessRatesForToday_throws :
    ¬ ∀ (glob : String → String → Bool) (today : String), MatchesDay glob today →
      ∀ (contents : Dict OutcomeKey ℕ) (mapping : Dict String (List String)),
        ∃ rates, computeUsersSecondarySyncSuccessRatesForToday glob today (toRedis contents)
            mapping = .ok rates ∧ RatesExact contents today mapping rates := by
  intro hexact
  have hglob : MatchesDay starGlob "2022-11-01" := matchesDay_starGlob (by decide)
  obtain ⟨rates, hrates, -⟩ := hexact starGlob "2022-11-01" hglob Dict.empty
    (Dict.empty.set "0xa" [])
  have hsecondaries := ((computeRates_returns_iff hglob _ _).mp ⟨rates, hrates⟩).1
  exact hsecondaries "0xa" [] rfl rfl

end SecondarySyncHealthTracker

end ColivingSpec
