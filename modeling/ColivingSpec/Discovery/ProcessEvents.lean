import ColivingSpec.Discovery.ChallengeEventBus
import ColivingSpec.Lib.Dict

/-!
# Processing challenge events

`challenge_event_bus.py`: a task takes the first entries off the Redis list, parses them, groups the
events by type and calls each manager that listens to a type with the events of the type. The
module follows `process_events` while handlers go on pushing to the end of the list, and says
when it delivers each event it takes exactly once.
-/

namespace ColivingSpec.Discovery

open List

namespace ChallengeEventBus

variable {Entry EventType Metadata Manager : Type}

/-- `_listeners`: the managers that listen to an event type, in the order they registered. -/
structure Listeners (EventType Manager : Type) where
  managers : EventType → List Manager
  nodup : ∀ event, (managers event).Nodup

/-- A call of a manager's `process`. -/
structure Call (EventType Metadata Manager : Type) where
  listener : Manager
  event : EventType
  metadatas : List Metadata
  deriving DecidableEq

/-- What one run of `process_events` leaves: the list, the calls in their order and what it
returns. -/
structure Processed (Entry EventType Metadata Manager : Type) where
  redisQueue : List Entry
  calls : List (Call EventType Metadata Manager)
  returned : ℤ × Bool

variable (queue : List Entry)

/-- `LRANGE key 0 stop`: both bounds are inclusive, and a negative one counts from the end. -/
def lrange (stop : ℤ) : List Entry :=
  queue.take ((if stop < 0 then stop + queue.length else stop) + 1).toNat

/-- `LTRIM key start -1`. -/
def ltrim (start : ℕ) : List Entry := queue.drop start

variable [DecidableEq EventType]

variable (events : List (EventType × Metadata)) (listeners : Listeners EventType Manager)
  (event : EventType)

/-- `challenge_event_bus.py:151–166`: the events by type, each type where it came first. -/
def eventUserDict : Lib.Dict EventType (List Metadata) :=
  events.foldl (fun dict event ↦ dict.set event.1 ((dict.get? event.1).getD [] ++ [event.2]))
    Lib.Dict.empty

/-- The calls for the groups: `challenge_event_bus.py:172–175`. -/
def callsOf (groups : List (EventType × List Metadata)) :
    List (Call EventType Metadata Manager) :=
  groups.flatMap fun group ↦ (listeners.managers group.1).map (⟨·, group.1, group.2⟩)

/-- `challenge_event_bus.py:135–183`. An entry that `json.loads` does not take, or that lacks a key,
has no event; `raises` says which calls raise, and `arrived` is what is pushed between the read
and the trim. -/
def processEvents (jsonToEvent : Entry → Option (EventType × Metadata))
    (raises : Call EventType Metadata Manager → Bool) (queue arrived : List Entry) (maxEvents : ℤ) :
    Processed Entry EventType Metadata Manager :=
  let eventsJson := lrange queue maxEvents
  let trimmed := ltrim (queue ++ arrived) eventsJson.length
  match eventsJson.mapM jsonToEvent with
  | none => ⟨trimmed, [], (-1, true)⟩
  | some events =>
    let calls := callsOf listeners (eventUserDict events).items
    ⟨trimmed, calls, (eventsJson.length, calls.any raises)⟩

/-! ### Grouping -/

/-- The events of a type, in their order. -/
def ofType (events : List (EventType × Metadata)) : List Metadata :=
  (events.filter (·.1 = event)).map Prod.snd

theorem get?_eventUserDict :
    ((eventUserDict events).get? event).getD [] = ofType event events := by
  have hfold : ∀ (dict : Lib.Dict EventType (List Metadata)),
      ((events.foldl (fun dict event ↦
          dict.set event.1 ((dict.get? event.1).getD [] ++ [event.2])) dict).get? event).getD [] =
        (dict.get? event).getD [] ++ ofType event events := by
    induction events with
    | nil => exact fun dict ↦ (append_nil _).symm
    | cons first rest ih =>
      intro dict
      rw [foldl_cons, ih, Lib.Dict.get?_set]
      unfold ofType
      by_cases htype : first.1 = event
      · rw [if_pos htype, Option.getD_some, filter_cons_of_pos (by simpa using htype), htype,
          map_cons, append_assoc]
        rfl
      · rw [if_neg htype, filter_cons_of_neg (by simpa using htype)]
  exact hfold Lib.Dict.empty

/-! ### What a run reads and calls -/

omit [DecidableEq EventType] in
/-- No more than asked for is read only from a list that has no more. -/
theorem length_lrange_le_iff (queue : List Entry) (maxEvents : ℤ) :
    ((lrange queue maxEvents).length : ℤ) ≤ maxEvents ↔ (queue.length : ℤ) ≤ maxEvents := by
  unfold lrange
  rw [length_take]
  split
  · omega
  · omega

variable {queue : List Entry} {maxEvents : ℤ} (listeners : Listeners EventType Manager)
  (jsonToEvent : Entry → Option (EventType × Metadata))
  (raises : Call EventType Metadata Manager → Bool) (arrived : List Entry)

omit [DecidableEq EventType] in
theorem lrange_eq_self (h : (queue.length : ℤ) ≤ maxEvents) : lrange queue maxEvents = queue := by
  apply take_of_length_le
  split
  · omega
  · omega

/-- What a run removes is what it read. -/
theorem processEvents_redisQueue (queue arrived : List Entry) (maxEvents : ℤ) :
    queue ++ arrived = lrange queue maxEvents ++
      (processEvents listeners jsonToEvent raises queue arrived maxEvents).redisQueue := by
  have hleft : (processEvents listeners jsonToEvent raises queue arrived maxEvents).redisQueue =
      ltrim (queue ++ arrived) (lrange queue maxEvents).length := by
    unfold processEvents
    dsimp only
    split <;> rfl
  have hread : lrange queue maxEvents =
      (queue ++ arrived).take (lrange queue maxEvents).length := by
    unfold lrange
    rw [length_take, take_append_of_le_length (Nat.min_le_right _ _), ← take_eq_take_min]
  rw [hleft]
  conv_rhs => arg 1; rw [hread]
  exact (take_append_drop _ _).symm

/-- A run with an entry that does not parse calls no manager. -/
theorem processEvents_calls_of_malformed (entry : Entry) (hentry : entry ∈ lrange queue maxEvents)
    (hmalformed : jsonToEvent entry = none) :
    (processEvents listeners jsonToEvent raises queue arrived maxEvents).calls = [] := by
  have hnone : (lrange queue maxEvents).mapM jsonToEvent = none := by
    generalize lrange queue maxEvents = read at hentry
    induction read with
    | nil => cases hentry
    | cons first rest ih =>
      rw [mapM_cons]
      rcases mem_cons.mp hentry with rfl | hrest
      · rw [hmalformed]
        rfl
      · rw [ih hrest]
        cases jsonToEvent first <;> rfl
  unfold processEvents
  dsimp only
  rw [hnone]

/-- A run whose entries parse makes the calls for their events. -/
theorem processEvents_calls_of_parsed
    (hparsed : ∀ entry ∈ lrange queue maxEvents, (jsonToEvent entry).isSome) :
    (processEvents listeners jsonToEvent raises queue arrived maxEvents).calls =
      callsOf listeners (eventUserDict ((lrange queue maxEvents).filterMap jsonToEvent)).items := by
  have hsome : (lrange queue maxEvents).mapM jsonToEvent =
      some ((lrange queue maxEvents).filterMap jsonToEvent) := by
    generalize lrange queue maxEvents = read at hparsed
    induction read with
    | nil => rfl
    | cons first rest ih =>
      obtain ⟨event, hevent⟩ := Option.isSome_iff_exists.mp (hparsed first mem_cons_self)
      rw [mapM_cons, hevent, ih fun entry h ↦ hparsed entry (mem_cons_of_mem _ h),
        filterMap_cons_some hevent]
      rfl
  unfold processEvents
  dsimp only
  rw [hsome]

/-! ### What the managers are handed -/

variable [DecidableEq Manager]

/-- The events of a type a manager is handed, call after call. -/
def handed (calls : List (Call EventType Metadata Manager)) (listener : Manager)
    (event : EventType) : List Metadata :=
  (calls.filter fun call ↦ decide (call.listener = listener ∧ call.event = event)).flatMap
    (·.metadatas)

theorem handed_append (first second : List (Call EventType Metadata Manager)) (listener : Manager)
    (event : EventType) :
    handed (first ++ second) listener event =
      handed first listener event ++ handed second listener event := by
  unfold handed
  rw [filter_append, flatMap_append]

/-- One group is handed to each manager of its type, and to nobody else. -/
theorem handed_group (managers : List Manager) (hnodup : managers.Nodup) (event : EventType)
    (metadatas : List Metadata) (listener : Manager) (event' : EventType) :
    handed (managers.map (⟨·, event, metadatas⟩)) listener event' =
      if event = event' ∧ listener ∈ managers then metadatas else [] := by
  induction managers with
  | nil => simp [handed]
  | cons manager managers ih =>
    obtain ⟨hnot, hrest⟩ := nodup_cons.mp hnodup
    rw [map_cons, ← singleton_append, handed_append, ih hrest]
    by_cases hevent : event = event'
    · by_cases hmanager : manager = listener
      · subst hmanager
        simp [handed, hevent, hnot]
      · have hne : listener ≠ manager := fun h ↦ hmanager h.symm
        simp [handed, hevent, hmanager, hne]
    · simp [handed, hevent]

theorem handed_callsOf (groups : List (EventType × List Metadata))
    (hnodup : (groups.map Prod.fst).Nodup) (listener : Manager) (event : EventType) :
    handed (callsOf listeners groups) listener event =
      if listener ∈ listeners.managers event then (Lib.Entries.get? event groups).getD []
      else [] := by
  induction groups with
  | nil => simp [callsOf, handed, Lib.Entries.get?]
  | cons group groups ih =>
    obtain ⟨hnot, hrest⟩ := nodup_cons.mp hnodup
    have hcons : callsOf listeners (group :: groups) =
        (listeners.managers group.1).map (⟨·, group.1, group.2⟩) ++ callsOf listeners groups :=
      rfl
    have hget : Lib.Entries.get? event (group :: groups) =
        if group.1 = event then some group.2 else Lib.Entries.get? event groups := rfl
    rw [hcons, handed_append, handed_group _ (listeners.nodup _), ih hrest, hget]
    by_cases hevent : group.1 = event
    · have hgone : Lib.Entries.get? event groups = none := by
        cases hget : Lib.Entries.get? event groups with
        | none => rfl
        | some metadatas =>
          have hmem := (Lib.Entries.mem_iff_get? hrest event metadatas).mpr hget
          rw [hevent] at hnot
          exact absurd (mem_map_of_mem hmem) hnot
      rw [hgone, if_pos hevent, hevent]
      by_cases hlistener : listener ∈ listeners.managers event
      · simp [hlistener]
      · simp [hlistener]
    · simp [hevent]

/-- The calls for the groups hand each manager of a type the events of the type in their order. -/
theorem handed_eventUserDict (events : List (EventType × Metadata)) (listener : Manager)
    (event : EventType) :
    handed (callsOf listeners (eventUserDict events).items) listener event =
      if listener ∈ listeners.managers event then ofType event events else [] := by
  rw [handed_callsOf listeners _ (eventUserDict events).nodup, ← get?_eventUserDict]
  rfl

/-! ### Delivery -/

/-- A run takes entries off the front of the list, at most as many as it was asked to, and hands
the events among them to each manager of their type once, in their order. -/
structure DeliversOnce (listeners : Listeners EventType Manager)
    (jsonToEvent : Entry → Option (EventType × Metadata)) (queue : List Entry) (maxEvents : ℤ)
    (done : Processed Entry EventType Metadata Manager) (removed : List Entry) : Prop where
  removes : queue = removed ++ done.redisQueue
  at_most : (removed.length : ℤ) ≤ maxEvents
  hands : ∀ (event : EventType) (listener : Manager),
    handed done.calls listener event =
      if listener ∈ listeners.managers event then ofType event (removed.filterMap jsonToEvent)
      else []

/-- A list that is no longer than what is asked for, and whose entries parse unless nobody listens,
is delivered whole. -/
theorem processEvents_deliversOnce (hlength : (queue.length : ℤ) ≤ maxEvents)
    (hentries : (∀ entry ∈ queue, (jsonToEvent entry).isSome) ∨
      ∀ entry ∈ queue, ∀ event ∈ jsonToEvent entry, listeners.managers event.1 = []) :
    DeliversOnce listeners jsonToEvent (queue ++ arrived) maxEvents
      (processEvents listeners jsonToEvent raises queue arrived maxEvents) queue := by
  have hself := lrange_eq_self hlength
  refine ⟨?_, hlength, ?_⟩
  · have hleft := processEvents_redisQueue listeners jsonToEvent raises queue arrived maxEvents
    rwa [hself] at hleft
  intro event listener
  rcases Classical.em (∀ entry ∈ queue, (jsonToEvent entry).isSome) with hparsed | hmalformed
  · rw [processEvents_calls_of_parsed listeners jsonToEvent raises arrived (by rwa [hself]), hself]
    exact handed_eventUserDict listeners _ listener event
  · have hunheard := hentries.resolve_left hmalformed
    simp only [not_forall, Option.not_isSome_iff_eq_none, exists_prop] at hmalformed
    obtain ⟨malformed, hmem, hnone⟩ := hmalformed
    rw [processEvents_calls_of_malformed listeners jsonToEvent raises arrived
      malformed (by rwa [hself]) hnone]
    split
    · next hlistener =>
      have hnil : ofType event (queue.filterMap jsonToEvent) = [] := by
        unfold ofType
        rw [map_eq_nil_iff, filter_eq_nil_iff]
        intro parsed hparsed htype
        obtain ⟨entry, hentry, hevent⟩ := mem_filterMap.mp hparsed
        have hnobody := hunheard entry hentry parsed hevent
        rw [of_decide_eq_true htype] at hnobody
        rw [hnobody] at hlistener
        cases hlistener
      rw [hnil]
      rfl
    · rfl

/-- **Processing events** delivers each event exactly once where, and only where, the list is no
longer than what is asked for, and an entry that does not parse stands among no event that
a manager listens to. -/
theorem processEvents_deliversOnce_iff (listeners : Listeners EventType Manager)
    (jsonToEvent : Entry → Option (EventType × Metadata))
    (raises : Call EventType Metadata Manager → Bool) (queue arrived : List Entry)
    (maxEvents : ℤ) :
    (∃ removed, DeliversOnce listeners jsonToEvent (queue ++ arrived) maxEvents
        (processEvents listeners jsonToEvent raises queue arrived maxEvents) removed) ↔
      (queue.length : ℤ) ≤ maxEvents ∧
        ((∀ entry ∈ queue, (jsonToEvent entry).isSome) ∨
          ∀ entry ∈ queue, ∀ event ∈ jsonToEvent entry, listeners.managers event.1 = []) := by
  refine ⟨?_, fun ⟨hlength, hentries⟩ ↦
    ⟨queue, processEvents_deliversOnce listeners jsonToEvent raises arrived hlength hentries⟩⟩
  rintro ⟨removed, hremoves, hmost, hhands⟩
  -- what is removed is what was read
  have hread : removed = lrange queue maxEvents := by
    rw [processEvents_redisQueue listeners jsonToEvent raises queue arrived maxEvents] at hremoves
    exact (List.append_cancel_right hremoves).symm
  rw [hread] at hmost hhands
  have hlength := (length_lrange_le_iff queue maxEvents).mp hmost
  have hself := lrange_eq_self hlength
  rw [hself] at hhands
  refine ⟨hlength, or_iff_not_imp_left.mpr fun hsome ↦ ?_⟩
  simp only [not_forall, Option.not_isSome_iff_eq_none, exists_prop] at hsome
  obtain ⟨malformed, hmem, hnone⟩ := hsome
  have hcalls := processEvents_calls_of_malformed listeners jsonToEvent raises arrived
    malformed (by rwa [hself]) hnone
  intro entry hentry event hevent
  apply List.eq_nil_iff_forall_not_mem.mpr
  intro listener hlistener
  have hhanded := hhands event.1 listener
  rw [hcalls, if_pos hlistener] at hhanded
  have hin : event.2 ∈ ofType event.1 (queue.filterMap jsonToEvent) := by
    apply List.mem_map_of_mem
    rw [List.mem_filter]
    exact ⟨List.mem_filterMap.mpr ⟨entry, hentry, hevent⟩, decide_eq_true rfl⟩
  rw [← hhanded] at hin
  cases hin

/-! ### A malformed entry, and one entry too many -/

/-- One manager, which listens to every type. -/
def oneManager : Listeners String Unit := ⟨fun _ ↦ [()], fun _ ↦ List.nodup_singleton ()⟩

/-- The entry of a first tip of the user 7. -/
def tip : String :=
  "\x7b\"event\": \"send_tip\", \"user_id\": 7, \"block_number\": 1, \"extra\": \x7b\x7d\x7d"

/-- The parser on the entry of the tip and on entries that are not JSON. -/
def parseTip (entry : String) : Option (String × InternalEvent) :=
  if entry = tip then some ("send_tip", ⟨"send_tip", 1, 7, "\x7b\x7d"⟩) else none

theorem processEvents_not_deliversOnce :
    (¬ ∃ removed, DeliversOnce oneManager parseTip ["send_tip", tip] 1000
      (processEvents oneManager parseTip (fun _ ↦ false) ["send_tip", tip] [] 1000) removed) ∧
    ¬ ∃ removed, DeliversOnce oneManager parseTip [tip, tip] 1
      (processEvents oneManager parseTip (fun _ ↦ false) [tip, tip] [] 1) removed := by
  constructor
  · rintro ⟨removed, hremoves, -, hhands⟩
    have hgone : (processEvents oneManager parseTip (fun _ ↦ false) ["send_tip", tip] []
        1000).redisQueue = [] := by rfl
    rw [hgone, List.append_nil] at hremoves
    have hhanded := hhands "send_tip" ()
    rw [← hremoves] at hhanded
    revert hhanded
    decide
  · rintro ⟨removed, hremoves, hmost, -⟩
    have hgone : (processEvents oneManager parseTip (fun _ ↦ false) [tip, tip] [] 1).redisQueue =
        [] := by rfl
    rw [hgone, List.append_nil] at hremoves
    rw [← hremoves] at hmost
    revert hmost
    decide

end ChallengeEventBus

end ColivingSpec.Discovery
