import ColivingSpec.Discovery.ContentLists
import Mathlib.Data.List.Perm.Basic

/-!
# Reordering a content list

A reorder event gives the ids of the entries in their new order, and the times are attached again
from a queue for each id, which is emptied but for its last time. As long as the ids are those of
the entries, each one as often as before, every time is taken once and in its old order. A delete
event removes the first entry that has its id and its time.
-/

namespace ColivingSpec.Discovery

open Lib List

/-- The times of a digital content, in the order of the entries. -/
def timesOf (id : ℕ) (entries : List ContentListEntry) : List ℕ :=
  (entries.filter fun entry ↦ entry.digitalContent = id).map ContentListEntry.time

variable (id : ℕ) (entry : ContentListEntry) (blockTime : ℕ)

variable (entries : List ContentListEntry)

theorem timesOf_cons :
    timesOf id (entry :: entries) =
      if entry.digitalContent = id then entry.time :: timesOf id entries
      else timesOf id entries := by
  unfold timesOf
  by_cases hid : entry.digitalContent = id
  · simp [hid]
  · simp [hid]

theorem timesOf_concat (entry : ContentListEntry) :
    timesOf id (entries ++ [entry]) =
      if entry.digitalContent = id then timesOf id entries ++ [entry.time]
      else timesOf id entries := by
  unfold timesOf
  by_cases hid : entry.digitalContent = id
  · simp [hid]
  · simp [hid]

/-- An entry is as often among the entries as its time is among those of its id. -/
theorem count_timesOf :
    (timesOf entry.digitalContent entries).count entry.time = entries.count entry := by
  induction entries with
  | nil => rfl
  | cons first rest ih =>
    rw [timesOf_cons, count_cons]
    by_cases hid : first.digitalContent = entry.digitalContent
    · have heq : (first == entry) = (first.time == entry.time) := by
        obtain ⟨_, _⟩ := entry
        obtain rfl := hid
        rw [Bool.eq_iff_iff, beq_iff_eq, beq_iff_eq, ContentListEntry.mk.injEq]
        exact and_iff_right rfl
      rw [if_pos hid, count_cons, ih, heq]
    · have hne : first ≠ entry := by
        rintro rfl
        exact hid rfl
      rw [if_neg hid, ih, beq_false_of_ne hne]
      rfl

/-- Entries with the same times of each id are the same up to their order. -/
theorem perm_of_timesOf_eq {entries entries' : List ContentListEntry}
    (h : ∀ id, timesOf id entries = timesOf id entries') : entries.Perm entries' := by
  rw [perm_iff_count]
  intro entry
  rw [← count_timesOf, ← count_timesOf, h]

/-- An id is among the entries as often as it has times. -/
theorem length_timesOf :
    (timesOf id entries).length = (entries.map ContentListEntry.digitalContent).count id := by
  induction entries with
  | nil => rfl
  | cons entry rest ih =>
    rw [timesOf_cons, map_cons, count_cons]
    by_cases hid : entry.digitalContent = id
    · rw [if_pos hid, length_cons, ih, if_pos (beq_iff_eq.mpr hid)]
    · rw [if_neg hid, ih, if_neg (by rwa [beq_iff_eq]), Nat.add_zero]

/-! ### The queues -/

/-- The times that are queued for an id. -/
def queuedTimes (times : Dict ℕ (List ℕ)) (id : ℕ) : List ℕ := (times.get? id).getD []

/-- Each id has its times queued. -/
theorem queued_timeLookup (id : ℕ) : queuedTimes (timeLookup entries) id = timesOf id entries := by
  induction entries using reverseRecOn with
  | nil => rfl
  | append_singleton entries entry ih =>
    have hlookup : timeLookup (entries ++ [entry]) =
        (timeLookup entries).set entry.digitalContent
          (queuedTimes (timeLookup entries) entry.digitalContent ++ [entry.time]) := by
      unfold timeLookup
      rw [foldl_concat]
      rfl
    rw [hlookup, timesOf_concat]
    by_cases hid : entry.digitalContent = id
    · rw [if_pos hid, ← ih, queuedTimes, Dict.get?_set, if_pos hid, ← hid]
      rfl
    · rw [if_neg hid, ← ih, queuedTimes, Dict.get?_set, if_neg hid]
      rfl

/-- Taking a time: the queue of the id loses it unless it is the last one. -/
theorem orderEntry_of_cons {id time : ℕ} {rest : List ℕ} {times : Dict ℕ (List ℕ)}
    (h : queuedTimes times id = time :: rest) (entries : List ContentListEntry) :
    ∃ times', orderEntry blockTime (times, entries) id = (times', entries ++ [⟨id, time⟩]) ∧
      (rest ≠ [] → queuedTimes times' id = rest) ∧ ∀ other, other ≠ id →
        queuedTimes times' other = queuedTimes times other := by
  obtain ⟨queue, hget, hqueue⟩ : ∃ queue, times.get? id = some queue ∧ queue = time :: rest := by
    cases hget : times.get? id with
    | none => rw [queuedTimes, hget] at h; cases h
    | some queue => rw [queuedTimes, hget] at h; exact ⟨queue, rfl, h⟩
  subst hqueue
  cases rest with
  | nil =>
    refine ⟨times, ?_, fun hne ↦ absurd rfl hne, fun other _ ↦ rfl⟩
    unfold orderEntry
    rw [hget]
  | cons next rest =>
    refine ⟨times.set id (next :: rest), ?_, fun _ ↦ ?_, fun other hother ↦ ?_⟩
    · unfold orderEntry
      rw [hget]
    · rw [queuedTimes, Dict.get?_set, if_pos rfl]
      rfl
    · rw [queuedTimes, Dict.get?_set, if_neg (Ne.symm hother)]
      rfl

/-- When each id that is still to come has as many times queued as it comes, each takes all its
times in their order. -/
theorem foldl_orderEntry {ordered : List ℕ} :
    ∀ (entries : List ContentListEntry) {times : Dict ℕ (List ℕ)},
      (∀ id ∈ ordered, (queuedTimes times id).length = ordered.count id) →
        (ordered.foldl (orderEntry blockTime) (times, entries)).2.map
            ContentListEntry.digitalContent =
          entries.map ContentListEntry.digitalContent ++ ordered ∧
        ∀ id, timesOf id (ordered.foldl (orderEntry blockTime) (times, entries)).2 =
          timesOf id entries ++ if id ∈ ordered then queuedTimes times id else [] := by
  induction ordered with
  | nil =>
    intro entries times _
    refine ⟨(append_nil _).symm, fun id ↦ ?_⟩
    rw [if_neg not_mem_nil, append_nil]
    rfl
  | cons first rest ih =>
    intro entries times hlength
    have hfirst : (queuedTimes times first).length = rest.count first + 1 := by
      rw [hlength first mem_cons_self, count_cons_self]
    obtain ⟨time, queue, hqueue⟩ := exists_cons_of_length_pos
      (show 0 < (queuedTimes times first).length by omega)
    have hrest : queue.length = rest.count first := by
      rw [hqueue, length_cons] at hfirst
      omega
    obtain ⟨times', hstep, hown, hothers⟩ := orderEntry_of_cons blockTime hqueue entries
    have hlength' : ∀ id ∈ rest, (queuedTimes times' id).length = rest.count id := by
      intro id hid
      by_cases heq : id = first
      · subst heq
        have hpos := count_pos_iff.mpr hid
        rw [hown (by rintro rfl; exact absurd hrest (by simp; omega)), hrest]
      · rw [hothers id heq, hlength id (mem_cons_of_mem _ hid), count_cons_of_ne (Ne.symm heq)]
    obtain ⟨hids, htimes⟩ := ih (entries ++ [⟨first, time⟩]) hlength'
    rw [foldl_cons, hstep]
    refine ⟨?_, fun id ↦ ?_⟩
    · rw [hids, map_append, append_assoc]
      rfl
    · rw [htimes, timesOf_concat]
      by_cases heq : id = first
      · subst heq
        rw [if_pos rfl, if_pos mem_cons_self, hqueue, append_assoc]
        congr 1
        by_cases hid : id ∈ rest
        · have hpos := count_pos_iff.mpr hid
          rw [if_pos hid, hown (by rintro rfl; exact absurd hrest (by simp; omega))]
          rfl
        · rw [if_neg hid]
          have hnil : queue = [] := by
            rw [← length_eq_zero_iff, hrest, count_eq_zero]
            exact hid
          rw [hnil]
          rfl
      · have hmem : id ∈ first :: rest ↔ id ∈ rest := by
          rw [mem_cons, or_iff_right heq]
        rw [if_neg (Ne.symm heq), hothers id heq]
        simp only [hmem]

/-- The entries in the order of their ids, each id with its times in their old order. -/
theorem orderEntries_of_perm {entries : List ContentListEntry} {ordered : List ℕ}
    (h : ordered.Perm (entries.map ContentListEntry.digitalContent)) :
    (orderEntries blockTime entries ordered).map ContentListEntry.digitalContent = ordered ∧
      ∀ id, timesOf id (orderEntries blockTime entries ordered) = timesOf id entries := by
  have hcount : ∀ id, (queuedTimes (timeLookup entries) id).length = ordered.count id := by
    intro id
    rw [queued_timeLookup, length_timesOf, h.count_eq]
  obtain ⟨hids, htimes⟩ := foldl_orderEntry blockTime [] fun id _ ↦ hcount id
  refine ⟨hids, fun id ↦ (htimes id).trans ?_⟩
  rw [← queued_timeLookup entries]
  by_cases hid : id ∈ ordered
  · rw [if_pos hid]
    rfl
  · have hnil := hcount id
    rw [count_eq_zero.mpr hid, length_eq_zero_iff] at hnil
    rw [if_neg hid, hnil]
    rfl

/-! ### Removing an entry -/

/-- The first entry with the id and the time is removed, if there is one. -/
theorem removeEntry_eq (timestamp : ℕ) (entries : List ContentListEntry) :
    (∃ before after, entries = before ++ ⟨id, timestamp⟩ :: after ∧
        removeEntry id timestamp entries = before ++ after) ∨
      ⟨id, timestamp⟩ ∉ entries ∧ removeEntry id timestamp entries = entries := by
  induction entries with
  | nil => exact .inr ⟨not_mem_nil, rfl⟩
  | cons entry rest ih =>
    unfold removeEntry
    split
    · next heq =>
      obtain ⟨rfl, rfl⟩ := heq
      exact .inl ⟨[], rest, rfl, rfl⟩
    · next hne =>
      have hother : ⟨id, timestamp⟩ ≠ entry := by
        rintro rfl
        exact hne ⟨rfl, rfl⟩
      rcases ih with ⟨before, after, hsplit, hremoved⟩ | ⟨hnone, hsame⟩
      · exact .inl ⟨entry :: before, after, by rw [hsplit]; rfl, by rw [hremoved]; rfl⟩
      · refine .inr ⟨?_, by rw [hsame]⟩
        rw [mem_cons, not_or]
        exact ⟨hother, hnone⟩

/-! ### The events -/

/-- A reorder event whose ids are those of the entries keeps the entries, with the times of each id
in their order; a delete event removes one entry with its id and time if there is one. Nothing else
of the record changes but the time of its update. -/
theorem parseContentListEvent_keeps_entries (multihashDigestToCid : List UInt8 → String)
    (blockTime : ℕ) (record : ContentListRecord) :
    (∀ entries ordered, record.contentListContents = some entries →
        ordered.Perm (entries.map ContentListEntry.digitalContent) →
        ∃ entries', parseContentListEvent multihashDigestToCid blockTime record
              (.digitalContentsOrdered ordered)
            = .ok { record with
                contentListContents := some entries'
                updatedAt := some blockTime } ∧
          entries'.map ContentListEntry.digitalContent = ordered ∧ entries'.Perm entries ∧
          ∀ id, timesOf id entries' = timesOf id entries) ∧
      ∀ id timestamp, ∃ contents, parseContentListEvent multihashDigestToCid blockTime record
            (.digitalContentDeleted id timestamp)
          = .ok { record with
              contentListContents := contents
              updatedAt := some blockTime } ∧
        ((∃ before after, record.contentListContents = some (before ++ ⟨id, timestamp⟩ :: after) ∧
            contents = some (before ++ after)) ∨
          (∀ entries, record.contentListContents = some entries → ⟨id, timestamp⟩ ∉ entries) ∧
            contents = record.contentListContents) := by
  constructor
  · intro entries ordered hcontents hperm
    obtain ⟨hids, htimes⟩ := orderEntries_of_perm blockTime hperm
    refine ⟨orderEntries blockTime entries ordered, ?_, hids, perm_of_timesOf_eq htimes, htimes⟩
    unfold parseContentListEvent applyContentListEvent
    rw [hcontents]
    rfl
  · intro id timestamp
    refine ⟨record.contentListContents.map (removeEntry id timestamp), rfl, ?_⟩
    cases hcontents : record.contentListContents with
    | none =>
      refine .inr ⟨fun entries hsome ↦ ?_, rfl⟩
      cases hsome
    | some entries =>
      rcases removeEntry_eq id timestamp entries with ⟨before, after, hsplit, hremoved⟩ | hsame
      · exact .inl ⟨before, after, by rw [hsplit], by rw [← hremoved]; rfl⟩
      · refine .inr ⟨fun other hother ↦ ?_, congrArg some hsame.2⟩
        obtain rfl := Option.some.inj hother
        exact hsame.1

/-- A list that has a song twice keeps both of its times when it is reordered. -/
theorem parseContentListEvent_keeps_entries_twice :
    ∃ entries', parseContentListEvent (fun _ ↦ "") 50
          { ContentListRecord.new 1 with contentListContents := some [⟨7, 10⟩, ⟨8, 20⟩, ⟨7, 30⟩] }
          (.digitalContentsOrdered [8, 7, 7])
        = .ok { ContentListRecord.new 1 with
            contentListContents := some entries'
            updatedAt := some 50 } ∧
      entries'.map ContentListEntry.digitalContent = [8, 7, 7] ∧
      entries'.Perm [⟨7, 10⟩, ⟨8, 20⟩, ⟨7, 30⟩] ∧
      ∀ id, timesOf id entries' = timesOf id [⟨7, 10⟩, ⟨8, 20⟩, ⟨7, 30⟩] :=
  (parseContentListEvent_keeps_entries (fun _ ↦ "") 50
    { ContentListRecord.new 1 with contentListContents := some [⟨7, 10⟩, ⟨8, 20⟩, ⟨7, 30⟩] }).1
    [⟨7, 10⟩, ⟨8, 20⟩, ⟨7, 30⟩] [8, 7, 7] rfl (by decide)

end ColivingSpec.Discovery
