import ColivingSpec.Lib.ByKey
import Mathlib.Data.List.Perm.Subperm
import Mathlib.Order.Lattice

/-!
# The newest keys of a log

Of a log of keys with times, the newest distinct keys: each with its latest time, sorted by it, and
no more than a number of them. They are kept up by merging in what is logged next, as long as no key
is logged with an earlier time than before.
-/

namespace ColivingSpec.Lib

open List Prod

variable {κ τ : Type}

section Order

variable [LinearOrder τ]

/-- What is kept of a log: distinct keys, sorted, each with its latest time; and where keys are left
out, so many are kept, none of which is older. -/
structure Newest (n : ℕ) (log kept : List (κ × τ)) : Prop where
  distinct : (kept.map Prod.fst).Nodup
  sorted : kept.Pairwise fun e e' ↦ e'.2 ≤ e.2
  latest : ∀ e ∈ kept, e ∈ log ∧ ∀ e' ∈ log, e'.1 = e.1 → e'.2 ≤ e.2
  length_le : kept.length ≤ n
  leftOut : ∀ e' ∈ log, e'.1 ∉ kept.map Prod.fst → kept.length = n ∧ ∀ e ∈ kept, e'.2 ≤ e.2

/-- No key is logged with an earlier time than before. -/
def TimesRise (log : List (κ × τ)) : Prop := log.Pairwise fun e e' ↦ e.1 = e'.1 → e.2 ≤ e'.2

theorem newest_nil (n : ℕ) : Newest n ([] : List (κ × τ)) [] :=
  ⟨nodup_nil, List.Pairwise.nil, (fun _ he ↦ by cases he), Nat.zero_le n,
    fun _ he ↦ by cases he⟩

/-- What is left out of the first elements of a sorted list is not above them. -/
theorem le_of_mem_take {l : List (κ × τ)} (hsorted : l.Pairwise fun e e' ↦ e'.2 ≤ e.2) {n : ℕ}
    {e e' : κ × τ} (he : e ∈ l.take n) (he' : e' ∈ l) (hout : e' ∉ l.take n) : e'.2 ≤ e.2 := by
  rw [← take_append_drop n l] at hsorted he'
  rcases mem_append.mp he' with hin | hin
  · exact absurd hin hout
  · exact (pairwise_append.mp hsorted).2.2 e he e' hin

/-- The last of a list that rises is the highest. -/
theorem le_getLast {l : List (κ × τ)} (hrise : l.Pairwise fun e e' ↦ e.2 ≤ e'.2) {last : κ × τ}
    (hlast : l.getLast? = some last) : ∀ e ∈ l, e.2 ≤ last.2 := by
  intro e he
  obtain ⟨front, rfl⟩ := getLast?_eq_some_iff.mp hlast
  rcases mem_append.mp he with hin | hin
  · exact (pairwise_append.mp hrise).2.2 e hin last (mem_singleton_self last)
  · rw [mem_singleton.mp hin]

end Order

variable [DecidableEq κ]

/-- The entries, each key with what it was last set to. -/
def recorded (entries : List (κ × τ)) : Dict κ τ :=
  entries.foldl (fun d e ↦ d.set e.1 e.2) Dict.empty

theorem get?_recorded (entries : List (κ × τ)) (k : κ) :
    (recorded entries).get? k = (withKey fst k entries).getLast?.map snd := by
  rw [recorded, get?_foldl_set fst snd, Dict.get?_empty, Option.or_none]

/-- Every key of the entries is recorded. -/
theorem exists_mem_recorded {entries : List (κ × τ)} {e : κ × τ} (he : e ∈ entries) :
    ∃ t, (e.1, t) ∈ (recorded entries).items := by
  have hne : withKey fst e.1 entries ≠ [] := ne_nil_of_mem (mem_withKey.mpr ⟨he, rfl⟩)
  refine ⟨((withKey fst e.1 entries).getLast hne).2, ?_⟩
  rw [Dict.mem_items, get?_recorded, getLast?_eq_some_getLast hne]
  rfl

section Merge

variable [LinearOrder τ]

/-- The newest entries of a dictionary. -/
def newestEntries (n : ℕ) (d : Dict κ τ) : List (κ × τ) :=
  (d.items.mergeSort fun e e' ↦ decide (e'.2 ≤ e.2)).take n

section Cut

omit [DecidableEq κ]

variable (n : ℕ) (d : Dict κ τ)

/-- The newest entries begin a sorted list of all entries. -/
theorem exists_sorted : ∃ sorted : List (κ × τ), sorted.Perm d.items ∧
    (sorted.Pairwise fun e e' ↦ e'.2 ≤ e.2) ∧ newestEntries n d = sorted.take n := by
  refine ⟨_, mergeSort_perm d.items fun e e' ↦ decide (e'.2 ≤ e.2), ?_, rfl⟩
  refine (pairwise_mergeSort ?_ ?_ d.items).imp fun hle ↦ of_decide_eq_true hle
  · intro a b c hab hbc
    exact decide_eq_true ((of_decide_eq_true hbc).trans (of_decide_eq_true hab))
  · intro a b
    rcases le_total b.2 a.2 with hle | hle
    · simp [hle]
    · simp [hle]

theorem newestEntries_sorted : (newestEntries n d).Pairwise fun e e' ↦ e'.2 ≤ e.2 := by
  obtain ⟨sorted, -, hsorted, htake⟩ := exists_sorted n d
  rw [htake]
  exact hsorted.sublist (take_sublist n sorted)

theorem nodup_keys_newestEntries : ((newestEntries n d).map fst).Nodup := by
  obtain ⟨sorted, hperm, -, htake⟩ := exists_sorted n d
  have hdistinct : (sorted.map fst).Nodup := (hperm.map fst).nodup_iff.mpr d.nodup
  rw [htake]
  exact hdistinct.sublist ((take_sublist n sorted).map _)

theorem length_newestEntries : (newestEntries n d).length = min n d.items.length := by
  obtain ⟨sorted, hperm, -, htake⟩ := exists_sorted n d
  rw [htake, length_take, hperm.length_eq]

variable {n d}

theorem mem_of_mem_newestEntries {e : κ × τ} (he : e ∈ newestEntries n d) : e ∈ d.items := by
  obtain ⟨sorted, hperm, -, htake⟩ := exists_sorted n d
  rw [htake] at he
  exact hperm.mem_iff.mp (mem_of_mem_take he)

/-- An entry that is cut off fills the list, and is not above it. -/
theorem newestEntries_leftOut {k : κ} {t : τ} (hin : (k, t) ∈ d.items)
    (hout : k ∉ (newestEntries n d).map fst) :
    (newestEntries n d).length = n ∧ ∀ e ∈ newestEntries n d, t ≤ e.2 := by
  obtain ⟨sorted, hperm, hsorted, htake⟩ := exists_sorted n d
  rw [htake] at hout ⊢
  have hnot : (k, t) ∉ sorted.take n := fun hkept ↦ hout (mem_map_of_mem hkept)
  constructor
  · rw [length_take]
    by_contra hshort
    rw [take_of_length_le (by omega)] at hnot
    exact hnot (hperm.mem_iff.mpr hin)
  · intro e he
    exact le_of_mem_take hsorted he (hperm.mem_iff.mpr hin) hnot

end Cut

variable {n : ℕ} {log kept new : List (κ × τ)} {e : κ × τ} {kept' : List (κ × τ)}

/-- What is recorded after a merge is the latest of the whole log. -/
theorem mem_recorded (h : Newest n log kept) (hrise : TimesRise (log ++ new))
    (he : e ∈ (recorded (kept.reverse ++ new)).items) :
    e ∈ log ++ new ∧ ∀ e' ∈ log ++ new, e'.1 = e.1 → e'.2 ≤ e.2 := by
  obtain ⟨k, t⟩ := e
  obtain ⟨-, hnew, hacross⟩ := pairwise_append.mp hrise
  rw [Dict.mem_items, get?_recorded, withKey, filter_append] at he
  obtain ⟨last, hlast, rfl⟩ := Option.map_eq_some_iff.mp he
  rw [getLast?_append] at hlast
  cases hfilter : (new.filter (·.1 = k)).getLast? with
  | some last' =>
    rw [hfilter] at hlast
    obtain rfl : last' = last := Option.some.inj hlast
    obtain ⟨hmem, hkey⟩ := mem_filter.mp (mem_of_getLast? hfilter)
    obtain rfl : last'.1 = k := of_decide_eq_true hkey
    refine ⟨mem_append_right _ hmem, ?_⟩
    intro e' he' hsame
    rcases mem_append.mp he' with hin | hin
    · exact hacross e' hin last' hmem hsame
    · have hfiltered : (new.filter (·.1 = last'.1)).Pairwise fun e e' ↦ e.2 ≤ e'.2 := by
        refine (hnew.sublist filter_sublist).imp_of_mem ?_
        intro a b ha hb hle
        have hakey := of_decide_eq_true (mem_filter.mp ha).2
        have hbkey := of_decide_eq_true (mem_filter.mp hb).2
        exact hle (hakey.trans hbkey.symm)
      exact le_getLast hfiltered hfilter e' (mem_filter.mpr ⟨hin, decide_eq_true hsame⟩)
  | none =>
    rw [hfilter] at hlast
    have hlast' : (kept.reverse.filter (·.1 = k)).getLast? = some last := hlast
    obtain ⟨hmem, hkey⟩ := mem_filter.mp (mem_of_getLast? hlast')
    obtain rfl : last.1 = k := of_decide_eq_true hkey
    have hkept : last ∈ kept := mem_reverse.mp hmem
    obtain ⟨hlog, hall⟩ := h.latest last hkept
    refine ⟨mem_append_left _ hlog, ?_⟩
    intro e' he' hsame
    rcases mem_append.mp he' with hin | hin
    · exact hall e' hin hsame
    · have hnone := filter_eq_nil_iff.mp (getLast?_eq_none_iff.mp hfilter) e' hin
      exact absurd (decide_eq_true hsame) hnone

omit [DecidableEq κ] [LinearOrder τ] in
/-- Distinct keys are no more than the keys that hold them. -/
theorem length_le_of_keys_subset {l : List (κ × τ)} (hdistinct : (kept.map fst).Nodup)
    (hsubset : ∀ e ∈ kept, e.1 ∈ l.map fst) : kept.length ≤ l.length := by
  have hkeys : kept.map fst ⊆ l.map fst := by
    intro k hk
    obtain ⟨e, he, rfl⟩ := mem_map.mp hk
    exact hsubset e he
  have hle := (hdistinct.subperm hkeys).length_le
  rwa [length_map, length_map] at hle

omit [DecidableEq κ] [LinearOrder τ] in
/-- Distinct keys that are as many as others, which do not hold them all, miss one of those. -/
theorem exists_key_not_mem (hdistinct : (kept.map fst).Nodup)
    (hlength : kept'.length = kept.length) (he : e ∈ kept') (hout : e.1 ∉ kept.map fst) :
    ∃ e' ∈ kept, e'.1 ∉ kept'.map fst := by
  by_contra hall
  push Not at hall
  have hsubset : kept.map fst ⊆ kept'.map fst := by
    intro k hk
    obtain ⟨e', he', rfl⟩ := mem_map.mp hk
    exact hall e' he'
  have hperm := (hdistinct.subperm hsubset).perm_of_length_le (by
    rw [length_map, length_map]
    omega)
  exact hout (hperm.mem_iff.mpr (mem_map_of_mem he))

omit [LinearOrder τ] in
/-- What was kept and what is new is recorded. -/
theorem exists_mem_merged (he : e ∈ kept ∨ e ∈ new) :
    ∃ t, (e.1, t) ∈ (recorded (kept.reverse ++ new)).items := by
  apply exists_mem_recorded
  rcases he with hin | hin
  · exact mem_append_left _ (mem_reverse.mpr hin)
  · exact mem_append_right _ hin

/-- A key that had been left out before is left out: as many are kept, and none is older. -/
theorem merge_leftOut_before (h : Newest n log kept) (hrise : TimesRise (log ++ new)) {e' : κ × τ}
    (he' : e' ∈ log) (hout : e'.1 ∉ kept.map fst) :
    (newestEntries n (recorded (kept.reverse ++ new))).length = n ∧
      ∀ e ∈ newestEntries n (recorded (kept.reverse ++ new)), e'.2 ≤ e.2 := by
  generalize hd : recorded (kept.reverse ++ new) = d
  obtain ⟨hfull, hbelow⟩ := h.leftOut e' he' hout
  have hkeys : ∀ e ∈ kept, ∃ t, (e.1, t) ∈ d.items := fun e he ↦ hd ▸ exists_mem_merged (.inl he)
  have hkept : ∀ e ∈ d.items, e.1 ∈ kept.map fst → e'.2 ≤ e.2 := by
    intro e he hin
    obtain ⟨old, hold, hsame⟩ := mem_map.mp hin
    have hle := (mem_recorded h hrise (hd ▸ he)).2 old
      (mem_append_left _ (h.latest old hold).1) hsame
    exact (hbelow old hold).trans hle
  have hlength : kept.length ≤ d.items.length := by
    apply length_le_of_keys_subset h.distinct
    intro e he
    obtain ⟨t, ht⟩ := hkeys e he
    exact mem_map.mpr ⟨(e.1, t), ht, rfl⟩
  have hfull' : (newestEntries n d).length = n := by
    rw [length_newestEntries]
    omega
  refine ⟨hfull', ?_⟩
  intro e he
  by_cases hin : e.1 ∈ kept.map fst
  · exact hkept e (mem_of_mem_newestEntries he) hin
  · -- a new key stands here, so that one of those kept before is below it
    obtain ⟨old, hold, hmissing⟩ := exists_key_not_mem h.distinct (hfull'.trans hfull.symm) he hin
    obtain ⟨t, ht⟩ := hkeys old hold
    exact (hkept (old.1, t) ht (mem_map.mpr ⟨old, hold, rfl⟩)).trans
      ((newestEntries_leftOut ht hmissing).2 e he)

/-- What is logged next is merged in: recorded over what is kept, sorted and cut. -/
theorem Newest.merge (h : Newest n log kept) (hrise : TimesRise (log ++ new)) :
    Newest n (log ++ new) (newestEntries n (recorded (kept.reverse ++ new))) := by
  refine ⟨nodup_keys_newestEntries n _, newestEntries_sorted n _, ?_, ?_, ?_⟩
  · exact fun e he ↦ mem_recorded h hrise (mem_of_mem_newestEntries he)
  · rw [length_newestEntries]
    exact Nat.min_le_left _ _
  · intro e' he' hout
    by_cases hlisted : e' ∈ new ∨ e'.1 ∈ kept.map fst
    · have hkey : ∃ t, (e'.1, t) ∈ (recorded (kept.reverse ++ new)).items := by
        rcases hlisted with hin | hin
        · exact exists_mem_merged (.inr hin)
        · obtain ⟨e, he, hsame⟩ := mem_map.mp hin
          rw [← hsame]
          exact exists_mem_merged (.inl he)
      obtain ⟨t, ht⟩ := hkey
      obtain ⟨hfull, hbelow⟩ := newestEntries_leftOut ht hout
      have hle := (mem_recorded h hrise ht).2 e' he' rfl
      exact ⟨hfull, fun e he ↦ hle.trans (hbelow e he)⟩
    · rw [not_or] at hlisted
      exact merge_leftOut_before h hrise ((mem_append.mp he').resolve_right hlisted.1)
        hlisted.2

omit [DecidableEq κ] in
/-- What is kept of a log in which different keys have different times is kept in any other way. -/
theorem Newest.subset (h : Newest n log kept) (h' : Newest n log kept')
    (hdiffer : ∀ e ∈ log, ∀ e' ∈ log, e.2 = e'.2 → e.1 = e'.1) :
    kept ⊆ kept' := by
  have hsame : ∀ e ∈ kept, e.1 ∈ kept'.map fst → e ∈ kept' := by
    intro e he hin
    obtain ⟨e', he', hkey⟩ := mem_map.mp hin
    have hle := (h.latest e he).2 e' (h'.latest e' he').1 hkey
    have hge := (h'.latest e' he').2 e (h.latest e he).1 hkey.symm
    rwa [← Prod.ext hkey (le_antisymm hle hge)]
  intro e he
  apply hsame e he
  by_contra hout
  -- then the other list is full of later keys, and one of them is missing here
  obtain ⟨hfull, hbelow⟩ := h'.leftOut e (h.latest e he).1 hout
  have hsubset : ∀ e' ∈ kept', e'.1 ∈ kept.map fst := by
    intro e' he'
    by_contra hmissing
    have hle := (h.leftOut e' (h'.latest e' he').1 hmissing).2 e he
    have hkey := hdiffer e (h.latest e he).1 e' (h'.latest e' he').1
      (le_antisymm (hbelow e' he') hle)
    exact hout (mem_map.mpr ⟨e', he', hkey.symm⟩)
  have hlength : kept.length = kept'.length := by
    have hle := length_le_of_keys_subset h'.distinct hsubset
    have hn := h.length_le
    omega
  obtain ⟨e', he', hmissing⟩ := exists_key_not_mem h'.distinct hlength he hout
  exact hmissing (hsubset e' he')

omit [DecidableEq κ] in
/-- Where different keys have different times, what is kept of a log is determined by it. -/
theorem Newest.unique (h : Newest n log kept) (h' : Newest n log kept')
    (hdiffer : ∀ e ∈ log, ∀ e' ∈ log, e.2 = e'.2 → e.1 = e'.1) :
    kept = kept' := by
  have hperm : kept.Perm kept' := by
    apply (perm_ext_iff_of_nodup h.distinct.of_map h'.distinct.of_map).mpr
    intro e
    exact ⟨fun he ↦ h.subset h' hdiffer he, fun he ↦ h'.subset h hdiffer he⟩
  refine hperm.eq_of_pairwise ?_ h.sorted h'.sorted
  intro e e' he he' hle hge
  have hkey := hdiffer e (h.latest e he).1 e' (h'.latest e' he').1 (le_antisymm hge hle)
  exact Prod.ext hkey (le_antisymm hge hle)

end Merge

end ColivingSpec.Lib
