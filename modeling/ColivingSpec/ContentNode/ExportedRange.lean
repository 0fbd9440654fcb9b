import ColivingSpec.ContentNode.ExportComponentService
import Mathlib.Data.List.Pairwise

/-!
# What a range of clocks exports

The rows of a user between two clocks, and a table that mirrors another one up to a clock: it has
the same rows of the user, under a UUID of its own. The export of the clocks after that of a mirror
is what the mirror lacks up to the end of the range.
-/

namespace ColivingSpec

open Lib List

/-- The columns of a table that syncing reads and writes. -/
structure Columns (ρ : Type) where
  uuidOf : ρ → UUID
  clockOf : ρ → ℤ
  withUUID : UUID → ρ → ρ
  uuidOf_withUUID : ∀ uuid row, uuidOf (withUUID uuid row) = uuid
  clockOf_withUUID : ∀ uuid row, clockOf (withUUID uuid row) = clockOf row

namespace Columns

variable {ρ : Type} (c : Columns ρ)

/-- The rows of the user with clocks up to the given one. -/
def upTo (rows : List ρ) (uuid : UUID) (clock : ℤ) : List ρ :=
  rows.filter fun row ↦ c.uuidOf row = uuid ∧ c.clockOf row ≤ clock

/-- The rows of the user with clocks above `lo` and up to `hi`. -/
def between (rows : List ρ) (uuid : UUID) (lo hi : ℤ) : List ρ :=
  rows.filter fun row ↦ c.uuidOf row = uuid ∧ lo < c.clockOf row ∧ c.clockOf row ≤ hi

/-- The rows of `uuid'` are those of `uuid` with clocks up to the given one. -/
def Mirrors (primary : List ρ) (uuid : UUID) (secondary : List ρ) (uuid' : UUID) (clock : ℤ) :
    Prop :=
  (secondary.filter fun row ↦ c.uuidOf row = uuid').Perm
    ((c.upTo primary uuid clock).map (c.withUUID uuid'))

variable {c} {primary secondary new : List ρ} {uuid uuid' : UUID} {lo hi : ℤ} {row : ρ}

theorem mem_between : row ∈ c.between primary uuid lo hi ↔
    row ∈ primary ∧ c.uuidOf row = uuid ∧ lo < c.clockOf row ∧ c.clockOf row ≤ hi := by
  simp [between]

theorem mem_upTo : row ∈ c.upTo primary uuid hi ↔
    row ∈ primary ∧ c.uuidOf row = uuid ∧ c.clockOf row ≤ hi := by
  simp [upTo]

theorem Mirrors.mem_iff (h : c.Mirrors primary uuid secondary uuid' lo) :
    row ∈ secondary ∧ c.uuidOf row = uuid' ↔
      ∃ row' ∈ primary, c.uuidOf row' = uuid ∧ c.clockOf row' ≤ lo ∧
        c.withUUID uuid' row' = row := by
  have hmem : row ∈ secondary ∧ c.uuidOf row = uuid' ↔
      row ∈ secondary.filter fun row ↦ c.uuidOf row = uuid' := by
    simp
  rw [hmem, Perm.mem_iff h, mem_map]
  simp only [mem_upTo]
  constructor
  · rintro ⟨row', ⟨hrow', huuid, hclock⟩, heq⟩
    exact ⟨row', hrow', huuid, hclock, heq⟩
  · rintro ⟨row', hrow', huuid, hclock, heq⟩
    exact ⟨row', ⟨hrow', huuid, hclock⟩, heq⟩

/-- The clocks of a mirror's rows. -/
theorem Mirrors.clock_le (h : c.Mirrors primary uuid secondary uuid' lo) (hrow : row ∈ secondary)
    (huuid : c.uuidOf row = uuid') : c.clockOf row ≤ lo := by
  obtain ⟨row', -, -, hclock, rfl⟩ := h.mem_iff.mp ⟨hrow, huuid⟩
  rw [c.clockOf_withUUID]
  exact hclock

variable (c) in
/-- The rows up to `hi` are those up to `lo` and those between. -/
theorem upTo_perm (primary : List ρ) (uuid : UUID) (h : lo ≤ hi) :
    (c.upTo primary uuid lo ++ c.between primary uuid lo hi).Perm (c.upTo primary uuid hi) := by
  have hsplit := filter_append_perm (fun row ↦ decide (c.clockOf row ≤ lo))
    (c.upTo primary uuid hi)
  have hlo : (c.upTo primary uuid hi).filter (fun row ↦ decide (c.clockOf row ≤ lo))
      = c.upTo primary uuid lo := by
    rw [upTo, filter_filter, upTo]
    apply filter_congr
    intro row _
    grind
  have hbetween : (c.upTo primary uuid hi).filter (fun row ↦ !decide (c.clockOf row ≤ lo))
      = c.between primary uuid lo hi := by
    rw [upTo, filter_filter, between]
    apply filter_congr
    intro row _
    grind
  rw [hlo, hbetween] at hsplit
  exact hsplit

/-- A mirror with the rows between added. -/
theorem Mirrors.append (h : c.Mirrors primary uuid secondary uuid' lo) (hle : lo ≤ hi)
    (hnew : new.Perm ((c.between primary uuid lo hi).map (c.withUUID uuid'))) :
    c.Mirrors primary uuid (secondary ++ new) uuid' hi := by
  have hall : new.filter (fun row ↦ c.uuidOf row = uuid') = new := by
    apply filter_eq_self.mpr
    intro row hrow
    obtain ⟨row', -, rfl⟩ := mem_map.mp (hnew.subset hrow)
    exact decide_eq_true (c.uuidOf_withUUID uuid' row')
  unfold Mirrors at h ⊢
  rw [filter_append, hall]
  have hperm := (c.upTo_perm primary uuid hle).map (c.withUUID uuid')
  rw [map_append] at hperm
  exact (h.append hnew).trans hperm

variable (c) in
/-- What is exported of a user for a range that ends at `hi`, or after the last row. -/
theorem findInClockRange_perm (primary : List ρ) (uuid : UUID) (lo hi max : ℤ)
    (hmax : ∀ row ∈ primary, c.uuidOf row = uuid → (c.clockOf row ≤ max ↔ c.clockOf row ≤ hi)) :
    ((findInClockRange c.uuidOf c.clockOf primary [uuid] (lo + 1) max).filter
      fun row ↦ c.uuidOf row = uuid).Perm (c.between primary uuid lo hi) := by
  have hperm := (mergeSort_perm (primary.filter fun row ↦ c.uuidOf row ∈ [uuid] ∧
    lo + 1 ≤ c.clockOf row ∧ c.clockOf row ≤ max)
    fun a b ↦ c.clockOf a ≤ c.clockOf b).filter fun row ↦ c.uuidOf row = uuid
  have heq : (primary.filter fun row ↦ c.uuidOf row ∈ [uuid] ∧
      lo + 1 ≤ c.clockOf row ∧ c.clockOf row ≤ max).filter (fun row ↦ c.uuidOf row = uuid)
        = c.between primary uuid lo hi := by
    rw [filter_filter, between]
    apply filter_congr
    intro row hrow
    by_cases huuid : c.uuidOf row = uuid
    · have hle := hmax row hrow huuid
      grind
    · simp [huuid]
  rw [heq] at hperm
  exact hperm

variable (c) in
/-- What is exported is in the order of the clocks. -/
theorem findInClockRange_sorted (primary : List ρ) (uuids : List UUID) (min max : ℤ) :
    (findInClockRange c.uuidOf c.clockOf primary uuids min max).Pairwise
      fun a b ↦ c.clockOf a ≤ c.clockOf b := by
  have hsorted : (findInClockRange c.uuidOf c.clockOf primary uuids min max).Pairwise
      fun a b ↦ decide (c.clockOf a ≤ c.clockOf b) = true := by
    apply pairwise_mergeSort
    · intro a b d hab hbd
      simp only [decide_eq_true_eq] at hab hbd ⊢
      omega
    · intro a b
      simp only [Bool.or_eq_true, decide_eq_true_eq]
      omega
  exact hsorted.imp fun hab ↦ of_decide_eq_true hab

/-! ### Keys -/

variable {clash : ρ → ρ → Bool}

variable (c clash) in
/-- Two rows of one user have a key in common whichever user it is, and in either order. -/
structure Keyed : Prop where
  symm : ∀ a b, clash a b = clash b a
  withUUID : ∀ uuid a b, c.uuidOf a = c.uuidOf b →
    clash (c.withUUID uuid a) (c.withUUID uuid b) = clash a b

/-- No two of the rows between two clocks have a key in common, under any UUID. -/
theorem Keyed.distinct (h : c.Keyed clash)
    (hdistinct : primary.Pairwise fun a b ↦ clash a b = false)
    (hnew : new.Perm (c.between primary uuid lo hi)) :
    (new.map (c.withUUID uuid')).Pairwise fun a b ↦ clash a b = false := by
  have hsymm : ∀ {a b}, clash a b = false → clash b a = false := by
    intro a b hab
    rw [h.symm]
    exact hab
  have hpairwise : new.Pairwise fun a b ↦ clash a b = false :=
    (hnew.pairwise_iff hsymm).mpr (hdistinct.sublist filter_sublist)
  apply pairwise_map.mpr
  refine hpairwise.imp_of_mem fun ha hb hab ↦ ?_
  rw [h.withUUID]
  · exact hab
  · exact (mem_between.mp (hnew.subset ha)).2.1.trans (mem_between.mp (hnew.subset hb)).2.1.symm

/-- The rows after a clock have no key in common with those of a mirror up to the clock, if they
have none in common with what else there is. -/
theorem Keyed.fresh (h : c.Keyed clash) (hdistinct : primary.Pairwise fun a b ↦ clash a b = false)
    (hmirrors : c.Mirrors primary uuid secondary uuid' lo)
    (hother : ∀ other ∈ secondary, c.uuidOf other ≠ uuid' → ∀ row ∈ primary, c.uuidOf row = uuid →
      clash other (c.withUUID uuid' row) = false)
    (hnew : new.Perm (c.between primary uuid lo hi)) :
    ∀ other ∈ secondary, ∀ row ∈ new.map (c.withUUID uuid'), clash other row = false := by
  intro other hmem row hrow
  obtain ⟨row', hrow', rfl⟩ := mem_map.mp hrow
  obtain ⟨hprimary, huuid, hlo, -⟩ := mem_between.mp (hnew.subset hrow')
  by_cases hsame : c.uuidOf other = uuid'
  · obtain ⟨other', hother', huuid', hclock, rfl⟩ := hmirrors.mem_iff.mp ⟨hmem, hsame⟩
    have hne : other' ≠ row' := by
      rintro rfl
      omega
    have hsymm : Std.Symm fun a b : ρ ↦ clash a b = false := by
      constructor
      intro a b hab
      rw [h.symm]
      exact hab
    rw [h.withUUID _ _ _ (huuid'.trans huuid.symm)]
    exact hdistinct.forall hother' hprimary hne
  · exact hother other hmem hsame row' hprimary huuid

/-- In a table without common keys no other row has a key of the rows it mirrors. -/
theorem Keyed.apart (h : c.Keyed clash)
    (hdistinct : secondary.Pairwise fun a b ↦ clash a b = false)
    (hmirrors : c.Mirrors primary uuid secondary uuid' hi) {other : ρ} (hother : other ∈ secondary)
    (hne : c.uuidOf other ≠ uuid') (hrow : row ∈ primary) (huuid : c.uuidOf row = uuid)
    (hclock : c.clockOf row ≤ hi) : clash other (c.withUUID uuid' row) = false := by
  obtain ⟨hcopy, hcopyUUID⟩ := hmirrors.mem_iff.mpr ⟨row, hrow, huuid, hclock, rfl⟩
  have hne : other ≠ c.withUUID uuid' row := by
    rintro rfl
    exact hne hcopyUUID
  have hsymm : Std.Symm fun a b : ρ ↦ clash a b = false := by
    constructor
    intro a b hab
    rw [h.symm]
    exact hab
  exact hdistinct.forall hother hcopy hne

end Columns

end ColivingSpec
