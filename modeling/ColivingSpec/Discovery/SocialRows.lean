import ColivingSpec.Discovery.EntityRevert
import ColivingSpec.Discovery.SocialTables

/-!
# The rows of the social tables

A row is of an indexed block, and of each block there is at most one row of an item. So the query
for a previous version, which leaves out no block, finds the reverted row itself: reverting the
latest block deletes its rows, and makes no other row current.
-/

namespace ColivingSpec.Discovery

open Lib List

section Grounded

variable {κ : Type}

/-- The indexed blocks, the latest one first. -/
def LatestFirst (blocks : List ChainBlock) : Prop :=
  blocks.Pairwise fun later earlier ↦ earlier.number < later.number ∧ earlier.hash ≠ later.hash

/-- The rows are of indexed blocks, and of each block there is at most one row of an item. -/
structure Grounded (blocks : List ChainBlock) (table : List (Row (SocialRow κ))) : Prop where
  ids : (table.map Row.rowId).Nodup
  indexed : ∀ row ∈ table, ∃ block ∈ blocks,
    row.blockhash = some block.hash ∧ row.blocknumber = some block.number
  versions : ∀ row ∈ table, ∀ row' ∈ table, row.columns.subject = row'.columns.subject →
    row.blocknumber = row'.blocknumber → row.rowId = row'.rowId

theorem grounded_nil (blocks : List ChainBlock) :
    Grounded blocks ([] : List (Row (SocialRow κ))) where
  ids := nodup_nil
  indexed _ h := absurd h not_mem_nil
  versions _ h := absurd h not_mem_nil

variable {blocks : List ChainBlock} {table : List (Row (SocialRow κ))}

/-- Another block is indexed. -/
theorem Grounded.cons (h : Grounded blocks table) (block : ChainBlock) :
    Grounded (block :: blocks) table where
  ids := h.ids
  indexed row hrow := by
    obtain ⟨b, hb, hblock⟩ := h.indexed row hrow
    exact ⟨b, mem_cons_of_mem _ hb, hblock⟩
  versions := h.versions

theorem lt_freshRowId {row : Row (SocialRow κ)} (hrow : row ∈ table) :
    row.rowId < freshRowId table := by
  have hle : row.rowId ≤ (table.map Row.rowId).foldr max 0 := by
    induction table with
    | nil => cases hrow
    | cons first table ih =>
      rcases mem_cons.mp hrow with rfl | hrest
      · exact Nat.le_max_left _ _
      · exact (ih hrest).trans (Nat.le_max_right _ _)
  exact Nat.lt_succ_of_le hle

variable [DecidableEq κ]

theorem map_rowId_invalidateOld (subject : κ) (table : List (Row (SocialRow κ))) :
    (invalidateOld subject table).map Row.rowId = table.map Row.rowId := by
  unfold invalidateOld
  rw [map_map]
  apply map_congr_left
  intro row _
  rw [Function.comp_apply]
  split <;> rfl

/-- A row of the table after its item's rows are demoted, up to its mark. -/
theorem exists_of_mem_invalidateOld {subject : κ} {row : Row (SocialRow κ)}
    (h : row ∈ invalidateOld subject table) : ∃ old ∈ table, row.rowId = old.rowId ∧
      row.columns = old.columns ∧ row.blockhash = old.blockhash ∧
      row.blocknumber = old.blocknumber := by
  obtain ⟨old, hold, rfl⟩ := mem_map.mp h
  refine ⟨old, hold, ?_⟩
  split <;> exact ⟨rfl, rfl, rfl, rfl⟩

variable {block : ChainBlock}

/-- A row of the latest block is added, the first one of its item in this block. -/
theorem Grounded.addSocialRow (h : Grounded (block :: blocks) table) {new : SocialRow κ}
    (hfirst : ∀ row ∈ table, row.blocknumber = some block.number →
      row.columns.subject ≠ new.subject) :
    Grounded (block :: blocks) (addSocialRow block table new) where
  ids := by
    unfold Discovery.addSocialRow
    rw [map_append, map_rowId_invalidateOld]
    refine nodup_append.mpr ⟨h.ids, nodup_singleton _, ?_⟩
    intro id hid id' hid' heq
    obtain ⟨row, hrow, rfl⟩ := mem_map.mp hid
    have hnew : id' = freshRowId table := mem_singleton.mp hid'
    have hlt := lt_freshRowId hrow
    omega
  indexed row hrow := by
    rcases mem_append.mp hrow with hold | hnew
    · obtain ⟨old, hmem, -, -, hhash, hnumber⟩ := exists_of_mem_invalidateOld hold
      rw [hhash, hnumber]
      exact h.indexed old hmem
    · rw [mem_singleton.mp hnew]
      exact ⟨block, mem_cons_self, rfl, rfl⟩
  versions row hrow row' hrow' hsubject hnumber := by
    rcases mem_append.mp hrow with hold | hnew
    · obtain ⟨old, hmem, hid, hcolumns, -, hnum⟩ := exists_of_mem_invalidateOld hold
      rcases mem_append.mp hrow' with hold' | hnew'
      · obtain ⟨old', hmem', hid', hcolumns', -, hnum'⟩ := exists_of_mem_invalidateOld hold'
        rw [hid, hid']
        apply h.versions old hmem old' hmem'
        · rw [← hcolumns, ← hcolumns', hsubject]
        · rw [← hnum, ← hnum', hnumber]
      · rw [mem_singleton.mp hnew'] at hsubject hnumber
        rw [hcolumns] at hsubject
        exact absurd hsubject (hfirst old hmem (hnum.symm.trans hnumber))
    · rw [mem_singleton.mp hnew] at hsubject hnumber ⊢
      rcases mem_append.mp hrow' with hold' | hnew'
      · obtain ⟨old', hmem', -, hcolumns', -, hnum'⟩ := exists_of_mem_invalidateOld hold'
        rw [hcolumns'] at hsubject
        exact absurd hsubject.symm (hfirst old' hmem' (hnum'.symm.trans hnumber.symm))
      · rw [mem_singleton.mp hnew']

/-- The rows of a block are added. -/
theorem Grounded.foldl {rows : List (SocialRow κ)}
    (hdistinct : rows.Pairwise fun row row' ↦ row.subject ≠ row'.subject) :
    ∀ {table : List (Row (SocialRow κ))}, Grounded (block :: blocks) table →
      (∀ row ∈ table, row.blocknumber = some block.number →
        ∀ new ∈ rows, row.columns.subject ≠ new.subject) →
      Grounded (block :: blocks) (rows.foldl (Discovery.addSocialRow block) table) := by
  induction rows with
  | nil => exact fun h _ ↦ h
  | cons new rows ih =>
    intro table h hfirst
    obtain ⟨hnew, hrest⟩ := pairwise_cons.mp hdistinct
    have hadded := h.addSocialRow fun row hrow hnumber ↦
      hfirst row hrow hnumber new mem_cons_self
    apply ih hrest hadded
    intro row hrow hnumber other hother
    rcases mem_append.mp hrow with hold | hlast
    · obtain ⟨old, hmem, -, hcolumns, -, hnum⟩ := exists_of_mem_invalidateOld hold
      rw [hcolumns]
      exact hfirst old hmem (hnum.symm.trans hnumber) other (mem_cons_of_mem _ hother)
    · rw [mem_singleton.mp hlast]
      exact hnew other hother

/-- A block that comes after the indexed ones adds its rows. -/
theorem Grounded.indexRows (h : Grounded blocks table) (hextends : Extends blocks block)
    {rows : List (SocialRow κ)}
    (hdistinct : rows.Pairwise fun row row' ↦ row.subject ≠ row'.subject) :
    Grounded (block :: blocks) (rows.foldl (Discovery.addSocialRow block) table) := by
  apply Grounded.foldl hdistinct (h.cons block)
  intro row hrow hnumber
  obtain ⟨b, hb, -, hb'⟩ := h.indexed row hrow
  rw [hnumber] at hb'
  have hlt := (hextends b hb).1
  exact absurd (Option.some.inj hb') (Nat.ne_of_gt hlt)

/-! ### Reverting -/

/-- Reverting a row makes no other row current, when it is the latest one of its item. -/
theorem revertEntry_eq_filter {entry : Row (SocialRow κ)} {n : ℕ} {number : Option ℕ}
    (hentry : entry ∈ table) (hnumber : entry.blocknumber = some n)
    (hlatest : ∀ row ∈ table, row.columns.subject = entry.columns.subject →
      row.rowId = entry.rowId ∨ ∃ k, row.blocknumber = some k ∧ k < n) :
    (socialKind κ).revertEntry number table entry
      = table.filter fun row ↦ row.rowId ≠ entry.rowId := by
  have hfound : ∀ previous,
      (socialKind κ).previousEntry table entry.columns.subject number = some previous →
      previous.rowId = entry.rowId := by
    intro previous hprevious
    have hmem := EntityKind.mem_candidates.mp (argmin_mem hprevious)
    have hself : entry ∈ (socialKind κ).candidates table entry.columns.subject number :=
      EntityKind.mem_candidates.mpr ⟨hentry, rfl, fun h ↦ by cases h⟩
    rcases hlatest previous hmem.1 hmem.2.1 with heq | ⟨k, hk, hlt⟩
    · exact heq
    · exact absurd ((socialKind κ).order_lt_of_lt hk hnumber hlt)
        (not_lt_of_mem_argmin hself hprevious)
  unfold EntityKind.revertEntry
  have hkey : (socialKind κ).previousKey entry.columns = entry.columns.subject := rfl
  rw [hkey]
  cases hprevious : (socialKind κ).previousEntry table entry.columns.subject number with
  | none => rfl
  | some previous =>
    have hid := hfound previous hprevious
    have hrestores : ∀ row : Row (SocialRow κ),
        (socialKind κ).restores previous row = decide (row.rowId = entry.rowId) := by
      intro row
      rw [← hid]
      rfl
    simp only [hrestores, decide_eq_true_eq]
    clear hprevious hfound hlatest hentry
    induction table with
    | nil => rfl
    | cons row table ih =>
      by_cases heq : row.rowId = entry.rowId
      · simpa [heq, Row.promote] using ih
      · simpa [heq] using ih

/-- Rows of the latest block are reverted one after another. -/
theorem Grounded.foldl_revertEntry (h : Grounded (block :: blocks) table)
    (hextends : Extends blocks block) (number : Option ℕ) {entries : List (Row (SocialRow κ))}
    (hids : (entries.map Row.rowId).Nodup)
    (hhash : ∀ entry ∈ entries, entry.blockhash = some block.hash) :
    ∀ {rows : List (Row (SocialRow κ))}, (∀ row ∈ rows, row ∈ table) →
      (∀ entry ∈ entries, entry ∈ rows) →
      entries.foldl ((socialKind κ).revertEntry number) rows
        = rows.filter fun row ↦ row.rowId ∉ entries.map Row.rowId := by
  induction entries with
  | nil =>
    intro rows _ _
    simp
  | cons entry entries ih =>
    intro rows hsub hmem
    obtain ⟨hnot, hids⟩ := nodup_cons.mp hids
    have hentry := hmem entry mem_cons_self
    have hnumber : entry.blocknumber = some block.number := by
      obtain ⟨b, hb, hbhash, hbnumber⟩ := h.indexed entry (hsub entry hentry)
      rw [hhash entry mem_cons_self] at hbhash
      rcases mem_cons.mp hb with rfl | hb
      · exact hbnumber
      · exact absurd (Option.some.inj hbhash).symm (hextends b hb).2
    have hone : (socialKind κ).revertEntry number rows entry
        = rows.filter fun row ↦ row.rowId ≠ entry.rowId := revertEntry_eq_filter hentry hnumber (by
      intro row hrow hsubject
      obtain ⟨b, hb, -, hbnumber⟩ := h.indexed row (hsub row hrow)
      rcases mem_cons.mp hb with rfl | hb
      · left
        exact h.versions row (hsub row hrow) entry (hsub entry hentry) hsubject
          (hbnumber.trans hnumber.symm)
      · right
        exact ⟨b.number, hbnumber, (hextends b hb).1⟩)
    rw [foldl_cons, hone, ih hids, filter_filter]
    · apply filter_congr
      intro row _
      simp only [map_cons, mem_cons, not_or, Bool.decide_and, Bool.and_comm]
    · exact fun other hother ↦ hhash other (mem_cons_of_mem _ hother)
    · exact fun row hrow ↦ hsub row (mem_filter.mp hrow).1
    · intro other hother
      refine mem_filter.mpr ⟨hmem other (mem_cons_of_mem _ hother), ?_⟩
      apply decide_eq_true
      intro heq
      exact hnot (heq ▸ mem_map_of_mem hother)

/-- Reverting the latest block deletes its rows, and makes no row current. -/
theorem Grounded.revertBlock_eq (h : Grounded (block :: blocks) table)
    (hextends : Extends blocks block) :
    (socialKind κ).revertBlock table block.row
      = table.filter fun row ↦ row.blockhash ≠ some block.hash := by
  have hentry : ∀ entry ∈ table.filter (fun row ↦ row.blockhash = some block.hash),
      entry ∈ table ∧ entry.blockhash = some block.hash := by
    intro entry hentry
    rw [mem_filter, decide_eq_true_iff] at hentry
    exact hentry
  have hids := h.ids.sublist
    ((filter_sublist (p := fun row ↦ row.blockhash = some block.hash)).map Row.rowId)
  have hfold := h.foldl_revertEntry hextends block.row.number hids
    (fun entry he ↦ (hentry entry he).2) (fun _ hrow ↦ hrow) (fun entry he ↦ (hentry entry he).1)
  refine Eq.trans hfold ?_
  apply filter_congr
  intro row hrow
  apply decide_eq_decide.mpr
  rw [not_iff_not]
  constructor
  · intro hmem
    obtain ⟨entry, he, hid⟩ := mem_map.mp hmem
    rw [← inj_on_of_nodup_map h.ids (hentry entry he).1 hrow hid]
    exact (hentry entry he).2
  · intro hhash
    exact mem_map_of_mem (mem_filter.mpr ⟨hrow, decide_eq_true hhash⟩)

omit [DecidableEq κ] in
/-- The rows that are left when the latest block is reverted. -/
theorem Grounded.filter (h : Grounded (block :: blocks) table) :
    Grounded blocks (table.filter fun row ↦ row.blockhash ≠ some block.hash) where
  ids := h.ids.sublist (filter_sublist.map Row.rowId)
  indexed row hrow := by
    obtain ⟨hrow, hne⟩ := mem_filter.mp hrow
    obtain ⟨b, hb, hhash, hnumber⟩ := h.indexed row hrow
    rcases mem_cons.mp hb with rfl | hb
    · exact absurd hhash (of_decide_eq_true hne)
    · exact ⟨b, hb, hhash, hnumber⟩
  versions row hrow row' hrow' :=
    h.versions row (mem_filter.mp hrow).1 row' (mem_filter.mp hrow').1

end Grounded

end ColivingSpec.Discovery
