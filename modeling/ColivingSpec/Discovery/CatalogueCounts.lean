import ColivingSpec.Discovery.EntityRevert
import ColivingSpec.Discovery.RevertBlocks
import ColivingSpec.Lib.Replay
import Mathlib.Data.List.Pairwise

/-!
# Catalogue counts and catalogue rows

The triggers on `digital_contents` and `content_lists` compare a new version with the latest one
that was demoted. They count a first version that is visible, and take one away whenever a later
version differs in one of its flags, whichever way it differs. The versions that the handlers add
are taken as they are added, one for each entity of a block.
-/

namespace ColivingSpec.Discovery

open Lib List

/-! ### The triggers -/

/-- What a trigger reads of a version, and the count that the version belongs to. -/
structure Visibility (ρ χ : Type) where
  id : ρ → ℕ
  counted : ρ → χ
  isDelete : ρ → Bool
  isHidden : ρ → Bool
  /-- First versions that are not counted in any case. -/
  isExcluded : ρ → Bool
  /-- The message of the assertion that there was a current version to demote. -/
  assertion : Option String

namespace Visibility

variable {ρ χ : Type} (v : Visibility ρ χ)

/-- How versions are demoted. -/
def kind : EntityKind ρ ℕ ℕ := versioned v.id v.assertion true fun _ ↦ ""

/-- What the triggers add to a count, from the latest version that was demoted, if there is one,
and the new version. -/
def delta (old : Option ρ) (new : ρ) : ℤ :=
  match old with
  | some old => if v.isDelete old ≠ v.isDelete new ∨ v.isHidden old ≠ v.isHidden new then -1 else 0
  | none => if !v.isDelete new ∧ !v.isHidden new ∧ !v.isExcluded new then 1 else 0

/-- `select * into old_row`: the latest version that is not current. -/
def oldRow (table : List (Row ρ)) (id : ℕ) : Option (Row ρ) :=
  (table.filter fun row ↦ !row.isCurrent ∧ v.id row.columns = id).argmin
    fun row ↦ descending row.blocknumber

variable [DecidableEq χ]

/-- A trigger, after the insert of a version. -/
def afterInsert (table : List (Row ρ)) (counts : χ → ℤ) (new : ρ) : χ → ℤ :=
  Function.update counts (v.counted new)
    (counts (v.counted new) + v.delta ((v.oldRow table (v.id new)).map Row.columns) new)

/-- The versions of the entity are demoted, the new one is added, and the trigger runs. -/
def addVersion (block : ChainBlock) (s : List (Row ρ) × (χ → ℤ)) (new : ℕ × ρ) :
    Except String (List (Row ρ) × (χ → ℤ)) := do
  let table ← v.kind.change block s.1 ⟨v.id new.2, [new]⟩
  return (table, v.afterInsert table s.2 new.2)

/-- The versions of a block. -/
def addVersions (block : ChainBlock) (s : List (Row ρ) × (χ → ℤ)) (versions : List (ℕ × ρ)) :
    Except String (List (Row ρ) × (χ → ℤ)) :=
  versions.foldlM (v.addVersion block) s

end Visibility

/-- The columns of `digital_contents` that the trigger reads; a stem is one with `stem_of`. -/
structure DigitalContentVersion where
  digitalContentId : ℕ
  ownerId : ℕ
  isDelete : Bool
  isUnlisted : Bool
  isStem : Bool
  deriving DecidableEq, Repr

/-- The columns of `content_lists` that the trigger reads. -/
structure ContentListVersion where
  contentListId : ℕ
  contentListOwnerId : ℕ
  isAlbum : Bool
  isPrivate : Bool
  isDelete : Bool
  deriving DecidableEq, Repr

/-- `handle_digital_content.sql`: `digital_content_count` of the owner. -/
def handleDigitalContent : Visibility DigitalContentVersion ℕ where
  id := DigitalContentVersion.digitalContentId
  counted := DigitalContentVersion.ownerId
  isDelete := DigitalContentVersion.isDelete
  isHidden := DigitalContentVersion.isUnlisted
  isExcluded := DigitalContentVersion.isStem
  assertion := digitalContentKind.assertion

/-- `handle_content_list.sql`: of the owner, `album_count` with `true`, `content_list_count` with
`false`. -/
def handleContentList : Visibility ContentListVersion (Bool × ℕ) where
  id := ContentListVersion.contentListId
  counted new := (new.isAlbum, new.contentListOwnerId)
  isDelete := ContentListVersion.isDelete
  isHidden := ContentListVersion.isPrivate
  isExcluded _ := false
  assertion := contentListKind.assertion

/-! ### Blocks -/

/-- A block with the versions that its handlers add (`digital_contents.py:143–147`,
`content_lists.py:109–112`), at most one for each entity. -/
structure CatalogueBlock where
  block : ChainBlock
  digitalContents : List (ℕ × DigitalContentVersion)
  contentLists : List (ℕ × ContentListVersion)
  digitalContentsDistinct : (digitalContents.map fun new ↦ new.2.digitalContentId).Nodup
  contentListsDistinct : (contentLists.map fun new ↦ new.2.contentListId).Nodup

/-- The tables, with the indexed blocks, and the counts of `aggregate_user`. -/
structure Catalogue where
  blocks : List ChainBlock
  digitalContents : List (Row DigitalContentVersion)
  contentLists : List (Row ContentListVersion)
  digitalContentCount : ℕ → ℤ
  listCount : Bool × ℕ → ℤ

namespace Catalogue

/-- Nothing is indexed. -/
def empty : Catalogue := ⟨[], [], [], fun _ ↦ 0, fun _ ↦ 0⟩

/-- `content_list_count` of a user. -/
def contentListCount (c : Catalogue) (userId : ℕ) : ℤ := c.listCount (false, userId)

/-- `album_count` of a user. -/
def albumCount (c : Catalogue) (userId : ℕ) : ℤ := c.listCount (true, userId)

/-- A block that comes after the indexed ones. -/
def indexBlock (c : Catalogue) (b : CatalogueBlock) : Except String Catalogue := do
  require (Extends c.blocks b.block) "The block does not come after the indexed ones"
  let (digitalContents, digitalContentCount) ← handleDigitalContent.addVersions b.block
    (c.digitalContents, c.digitalContentCount) b.digitalContents
  let (contentLists, listCount) ← handleContentList.addVersions b.block
    (c.contentLists, c.listCount) b.contentLists
  return ⟨b.block :: c.blocks, digitalContents, contentLists, digitalContentCount, listCount⟩

end Catalogue

/-! ### One version -/

/-- The row is of an earlier block than the other. -/
def Row.earlier {ρ : Type} (row later : Row ρ) : Prop :=
  ∃ n k, row.blocknumber = some n ∧ later.blocknumber = some k ∧ n < k

namespace Visibility

variable {ρ χ : Type} (v : Visibility ρ χ)

/-- The version is not deleted, not hidden and not excluded. -/
def visible (columns : ρ) : Bool :=
  !v.isDelete columns && !v.isHidden columns && !v.isExcluded columns

/-- One of two versions of an entity is not current, and of an earlier block. -/
def Ordered (row row' : Row ρ) : Prop :=
  v.id row.columns = v.id row'.columns →
    row.isCurrent = false ∧ row.earlier row' ∨ row'.isCurrent = false ∧ row'.earlier row

/-- The versions are of indexed blocks; those of an entity are of different blocks, and the latest
one, and no other, is current. -/
structure Versions (blocks : List ChainBlock) (table : List (Row ρ)) : Prop where
  ordered : table.Pairwise v.Ordered
  current : ∀ row ∈ table, ∃ cur ∈ table, cur.isCurrent = true ∧ v.id cur.columns = v.id row.columns
  indexed : ∀ row ∈ table, ∃ block ∈ blocks, row.blocknumber = some block.number

/-- The table with the versions of an entity demoted. -/
def demoted (id : ℕ) (table : List (Row ρ)) : List (Row ρ) :=
  table.map fun row ↦ if v.id row.columns = id then row.demote else row

variable {v} {table : List (Row ρ)} {id : ℕ} {row cur : Row ρ} {blocks : List ChainBlock}

theorem Ordered.symm {row' : Row ρ} (h : v.Ordered row row') : v.Ordered row' row :=
  fun heq ↦ (h heq.symm).symm

instance : Std.Symm v.Ordered := ⟨fun _ _ ↦ Ordered.symm⟩

theorem Ordered.of_current (h : v.Ordered row cur) (hid : v.id row.columns = v.id cur.columns)
    (hcur : cur.isCurrent = true) :
    row.isCurrent = false ∧ row.earlier cur := by
  rcases h hid with hrow | ⟨hnot, -⟩
  · exact hrow
  · rw [hcur] at hnot
    cases hnot

/-- Nothing is demoted where no version is current. -/
theorem demoted_eq_self (h : ∀ row ∈ table, v.id row.columns = id → row.isCurrent = false) :
    v.demoted id table = table := by
  conv_rhs => rw [← map_id table]
  apply map_congr_left
  intro row hrow
  by_cases hid : v.id row.columns = id
  · rw [if_pos hid, Row.demote, ← h row hrow hid]
    rfl
  · rw [if_neg hid]
    rfl

/-- The one current version is demoted. -/
theorem demoted_eq_of_current {before after : List (Row ρ)}
    (h : (before ++ cur :: after).Pairwise v.Ordered) (hcur : cur.isCurrent = true)
    (hid : v.id cur.columns = id) :
    v.demoted id (before ++ cur :: after) = before ++ cur.demote :: after := by
  obtain ⟨-, hafter, hbefore⟩ := pairwise_append.mp h
  have hleft : v.demoted id before = before := by
    apply demoted_eq_self
    intro row hrow hrowid
    have hordered := hbefore row hrow cur mem_cons_self
    exact (hordered.of_current (hrowid.trans hid.symm) hcur).1
  have hright : v.demoted id after = after := by
    apply demoted_eq_self
    intro row hrow hrowid
    have hordered := (pairwise_cons.mp hafter).1 row hrow
    exact (hordered.symm.of_current (hrowid.trans hid.symm) hcur).1
  conv_rhs => rw [← hleft, ← hright]
  unfold demoted
  rw [map_append, map_cons, if_pos hid]

/-- A version after the others are demoted. -/
theorem exists_of_mem_demoted (h : row ∈ v.demoted id table) :
    ∃ old ∈ table, row.columns = old.columns ∧ row.blocknumber = old.blocknumber ∧
      (v.id old.columns = id → row.isCurrent = false) ∧
      (v.id old.columns ≠ id → row = old) := by
  obtain ⟨old, hold, rfl⟩ := mem_map.mp h
  refine ⟨old, hold, ?_⟩
  by_cases hid : v.id old.columns = id
  · rw [if_pos hid]
    exact ⟨rfl, rfl, fun _ ↦ rfl, fun hne ↦ absurd hid hne⟩
  · rw [if_neg hid]
    exact ⟨rfl, rfl, fun heq ↦ absurd heq hid, fun _ ↦ rfl⟩

theorem addVersion_eq_ok [DecidableEq χ] {block : ChainBlock} {s s' : List (Row ρ) × (χ → ℤ)}
    {new : ℕ × ρ} (h : v.addVersion block s new = .ok s') :
    s'.1 = v.demoted (v.id new.2) s.1 ++ [Row.new block new] ∧
      s'.2 = v.afterInsert s'.1 s.2 new.2 := by
  obtain ⟨table, htable, h⟩ := bind_eq_ok.mp h
  cases pure_eq_ok.mp h
  exact ⟨EntityKind.change_eq_ok htable, rfl⟩

variable {block : ChainBlock} {new : ℕ × ρ}

/-- The new version is current, and later than those that were demoted. -/
theorem Versions.add (h : v.Versions blocks table) (hblock : block ∈ blocks)
    (hbefore : ∀ row ∈ table, v.id row.columns = v.id new.2 →
      ∃ n, row.blocknumber = some n ∧ n < block.number) :
    v.Versions blocks (v.demoted (v.id new.2) table ++ [Row.new block new]) where
  ordered := by
    refine pairwise_append.mpr ⟨?_, pairwise_singleton _ _, ?_⟩
    · unfold demoted
      rw [pairwise_map]
      refine h.ordered.imp fun {row row'} hordered ↦ ?_
      have hcolumns : ∀ r : Row ρ,
          (if v.id r.columns = v.id new.2 then r.demote else r).columns = r.columns := by
        intro r
        split <;> rfl
      intro heq
      rw [hcolumns, hcolumns] at heq
      by_cases hid : v.id row.columns = v.id new.2
      · rw [if_pos hid, if_pos (heq.symm.trans hid)]
        rcases hordered heq with ⟨-, hlt⟩ | ⟨-, hlt⟩
        · exact .inl ⟨rfl, hlt⟩
        · exact .inr ⟨rfl, hlt⟩
      · rw [if_neg hid, if_neg (fun hid' ↦ hid (heq.trans hid'))]
        exact hordered heq
    · intro row hrow last hlast heq
      rw [mem_singleton.mp hlast] at heq ⊢
      obtain ⟨old, hold, hcolumns, hnumber, hdemoted, -⟩ := exists_of_mem_demoted hrow
      rw [hcolumns] at heq
      obtain ⟨n, hn, hlt⟩ := hbefore old hold heq
      exact .inl ⟨hdemoted heq, n, block.number, hnumber.trans hn, rfl, hlt⟩
  current row hrow := by
    have hlast : Row.new block new ∈ v.demoted (v.id new.2) table ++ [Row.new block new] :=
      mem_append_right _ (mem_singleton_self _)
    by_cases hid : v.id row.columns = v.id new.2
    · exact ⟨_, hlast, rfl, hid.symm⟩
    · rcases mem_append.mp hrow with hold | hnew
      · obtain ⟨old, hmem, hcolumns, -⟩ := exists_of_mem_demoted hold
        obtain ⟨cur, hcur, hiscurrent, hcurid⟩ := h.current old hmem
        rw [hcolumns] at hid ⊢
        refine ⟨cur, mem_append_left _ (mem_map.mpr ⟨cur, hcur, ?_⟩), hiscurrent, hcurid⟩
        exact if_neg fun heq ↦ hid (hcurid.symm.trans heq)
      · rw [mem_singleton.mp hnew] at hid
        exact absurd rfl hid
  indexed row hrow := by
    rcases mem_append.mp hrow with hold | hnew
    · obtain ⟨old, hmem, -, hnumber, -⟩ := exists_of_mem_demoted hold
      rw [hnumber]
      exact h.indexed old hmem
    · rw [mem_singleton.mp hnew]
      exact ⟨block, hblock, rfl⟩

/-- The trigger finds nothing for a first version. -/
theorem oldRow_eq_none (h : ∀ row ∈ table, v.id row.columns ≠ v.id new.2) :
    v.oldRow (v.demoted (v.id new.2) table ++ [Row.new block new]) (v.id new.2) = none := by
  unfold oldRow
  rw [argmin_eq_none, filter_eq_nil_iff]
  intro row hrow hold
  obtain ⟨hnot, hid⟩ := of_decide_eq_true hold
  rcases mem_append.mp hrow with hmem | hnew
  · obtain ⟨old, holdmem, hcolumns, -⟩ := exists_of_mem_demoted hmem
    exact h old holdmem (hcolumns ▸ hid)
  · rw [mem_singleton.mp hnew] at hnot
    cases hnot

/-- The trigger finds the version that was current. -/
theorem oldRow_eq_some (h : table.Pairwise v.Ordered) (hmem : cur ∈ table)
    (hcur : cur.isCurrent = true) (hid : v.id cur.columns = v.id new.2) :
    (v.oldRow (v.demoted (v.id new.2) table ++ [Row.new block new]) (v.id new.2)).map Row.columns
      = some cur.columns := by
  have hdemote : cur.demote ∈ (v.demoted (v.id new.2) table ++ [Row.new block new]).filter
      fun row ↦ !row.isCurrent ∧ v.id row.columns = v.id new.2 := by
    refine mem_filter.mpr ⟨mem_append_left _ ?_, decide_eq_true ⟨rfl, hid⟩⟩
    exact mem_map.mpr ⟨cur, hmem, if_pos hid⟩
  cases hold : v.oldRow (v.demoted (v.id new.2) table ++ [Row.new block new]) (v.id new.2) with
  | none =>
    rw [oldRow, argmin_eq_none] at hold
    rw [hold] at hdemote
    cases hdemote
  | some old =>
    obtain ⟨holdmem, hprops⟩ := mem_filter.mp (argmin_mem hold)
    obtain ⟨hnot, holdid⟩ := of_decide_eq_true hprops
    rcases mem_append.mp holdmem with hin | hnew
    · obtain ⟨row, hrow, hcolumns, hnumber, -⟩ := exists_of_mem_demoted hin
      by_cases heq : row = cur
      · rw [Option.map_some, hcolumns, heq]
      · have hordered := h.forall hrow hmem heq
        rw [hcolumns] at holdid
        obtain ⟨-, n, k, hn, hk, hlt⟩ := hordered.of_current (holdid.trans hid.symm) hcur
        refine absurd ?_ (not_lt_of_mem_argmin hdemote hold)
        have hcurnumber : cur.demote.blocknumber = some k := hk
        rw [hcurnumber, hnumber, hn]
        exact OrderDual.toDual_lt_toDual.mpr (WithTop.coe_lt_coe.mpr hlt)
    · rw [mem_singleton.mp hnew] at hnot
      cases hnot

/-! ### The counts -/

variable [DecidableEq χ]

variable (v) in
/-- The number of current versions that are visible and belong to a count. -/
def visibleRows (table : List (Row ρ)) (k : χ) : ℕ :=
  table.countP fun row ↦
    row.isCurrent && (v.visible row.columns && decide (v.counted row.columns = k))

variable (v) in
/-- Every count is the number of the visible versions. -/
def Exact (table : List (Row ρ)) (counts : χ → ℤ) : Prop :=
  ∀ k, counts k = v.visibleRows table k

variable (v) in
/-- What a version contributes to a count. -/
def contribution (columns : ρ) (k : χ) : ℤ :=
  if v.visible columns && decide (v.counted columns = k) then 1 else 0

variable (v) in
/-- The change from the current version to the new one is one that the trigger counts as it is: a
flag changes and the entity becomes invisible, or no flag changes and it stays as visible as it
was; and a visible one stays with its owner. -/
def Follows (old new : ρ) : Prop :=
  (v.visible old = true → v.counted old = v.counted new) ∧
    if v.isDelete old ≠ v.isDelete new ∨ v.isHidden old ≠ v.isHidden new then
      v.visible old = true ∧ v.visible new = false
    else v.visible old = v.visible new

instance (old new : ρ) : Decidable (v.Follows old new) := inferInstanceAs (Decidable (_ ∧ _))

/-- What the trigger adds for a first version is what the version contributes. -/
theorem delta_none (new : ρ) (k : χ) :
    (if v.counted new = k then v.delta none new else 0) = v.contribution new k := by
  unfold delta contribution visible
  by_cases hk : v.counted new = k
  · simp [hk, and_assoc]
  · simp [hk]

/-- What the trigger adds for a later version is what the contributions differ by, just when the
change is such a one. -/
theorem delta_some_iff (old new : ρ) :
    (∀ k, v.contribution old k + (if v.counted new = k then v.delta (some old) new else 0)
      = v.contribution new k) ↔ v.Follows old new := by
  unfold Follows contribution delta
  by_cases hcounted : v.counted old = v.counted new
  · rw [hcounted]
    have hone : (∀ k, (if v.visible old && decide (v.counted new = k) then 1 else 0)
          + (if v.counted new = k then
              if v.isDelete old ≠ v.isDelete new ∨ v.isHidden old ≠ v.isHidden new then -1 else 0
            else 0)
        = if v.visible new && decide (v.counted new = k) then (1 : ℤ) else 0) ↔
        (if v.visible old then 1 else 0)
          + (if v.isDelete old ≠ v.isDelete new ∨ v.isHidden old ≠ v.isHidden new then -1 else 0)
        = if v.visible new then (1 : ℤ) else 0 := by
      constructor
      · intro h
        simpa using h (v.counted new)
      · intro h k
        by_cases hk : v.counted new = k
        · simpa [hk] using h
        · simp [hk]
    rw [hone]
    by_cases hflags : v.isDelete old ≠ v.isDelete new ∨ v.isHidden old ≠ v.isHidden new
    · rw [if_pos hflags, if_pos hflags]
      cases v.visible old <;> cases v.visible new <;> simp
    · rw [if_neg hflags, if_neg hflags]
      cases v.visible old <;> cases v.visible new <;> simp
  · have hcounted' : ¬ v.counted new = v.counted old := fun heq ↦ hcounted heq.symm
    constructor
    · intro h
      -- The count that the current version belongs to says that it is invisible.
      have hold := h (v.counted old)
      have hnew := h (v.counted new)
      simp only [hcounted, hcounted', decide_true, decide_false, Bool.and_true, Bool.and_false,
        if_true, Bool.false_eq_true, if_false, Int.add_zero, Int.zero_add] at hnew hold
      cases hvisible : v.visible old with
      | true => simp [hvisible] at hold
      | false =>
        refine ⟨fun habsurd ↦ absurd habsurd Bool.false_ne_true, ?_⟩
        by_cases hflags : v.isDelete old ≠ v.isDelete new ∨ v.isHidden old ≠ v.isHidden new
        · rw [if_pos hflags] at hnew
          cases hnewvisible : v.visible new <;> simp [hnewvisible] at hnew
        · rw [if_neg hflags] at hnew ⊢
          cases hnewvisible : v.visible new
          · rfl
          · simp [hnewvisible] at hnew
    · rintro ⟨hmoves, hflags⟩ k
      have hvisible : v.visible old = false :=
        Bool.eq_false_of_not_eq_true fun htrue ↦ hcounted (hmoves htrue)
      by_cases hdiffer : v.isDelete old ≠ v.isDelete new ∨ v.isHidden old ≠ v.isHidden new
      · rw [if_pos hdiffer, hvisible] at hflags
        exact absurd hflags.1 Bool.false_ne_true
      · rw [if_neg hdiffer, hvisible] at hflags
        simp only [if_neg hdiffer, hvisible, ← hflags, Bool.false_and, Bool.false_eq_true, if_false,
          Int.add_zero, ite_self]

theorem afterInsert_apply (counts : χ → ℤ) (new : ρ) (k : χ) :
    v.afterInsert table counts new k = counts k
      + if v.counted new = k then v.delta ((v.oldRow table (v.id new)).map Row.columns) new
        else 0 := by
  unfold afterInsert
  rw [Function.update_apply]
  by_cases hk : k = v.counted new
  · rw [if_pos hk, if_pos hk.symm, hk]
  · rw [if_neg hk, if_neg (fun heq ↦ hk heq.symm), Int.add_zero]

/-- The new version, when it is the first. -/
theorem visibleRows_first (h : ∀ row ∈ table, v.id row.columns ≠ v.id new.2) (k : χ) :
    (v.visibleRows (v.demoted (v.id new.2) table ++ [Row.new block new]) k : ℤ)
      = v.visibleRows table k + v.contribution new.2 k := by
  rw [demoted_eq_self fun row hrow hid ↦ absurd hid (h row hrow)]
  have hnew : v.visibleRows [Row.new block new] k
      = if v.visible new.2 && decide (v.counted new.2 = k) then 1 else 0 := countP_singleton
  have happend : v.visibleRows (table ++ [Row.new block new]) k
      = v.visibleRows table k + v.visibleRows [Row.new block new] k := countP_append
  rw [happend, hnew, contribution]
  cases v.visible new.2 && decide (v.counted new.2 = k) <;> simp

/-- The new version in the place of the one that was current. -/
theorem visibleRows_later (block : ChainBlock) (h : table.Pairwise v.Ordered) (hmem : cur ∈ table)
    (hcur : cur.isCurrent = true) (hid : v.id cur.columns = v.id new.2) (k : χ) :
    (v.visibleRows (v.demoted (v.id new.2) table ++ [Row.new block new]) k : ℤ)
      + v.contribution cur.columns k = v.visibleRows table k + v.contribution new.2 k := by
  obtain ⟨before, after, rfl⟩ := append_of_mem hmem
  rw [demoted_eq_of_current h hcur hid]
  unfold visibleRows contribution
  simp only [countP_append, countP_cons, countP_nil, Row.demote, Row.new, hcur,
    Bool.false_and, Bool.true_and, Bool.false_eq_true, if_false]
  cases v.visible new.2 && decide (v.counted new.2 = k) <;>
    cases v.visible cur.columns && decide (v.counted cur.columns = k) <;> simp <;> omega

/-- A version that follows the current one as the trigger counts it keeps the counts exact. -/
theorem Exact.addVersion {s s' : List (Row ρ) × (χ → ℤ)} (h : v.Exact s.1 s.2)
    (hversions : v.Versions blocks s.1)
    (hfollows : ∀ cur ∈ s.1, cur.isCurrent = true → v.id cur.columns = v.id new.2 →
      v.Follows cur.columns new.2) (hok : v.addVersion block s new = .ok s') :
    v.Exact s'.1 s'.2 := by
  obtain ⟨htable, hcounts⟩ := addVersion_eq_ok hok
  intro k
  rw [hcounts, afterInsert_apply, htable, h k]
  by_cases hfirst : ∀ row ∈ s.1, v.id row.columns ≠ v.id new.2
  · rw [oldRow_eq_none hfirst, Option.map_none, delta_none, visibleRows_first hfirst]
  · simp only [not_forall, not_not] at hfirst
    obtain ⟨row, hrow, hid⟩ := hfirst
    obtain ⟨cur, hmem, hcur, hcurid⟩ := hversions.current row hrow
    rw [hid] at hcurid
    have hdelta := (delta_some_iff cur.columns new.2).mpr (hfollows cur hmem hcur hcurid) k
    have hrows := visibleRows_later block hversions.ordered hmem hcur hcurid k
    rw [oldRow_eq_some hversions.ordered hmem hcur hcurid]
    omega

/-! ### The versions of a block -/

omit [DecidableEq χ] in
/-- Another block is indexed. -/
theorem Versions.cons (h : v.Versions blocks table) (block : ChainBlock) :
    v.Versions (block :: blocks) table where
  ordered := h.ordered
  current := h.current
  indexed row hrow := by
    obtain ⟨b, hb, hnumber⟩ := h.indexed row hrow
    exact ⟨b, mem_cons_of_mem _ hb, hnumber⟩

omit [DecidableEq χ] in
theorem versions_nil (blocks : List ChainBlock) : v.Versions blocks [] where
  ordered := List.Pairwise.nil
  current _ h := absurd h not_mem_nil
  indexed _ h := absurd h not_mem_nil

/-- Versions of different entities are added: those that are still to come follow current versions
that are of earlier blocks. -/
theorem addVersions_kept (hblock : block ∈ blocks) {versions : List (ℕ × ρ)}
    (hdistinct : (versions.map fun new ↦ v.id new.2).Nodup) :
    ∀ {s s' : List (Row ρ) × (χ → ℤ)}, v.Versions blocks s.1 → v.Exact s.1 s.2 →
      (∀ new ∈ versions, ∀ row ∈ s.1, v.id row.columns = v.id new.2 →
        (∃ n, row.blocknumber = some n ∧ n < block.number) ∧
          (row.isCurrent = true → v.Follows row.columns new.2)) →
      v.addVersions block s versions = .ok s' → v.Versions blocks s'.1 ∧ v.Exact s'.1 s'.2 := by
  induction versions with
  | nil =>
    intro s s' hversions hexact _ hok
    cases pure_eq_ok.mp hok
    exact ⟨hversions, hexact⟩
  | cons new versions ih =>
    intro s s' hversions hexact hnext hok
    obtain ⟨hnew, hrest⟩ := nodup_cons.mp hdistinct
    obtain ⟨mid, hmid, hok⟩ := bind_eq_ok.mp hok
    have hfirst := hnext new mem_cons_self
    have hmidexact := hexact.addVersion hversions
      (fun cur hcur hiscurrent hid ↦ (hfirst cur hcur hid).2 hiscurrent) hmid
    have hmidtable := (addVersion_eq_ok hmid).1
    have hmidversions := hversions.add hblock fun row hrow hid ↦ (hfirst row hrow hid).1
    rw [← hmidtable] at hmidversions
    refine ih hrest hmidversions hmidexact ?_ hok
    intro other hother row hrow hid
    have hne : v.id new.2 ≠ v.id other.2 := by
      intro heq
      exact hnew (mem_map.mpr ⟨other, hother, heq.symm⟩)
    rw [hmidtable] at hrow
    rcases mem_append.mp hrow with hold | hlast
    · obtain ⟨old, hmem, hcolumns, -, -, hsame⟩ := exists_of_mem_demoted hold
      rw [hcolumns] at hid
      have heq := hsame fun holdid ↦ hne (holdid.symm.trans hid)
      rw [heq]
      exact hnext other (mem_cons_of_mem _ hother) old hmem hid
    · rw [mem_singleton.mp hlast] at hid
      exact absurd hid hne

/-- The versions of a block that comes after the indexed ones. -/
theorem Versions.addVersions {s s' : List (Row ρ) × (χ → ℤ)} (h : v.Versions blocks s.1)
    (hexact : v.Exact s.1 s.2) (hextends : Extends blocks block) {versions : List (ℕ × ρ)}
    (hdistinct : (versions.map fun new ↦ v.id new.2).Nodup)
    (hfollows : ∀ new ∈ versions, ∀ cur ∈ s.1, cur.isCurrent = true →
      v.id cur.columns = v.id new.2 → v.Follows cur.columns new.2)
    (hok : v.addVersions block s versions = .ok s') :
    v.Versions (block :: blocks) s'.1 ∧ v.Exact s'.1 s'.2 := by
  refine addVersions_kept mem_cons_self hdistinct (h.cons block) hexact ?_ hok
  intro new hnew row hrow hid
  obtain ⟨b, hb, hnumber⟩ := h.indexed row hrow
  exact ⟨⟨b.number, hnumber, (hextends b hb).1⟩,
    fun hcurrent ↦ hfollows new hnew row hrow hcurrent hid⟩

end Visibility

/-! ### Runs -/

namespace Catalogue

/-- The counts of `aggregate_user` are the numbers of the visible entities of the owner. -/
structure CountsExact (c : Catalogue) : Prop where
  digitalContents : ∀ userId, c.digitalContentCount userId
    = c.digitalContents.countP fun row ↦ row.isCurrent && (!row.columns.isDelete &&
        !row.columns.isUnlisted && !row.columns.isStem && decide (row.columns.ownerId = userId))
  contentLists : ∀ userId, c.contentListCount userId
    = c.contentLists.countP fun row ↦ row.isCurrent && (!row.columns.isDelete &&
        !row.columns.isPrivate && !row.columns.isAlbum &&
          decide (row.columns.contentListOwnerId = userId))
  albums : ∀ userId, c.albumCount userId
    = c.contentLists.countP fun row ↦ row.isCurrent && (!row.columns.isDelete &&
        !row.columns.isPrivate && row.columns.isAlbum &&
          decide (row.columns.contentListOwnerId = userId))

/-- Each version of the block follows the current one as the trigger counts it. -/
structure Follows (c : Catalogue) (b : CatalogueBlock) : Prop where
  digitalContents : ∀ new ∈ b.digitalContents, ∀ cur ∈ c.digitalContents, cur.isCurrent = true →
    cur.columns.digitalContentId = new.2.digitalContentId →
      handleDigitalContent.Follows cur.columns new.2
  contentLists : ∀ new ∈ b.contentLists, ∀ cur ∈ c.contentLists, cur.isCurrent = true →
    cur.columns.contentListId = new.2.contentListId →
      handleContentList.Follows cur.columns new.2

/-- The invariant of the runs. -/
structure Kept (c : Catalogue) : Prop where
  digitalContents : handleDigitalContent.Versions c.blocks c.digitalContents
  contentLists : handleContentList.Versions c.blocks c.contentLists
  digitalContentCount : handleDigitalContent.Exact c.digitalContents c.digitalContentCount
  listCount : handleContentList.Exact c.contentLists c.listCount

theorem Kept.countsExact {c : Catalogue} (h : c.Kept) : c.CountsExact where
  digitalContents := h.digitalContentCount
  contentLists userId := by
    rw [contentListCount, h.listCount]
    apply congrArg Nat.cast
    apply countP_congr
    intro row _
    cases halbum : row.columns.isAlbum <;> simp [handleContentList, Visibility.visible, halbum]
  albums userId := by
    rw [albumCount, h.listCount]
    apply congrArg Nat.cast
    apply countP_congr
    intro row _
    cases halbum : row.columns.isAlbum <;> simp [handleContentList, Visibility.visible, halbum]

theorem kept_empty : empty.Kept :=
  ⟨Visibility.versions_nil [], Visibility.versions_nil [], fun _ ↦ rfl, fun _ ↦ rfl⟩

/-- A block whose versions follow the current ones keeps the counts exact. -/
theorem Kept.indexBlock {c c' : Catalogue} {b : CatalogueBlock} (h : c.Kept)
    (hfollows : c.Follows b) (hok : c.indexBlock b = .ok c') : c'.Kept := by
  obtain ⟨hextends, hok⟩ := require_bind_eq_ok.mp hok
  obtain ⟨s, hs, hok⟩ := bind_eq_ok.mp hok
  obtain ⟨t, ht, hok⟩ := bind_eq_ok.mp hok
  cases pure_eq_ok.mp hok
  obtain ⟨hcontents, hcontentCount⟩ := h.digitalContents.addVersions h.digitalContentCount hextends
    b.digitalContentsDistinct hfollows.digitalContents hs
  obtain ⟨hlists, hlistCount⟩ := h.contentLists.addVersions h.listCount hextends
    b.contentListsDistinct hfollows.contentLists ht
  exact ⟨hcontents, hlists, hcontentCount, hlistCount⟩

/-- Along a run whose versions follow the current ones as the triggers count them, the counts are
the numbers of the visible entities. -/
theorem countsExact_of_follows (blocks : List CatalogueBlock)
    (h : Along indexBlock Follows empty blocks) :
    ∀ prior, prior <+: blocks → (replay indexBlock empty prior).CountsExact := by
  rintro prior ⟨rest, rfl⟩
  have hkept := replay_invariant Kept (fun _ _ _ hc hfollows hok ↦ hc.indexBlock hfollows hok)
    kept_empty (along_append.mp h).1
  exact hkept.countsExact

/-- A block with one version of a digital content of user 1. -/
def contentBlock (number : ℕ) (hash : BlockHash) (isDelete isUnlisted : Bool) :
    CatalogueBlock where
  block := ⟨hash, defaultPaddedStartHash, number, []⟩
  digitalContents := [(number, ⟨5, 1, isDelete, isUnlisted, false⟩)]
  contentLists := []
  digitalContentsDistinct := List.nodup_singleton _
  contentListsDistinct := List.nodup_nil

/-- A public digital content is updated, and then deleted. -/
def deletedRun : List CatalogueBlock :=
  [contentBlock 1 "0xa" false false, contentBlock 2 "0xb" false false,
    contentBlock 3 "0xc" true false]

theorem countsExact_deletedRun : (replay indexBlock empty deletedRun).CountsExact := by
  refine countsExact_of_follows deletedRun ⟨?_, ?_, ?_, trivial⟩ deletedRun (List.prefix_refl _)
  all_goals exact ⟨by decide +kernel, by decide +kernel⟩

/-- A digital content that is published after it was created unlisted counts for less than none. -/
theorem counts_published :
    ¬ (replay indexBlock empty
      [contentBlock 1 "0xa" false true, contentBlock 2 "0xb" false false]).CountsExact :=
  fun h ↦ absurd (h.digitalContents 1) (by decide +kernel)

end Catalogue

end ColivingSpec.Discovery
