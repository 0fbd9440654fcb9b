import ColivingSpec.Discovery.EntityTable
import Mathlib.Data.List.Nodup

/-!
# What a revert restores

Indexing blocks and reverting them again leaves the rows that were there, in their order; only
their marks may differ. A row that was there is current in the end when it was not demoted, or
when the query for a previous version finds it among the rows that were there. So a table is
restored just when the query finds each current row that is demoted, and no row that is not
current.
-/

namespace ColivingSpec.Discovery

open Lib List

variable {ρ κ π : Type}

/-- The row with its mark as given. -/
def Row.mark (m : Row ρ → Bool) (row : Row ρ) : Row ρ := { row with isCurrent := m row }

namespace EntityKind

/-! ### What the theorems speak of -/

/-- The rows that the changes of a block add. -/
def addedRows (block : ChainBlock) (changes : List (Change ρ κ)) : List (Row ρ) :=
  changes.flatMap fun change ↦ change.added.map (Row.new block)

/-- The rows that blocks add. -/
def newRows (blocks : List (ChainBlock × List (Change ρ κ))) : List (Row ρ) :=
  blocks.flatMap fun block ↦ addedRows block.1 block.2

/-- The blocks come after the rows of the table: their numbers increase above those of the rows,
no two have one hash, and no row has the hash of one, nor the primary key of a row they add. -/
structure After (table : List (Row ρ)) (blocks : List (ChainBlock × List (Change ρ κ))) :
    Prop where
  ids : ((table ++ newRows blocks).map Row.rowId).Nodup
  fresh : ∀ row ∈ table, ∀ block ∈ blocks, row.blockhash ≠ some block.1.hash
  later : ∀ row ∈ table, ∀ block ∈ blocks, ∀ n, row.blocknumber = some n → n < block.1.number
  hashes : (blocks.map fun block ↦ block.1.hash).Nodup
  numbers : (blocks.map fun block ↦ block.1.number).Pairwise (· < ·)

/-- The marks of the rows themselves. -/
theorem map_mark_isCurrent (table : List (Row ρ)) : table.map (Row.mark Row.isCurrent) = table :=
  map_id table

/-- Marks that agree on the rows of a table. -/
theorem map_mark_eq_iff (table : List (Row ρ)) (m m' : Row ρ → Bool) :
    table.map (Row.mark m) = table.map (Row.mark m') ↔ ∀ row ∈ table, m row = m' row := by
  rw [map_inj_left]
  constructor
  · intro h row hrow
    exact congrArg Row.isCurrent (h row hrow)
  · intro h row hrow
    rw [Row.mark, Row.mark, h row hrow]

variable (kind : EntityKind ρ κ π)

section Reverting

variable [DecidableEq π]

variable (table : List (Row ρ))

/-- The blocks one after another. -/
def revertBlocks (blocks : List Block) : List (Row ρ) :=
  blocks.foldl kind.revertBlock table

/-- Looking for the version before `entry` among the rows of the table finds the row. A query
that does not leave out later blocks finds a row of the table only if it has no block number. -/
def Finds (entry row : Row ρ) : Prop :=
  ∃ previous, kind.previousEntry table (kind.previousKey entry.columns) entry.blocknumber
      = some previous ∧
    (kind.beforeBlock = false → previous.blocknumber = none) ∧
    kind.restores previous row = true

/-- Whether the row is made current when the entry is reverted. -/
def promotes (number : Option ℕ) (entry row : Row ρ) : Bool :=
  (kind.previousEntry table (kind.previousKey entry.columns) number).any (kind.restores · row)

/-- The first of a list of images. -/
theorem argmin_map {α β γ : Type} [LinearOrder γ] (f : β → γ) (g : α → β) (l : List α) :
    (l.map g).argmin f = (l.argmin (f ∘ g)).map g := by
  induction l using reverseRecOn with
  | nil => rfl
  | append_singleton l a ih =>
    rw [map_append, map_singleton, argmin_concat, argmin_concat, ih]
    cases l.argmin (f ∘ g) with
    | none => rfl
    | some c =>
      simp only [Option.map_some, Function.comp_apply]
      split <;> rfl

/-- The query does not read the marks. -/
theorem previousEntry_mark (m : Row ρ → Bool) (key : π) (number : Option ℕ) :
    kind.previousEntry (table.map (Row.mark m)) key number
      = (kind.previousEntry table key number).map (Row.mark m) := by
  unfold previousEntry candidates
  rw [filter_map, argmin_map]
  rfl

variable (number : Option ℕ) {row : Row ρ} {n : ℕ} {entry e : Row ρ}

/-- Reverting an entry deletes it and changes marks. -/
theorem revertEntry_mark (table : List (Row ρ)) (m m₀ : Row ρ → Bool) (entry : Row ρ) :
    kind.revertEntry number (table.map (Row.mark m)) (entry.mark m₀)
      = (table.filter fun row ↦ row.rowId ≠ entry.rowId).map
          (Row.mark fun row ↦ m row || kind.promotes table number entry row) := by
  have hfilter : ∀ m' : Row ρ → Bool,
      (table.filter fun row ↦ row.rowId ≠ entry.rowId).map (Row.mark m')
        = (table.map (Row.mark m')).filter fun row ↦ row.rowId ≠ entry.rowId := by
    intro m'
    rw [filter_map]
    rfl
  rw [hfilter]
  unfold revertEntry promotes
  have hcolumns : (entry.mark m₀).columns = entry.columns := rfl
  rw [hcolumns, previousEntry_mark]
  cases kind.previousEntry table (kind.previousKey entry.columns) number with
  | none =>
    simp only [Option.map_none, Option.any_none, Bool.or_false]
    rfl
  | some previous =>
    simp only [Option.map_some, Option.any_some, map_map]
    refine congrArg _ (map_congr_left fun row _ ↦ ?_)
    show (if kind.restores previous row then _ else _) = _
    cases hrestores : kind.restores previous row with
    | true => simp [Row.mark, Row.promote, hrestores]
    | false => simp [Row.mark, hrestores]

/-! ### The first version in the order of a query -/

omit [DecidableEq π] in
/-- A later block comes first. -/
theorem order_lt_of_lt {later : Row ρ} {k : ℕ} (hrow : row.blocknumber = some n)
    (hlater : later.blocknumber = some k) (hlt : n < k) : kind.order later < kind.order row := by
  apply Prod.Lex.toLex_lt_toLex.mpr
  left
  simp only [hrow, hlater, descending]
  exact OrderDual.toDual_lt_toDual.mpr (WithTop.coe_lt_coe.mpr hlt)

omit [DecidableEq π] in
/-- No block number comes before any. -/
theorem order_lt_of_none {first : Row ρ} (hrow : row.blocknumber = some n)
    (hfirst : first.blocknumber = none) : kind.order first < kind.order row := by
  apply Prod.Lex.toLex_lt_toLex.mpr
  left
  simp only [hrow, hfirst, descending]
  exact OrderDual.toDual_lt_toDual.mpr (WithTop.coe_lt_top n)

/-- What comes first stays first when only rows behind it are added. -/
theorem argmin_append_of_not_lt {α γ : Type} [LinearOrder γ] {f : α → γ} {l : List α} {a : α}
    (ha : l.argmin f = some a) (l' : List α) (h : ∀ b ∈ l', ¬ f b < f a) :
    (l ++ l').argmin f = some a := by
  induction l' using reverseRecOn with
  | nil => rwa [append_nil]
  | append_singleton l' b ih =>
    have hpre := ih fun c hc ↦ h c (mem_append_left _ hc)
    rw [← append_assoc, argmin_concat, hpre]
    exact if_neg (h b (mem_append_right _ (mem_singleton_self b)))

/-- Rows of later blocks than those of a table, with other primary keys. -/
structure Above (table rows : List (Row ρ)) : Prop where
  ids : ∀ row ∈ table, ∀ r ∈ rows, row.rowId ≠ r.rowId
  numbers : ∀ r ∈ rows, ∃ k, r.blocknumber = some k ∧
    ∀ row ∈ table, ∀ n, row.blocknumber = some n → n < k

variable {kind} {table rows : List (Row ρ)}

/-- A row of the table is not restored when a later row is found. -/
theorem Above.not_restores (h : Above table rows) {previous : Row ρ} (hrow : row ∈ table)
    (hprevious : previous ∈ rows) : kind.restores previous row = false := by
  obtain ⟨k, hk, hlater⟩ := h.numbers previous hprevious
  unfold restores
  split
  · apply decide_eq_false
    rintro ⟨-, hnumber⟩
    have := hlater row hrow k (hnumber.trans hk)
    omega
  · exact decide_eq_false (h.ids row hrow previous hprevious)

theorem mem_candidates {key : π} {number : Option ℕ} :
    row ∈ kind.candidates table key number ↔ row ∈ table ∧ kind.previousKey row.columns = key ∧
      (kind.beforeBlock = true → row.before number = true) := by
  unfold candidates
  rw [mem_filter, decide_eq_true_iff]

theorem candidates_append (key : π) (number : Option ℕ) :
    kind.candidates (table ++ rows) key number
      = kind.candidates table key number ++ kind.candidates rows key number :=
  filter_append ..

/-- When each selected row of the table comes behind one of the later rows, no row of the table
is made current. -/
theorem Above.promotes_eq_false (h : Above table rows) {number : Option ℕ} (hrow : row ∈ table)
    (hbehind : ∀ a ∈ kind.candidates table (kind.previousKey entry.columns) number,
      ∃ b ∈ kind.candidates rows (kind.previousKey entry.columns) number,
        kind.order b < kind.order a) :
    kind.promotes (table ++ rows) number entry row = false := by
  unfold promotes
  cases hprevious : kind.previousEntry (table ++ rows) (kind.previousKey entry.columns) number with
  | none => rfl
  | some previous =>
    unfold previousEntry at hprevious
    have hmem := argmin_mem hprevious
    rw [candidates_append] at hmem hprevious
    rcases mem_append.mp hmem with hold | hnew
    · obtain ⟨b, hb, hlt⟩ := hbehind previous hold
      exact absurd hlt (not_lt_of_mem_argmin (mem_append_right _ hb) hprevious)
    · exact h.not_restores hrow (mem_candidates.mp hnew).1

/-- A query over all blocks finds the reverted row or one like it, unless it finds a row of the
table without a block number. -/
theorem Above.promotes_iff_of_all (h : Above table rows) (hall : kind.beforeBlock = false)
    (hentry : entry ∈ rows) (hrow : row ∈ table) :
    kind.promotes (table ++ rows) entry.blocknumber entry row = true ↔
      kind.Finds table entry row := by
  have hcandidate : ∀ {l : List (Row ρ)} {a : Row ρ},
      a ∈ kind.candidates l (kind.previousKey entry.columns) entry.blocknumber ↔
        a ∈ l ∧ kind.previousKey a.columns = kind.previousKey entry.columns := by
    intro l a
    rw [mem_candidates]
    simp [hall]
  by_cases hnull : ∃ a ∈ kind.candidates table (kind.previousKey entry.columns)
      entry.blocknumber, a.blocknumber = none
  · obtain ⟨a, ha, hnone⟩ := hnull
    cases hfirst : kind.previousEntry table (kind.previousKey entry.columns)
        entry.blocknumber with
    | none =>
      rw [previousEntry, argmin_eq_none] at hfirst
      rw [hfirst] at ha
      cases ha
    | some first =>
      have hfirstnone : first.blocknumber = none := by
        cases hnumber : first.blocknumber with
        | none => rfl
        | some n =>
          exact absurd (kind.order_lt_of_none hnumber hnone)
            (not_lt_of_mem_argmin ha hfirst)
      have happend : kind.previousEntry (table ++ rows) (kind.previousKey entry.columns)
          entry.blocknumber = some first := by
        rw [previousEntry, candidates_append]
        apply argmin_append_of_not_lt hfirst
        intro b hb
        obtain ⟨k, hk, -⟩ := h.numbers b (hcandidate.mp hb).1
        exact (kind.order_lt_of_none hk hfirstnone).asymm
      unfold promotes Finds
      rw [happend, hfirst]
      constructor
      · intro hrestores
        exact ⟨first, rfl, fun _ ↦ hfirstnone, hrestores⟩
      · rintro ⟨previous, heq, -, hrestores⟩
        cases heq
        exact hrestores
  · have hfalse : kind.promotes (table ++ rows) entry.blocknumber entry row = false := by
      apply h.promotes_eq_false hrow
      intro a ha
      refine ⟨entry, hcandidate.mpr ⟨hentry, rfl⟩, ?_⟩
      cases hnumber : a.blocknumber with
      | none => exact absurd ⟨a, ha, hnumber⟩ hnull
      | some n =>
        obtain ⟨k, hk, hlater⟩ := h.numbers entry hentry
        exact kind.order_lt_of_lt hnumber hk (hlater a (hcandidate.mp ha).1 n hnumber)
    rw [hfalse]
    constructor
    · intro h
      cases h
    · rintro ⟨previous, hprevious, hnone, -⟩
      exact absurd ⟨previous, argmin_mem hprevious, hnone hall⟩ hnull

/-- A query over earlier blocks finds a row of the table when no later row of an earlier block
is a version of the same entity. -/
theorem Above.promotes_iff_of_before (h : Above table rows) (hbefore : kind.beforeBlock = true)
    (hrow : row ∈ table) :
    kind.promotes (table ++ rows) entry.blocknumber entry row = true ↔
      kind.Finds table entry row ∧
        ∀ e ∈ rows, kind.previousKey e.columns = kind.previousKey entry.columns →
          e.before entry.blocknumber = false := by
  by_cases hearlier : ∃ e ∈ rows, kind.previousKey e.columns = kind.previousKey entry.columns ∧
      e.before entry.blocknumber = true
  · obtain ⟨e, he, hkey, hebefore⟩ := hearlier
    have hfalse : kind.promotes (table ++ rows) entry.blocknumber entry row = false := by
      apply h.promotes_eq_false hrow
      intro a ha
      refine ⟨e, mem_candidates.mpr ⟨he, hkey, fun _ ↦ hebefore⟩, ?_⟩
      obtain ⟨hatable, -, habefore⟩ := mem_candidates.mp ha
      obtain ⟨k, hk, hlater⟩ := h.numbers e he
      cases hnumber : a.blocknumber with
      | none =>
        have := habefore hbefore
        simp [Row.before, hnumber] at this
      | some n => exact kind.order_lt_of_lt hnumber hk (hlater a hatable n hnumber)
    rw [hfalse]
    constructor
    · intro h
      cases h
    · rintro ⟨-, hnone⟩
      rw [hnone e he hkey] at hebefore
      cases hebefore
  · have hrows : kind.candidates rows (kind.previousKey entry.columns) entry.blocknumber = [] := by
      apply eq_nil_iff_forall_not_mem.mpr
      intro e he
      obtain ⟨hmem, hkey, hebefore⟩ := mem_candidates.mp he
      exact hearlier ⟨e, hmem, hkey, hebefore hbefore⟩
    unfold promotes Finds previousEntry
    rw [candidates_append, hrows, append_nil, Option.any_eq_true]
    constructor
    · rintro ⟨previous, hprevious, hrestores⟩
      refine ⟨⟨previous, hprevious, ?_, hrestores⟩, ?_⟩
      · rw [hbefore]
        exact fun h ↦ absurd h.symm Bool.false_ne_true
      · intro e he hkey
        apply Bool.eq_false_of_not_eq_true
        exact fun hebefore ↦ hearlier ⟨e, he, hkey, hebefore⟩
    · rintro ⟨⟨previous, hprevious, -, hrestores⟩, -⟩
      exact ⟨previous, hprevious, hrestores⟩

/-! ### A block, and all blocks -/

omit [DecidableEq π] in
/-- Deleting a row by its primary key. -/
theorem filter_rowId_ne {l l' : List (Row ρ)} (h : ((l ++ e :: l').map Row.rowId).Nodup) :
    (l ++ e :: l').filter (fun row ↦ row.rowId ≠ e.rowId) = l ++ l' := by
  rw [map_append, map_cons, nodup_middle] at h
  have hother : ∀ row ∈ l ++ l', row.rowId ≠ e.rowId := by
    intro row hrow heq
    apply (nodup_cons.mp h).1
    rw [← heq, ← map_append]
    exact mem_map_of_mem hrow
  rw [filter_append, filter_cons_of_neg (by simp)]
  congr 1
  · apply filter_eq_self.mpr
    intro row hrow
    simpa using hother row (mem_append_left _ hrow)
  · apply filter_eq_self.mpr
    intro row hrow
    simpa using hother row (mem_append_right _ hrow)

/-- A reverted row makes current what its query finds in the table, unless it finds a version
of a block that is still there. -/
theorem Above.promotes_iff {entries : List (Row ρ)} (h : Above table (rows ++ entries))
    (hrows : ∀ e ∈ rows, e.before (some n) = true)
    (hentries : ∀ e ∈ entries, e.blocknumber = some n) (hentry : entry ∈ entries)
    (hrow : row ∈ table) :
    kind.promotes (table ++ (rows ++ entries)) (some n) entry row = true ↔
      kind.Finds table entry row ∧ (kind.beforeBlock = true →
        ∀ e ∈ rows, kind.previousKey e.columns ≠ kind.previousKey entry.columns) := by
  rw [← hentries entry hentry]
  cases hbefore : kind.beforeBlock with
  | false =>
    rw [h.promotes_iff_of_all hbefore (mem_append_right _ hentry) hrow]
    simp
  | true =>
    rw [h.promotes_iff_of_before hbefore hrow, hentries entry hentry]
    refine and_congr_right fun _ ↦ ?_
    constructor
    · intro hnone _ e he hkey
      have := hnone e (mem_append_left _ he) hkey
      rw [hrows e he] at this
      cases this
    · intro hother e he hkey
      rcases mem_append.mp he with hold | hnew
      · exact absurd hkey (hother rfl e hold)
      · simp [Row.before, hentries e hnew]

/-- The rows of a block, one after another. -/
theorem foldl_revertEntry {rows : List (Row ρ)} (m₀ : Row ρ → Bool)
    (hrows : ∀ e ∈ rows, e.before (some n) = true) (entries : List (Row ρ)) :
    ∀ m : Row ρ → Bool, Above table (rows ++ entries) →
      (∀ e ∈ entries, e.blocknumber = some n) →
      ((table ++ (rows ++ entries)).map Row.rowId).Nodup →
      ∃ m' : Row ρ → Bool, (entries.map (Row.mark m₀)).foldl (kind.revertEntry (some n))
          ((table ++ (rows ++ entries)).map (Row.mark m)) = (table ++ rows).map (Row.mark m') ∧
        ∀ row ∈ table, m' row = true ↔ m row = true ∨ ∃ entry ∈ entries,
          kind.Finds table entry row ∧ (kind.beforeBlock = true →
            ∀ e ∈ rows, kind.previousKey e.columns ≠ kind.previousKey entry.columns) := by
  induction entries with
  | nil =>
    intro m _ _ _
    refine ⟨m, by simp, ?_⟩
    simp
  | cons entry entries ih =>
    intro m h hentries hids
    have hfilter : (table ++ (rows ++ entry :: entries)).filter
        (fun row ↦ row.rowId ≠ entry.rowId) = table ++ (rows ++ entries) := by
      rw [← append_assoc] at hids ⊢
      rw [filter_rowId_ne hids, append_assoc]
    have hsublist : (table ++ (rows ++ entries)).Sublist (table ++ (rows ++ entry :: entries)) :=
      ((sublist_cons_self entry entries).append_left rows).append_left table
    have hrest : Above table (rows ++ entries) := by
      have hmem : ∀ e ∈ rows ++ entries, e ∈ rows ++ entry :: entries := fun e he ↦
        ((sublist_cons_self entry entries).append_left rows).subset he
      exact ⟨fun row hrow e he ↦ h.ids row hrow e (hmem e he), fun e he ↦ h.numbers e (hmem e he)⟩
    obtain ⟨m', heq, hm'⟩ := ih
      (fun row ↦ m row || kind.promotes (table ++ (rows ++ entry :: entries)) (some n) entry row)
      hrest (fun e he ↦ hentries e (mem_cons_of_mem _ he)) (hids.sublist (hsublist.map _))
    refine ⟨m', ?_, ?_⟩
    · rw [map_cons, foldl_cons, revertEntry_mark, hfilter]
      exact heq
    · intro row hrow
      rw [hm' row hrow, Bool.or_eq_true,
        h.promotes_iff hrows hentries mem_cons_self hrow, exists_mem_cons_iff, or_assoc]

omit [DecidableEq π] in
/-- What is known of an added row. -/
theorem mem_newRows {blocks : List (ChainBlock × List (Change ρ κ))} (h : e ∈ newRows blocks) :
    ∃ block ∈ blocks, e ∈ addedRows block.1 block.2 :=
  mem_flatMap.mp h

omit [DecidableEq π] in
theorem eq_of_mem_addedRows {block : ChainBlock} {changes : List (Change ρ κ)}
    (h : e ∈ addedRows block changes) :
    e.blockhash = some block.hash ∧ e.blocknumber = some block.number := by
  obtain ⟨change, -, he⟩ := mem_flatMap.mp h
  obtain ⟨added, -, rfl⟩ := mem_map.mp he
  exact ⟨rfl, rfl⟩

variable {blocks : List (ChainBlock × List (Change ρ κ))}
variable {block : ChainBlock × List (Change ρ κ)}

omit [DecidableEq π] in
theorem newRows_concat : newRows (blocks ++ [block]) =
    newRows blocks ++ addedRows block.1 block.2 := by
  rw [newRows, flatMap_append, flatMap_singleton]
  rfl

omit [DecidableEq π] in
/-- The rows that blocks after a table add are above it. -/
theorem After.above (h : After table blocks) : Above table (newRows blocks) where
  ids row hrow e he := by
    have hnodup := h.ids
    rw [map_append] at hnodup
    exact (nodup_append.mp hnodup).2.2 _ (mem_map_of_mem hrow) _
      (mem_map_of_mem he)
  numbers e he := by
    obtain ⟨block, hblock, hadded⟩ := mem_newRows he
    exact ⟨block.1.number, (eq_of_mem_addedRows hadded).2, fun row hrow n hn ↦
      h.later row hrow block hblock n hn⟩

omit [DecidableEq π] in
/-- The earlier blocks. -/
theorem After.init (h : After table (blocks ++ [block])) : After table blocks where
  ids := by
    have hids := h.ids
    rw [newRows_concat, ← append_assoc, map_append] at hids
    exact (nodup_append.mp hids).1
  fresh row hrow b hb := h.fresh row hrow b (mem_append_left _ hb)
  later row hrow b hb := h.later row hrow b (mem_append_left _ hb)
  hashes := by
    have hhashes := h.hashes
    rw [map_append] at hhashes
    exact (nodup_append.mp hhashes).1
  numbers := by
    have hnumbers := h.numbers
    rw [map_append] at hnumbers
    exact (pairwise_append.mp hnumbers).1

omit [DecidableEq π] in
/-- The rows of the earlier blocks are before the last one. -/
theorem After.before (h : After table (blocks ++ [block])) :
    ∀ e ∈ newRows blocks, e.before (some block.1.number) = true := by
  intro e he
  obtain ⟨b, hb, hadded⟩ := mem_newRows he
  have hnumbers := h.numbers
  rw [map_append] at hnumbers
  have hlt := (pairwise_append.mp hnumbers).2.2 _ (mem_map_of_mem hb) block.1.number
    (mem_map_of_mem (mem_singleton_self block))
  simpa [Row.before, (eq_of_mem_addedRows hadded).2] using hlt

omit [DecidableEq π] in
/-- The rows with the hash of the last block are those it added. -/
theorem After.filter_blockhash (h : After table (blocks ++ [block])) :
    (table ++ newRows (blocks ++ [block])).filter (fun row ↦ row.blockhash = some block.1.hash)
      = addedRows block.1 block.2 := by
  have htable : table.filter (fun row ↦ row.blockhash = some block.1.hash) = [] := by
    apply filter_eq_nil_iff.mpr
    intro row hrow
    simpa using h.fresh row hrow block (mem_append_right _ (mem_singleton_self block))
  have hearlier : (newRows blocks).filter (fun row ↦ row.blockhash = some block.1.hash) = [] := by
    apply filter_eq_nil_iff.mpr
    intro e he
    obtain ⟨b, hb, hadded⟩ := mem_newRows he
    have hhashes := h.hashes
    rw [map_append] at hhashes
    have hne := (nodup_append.mp hhashes).2.2 _ (mem_map_of_mem hb) _
      (mem_map_of_mem (mem_singleton_self block))
    simpa [(eq_of_mem_addedRows hadded).1] using hne
  have hblock : (addedRows block.1 block.2).filter
      (fun row ↦ row.blockhash = some block.1.hash) = addedRows block.1 block.2 := by
    apply filter_eq_self.mpr
    intro e he
    simpa using (eq_of_mem_addedRows he).1
  rw [newRows_concat, filter_append, filter_append, htable, hearlier, hblock]
  rfl

variable (kind) in
/-- Reverting the last block. -/
theorem After.revertBlock_mark (h : After table (blocks ++ [block])) (m : Row ρ → Bool) :
    ∃ m' : Row ρ → Bool,
      kind.revertBlock ((table ++ newRows (blocks ++ [block])).map (Row.mark m)) block.1.row
        = (table ++ newRows blocks).map (Row.mark m') ∧
      ∀ row ∈ table, m' row = true ↔ m row = true ∨ ∃ entry ∈ addedRows block.1 block.2,
        kind.Finds table entry row ∧ (kind.beforeBlock = true → ∀ e ∈ newRows blocks,
          kind.previousKey e.columns ≠ kind.previousKey entry.columns) := by
  have hfilter : ((table ++ newRows (blocks ++ [block])).map (Row.mark m)).filter
      (fun row ↦ row.blockhash = some block.1.row.blockhash)
        = (addedRows block.1 block.2).map (Row.mark m) := by
    rw [filter_map, ← h.filter_blockhash]
    rfl
  have habove := h.above
  have hids := h.ids
  unfold revertBlock
  rw [hfilter]
  rw [newRows_concat] at habove hids ⊢
  exact foldl_revertEntry m h.before _ m habove (fun e he ↦ (eq_of_mem_addedRows he).2) hids

/-- What a query finds depends on the entity, not on the block that comes after the table. -/
theorem After.finds_congr (h : After table blocks) {e' : Row ρ} (he : e ∈ newRows blocks)
    (he' : e' ∈ newRows blocks) (hkey : kind.previousKey e'.columns = kind.previousKey e.columns)
    (hfinds : kind.Finds table e row) : kind.Finds table e' row := by
  have hbefore : ∀ {e : Row ρ}, e ∈ newRows blocks → ∀ row ∈ table,
      row.before e.blocknumber = row.blocknumber.isSome := by
    intro e he row hrow
    obtain ⟨k, hk, hlater⟩ := h.above.numbers e he
    cases hnumber : row.blocknumber with
    | none => simp [Row.before, hnumber]
    | some n => simpa [Row.before, hnumber, hk] using hlater row hrow n hnumber
  have hcandidates : kind.candidates table (kind.previousKey e'.columns) e'.blocknumber
      = kind.candidates table (kind.previousKey e.columns) e.blocknumber := by
    apply filter_congr
    intro row hrow
    rw [hbefore he' row hrow, hbefore he row hrow, hkey]
  unfold Finds previousEntry at hfinds ⊢
  rw [hcandidates]
  exact hfinds

variable (kind) in
/-- Reverting all blocks, the latest one first. -/
theorem revertBlocks_mark (blocks : List (ChainBlock × List (Change ρ κ))) :
    After table blocks → ∀ m : Row ρ → Bool, ∃ m' : Row ρ → Bool,
      kind.revertBlocks ((table ++ newRows blocks).map (Row.mark m))
          (blocks.reverse.map fun block ↦ block.1.row) = table.map (Row.mark m') ∧
        ∀ row ∈ table, m' row = true ↔
          m row = true ∨ ∃ entry ∈ newRows blocks, kind.Finds table entry row := by
  induction blocks using reverseRecOn with
  | nil =>
    intro _ m
    refine ⟨m, ?_, ?_⟩
    · simp [revertBlocks, newRows]
    · simp [newRows]
  | append_singleton blocks block ih =>
    intro h m
    obtain ⟨m₁, heq₁, hm₁⟩ := h.revertBlock_mark kind m
    obtain ⟨m', heq, hm'⟩ := ih h.init m₁
    refine ⟨m', ?_, ?_⟩
    · rw [reverse_append, reverse_singleton, singleton_append, map_cons,
        revertBlocks, foldl_cons, heq₁]
      exact heq
    · intro row hrow
      rw [hm' row hrow, hm₁ row hrow, or_assoc]
      refine or_congr_right ?_
      constructor
      · rintro (⟨entry, hentry, hfinds, -⟩ | ⟨entry, hentry, hfinds⟩)
        · exact ⟨entry, by rw [newRows_concat]; exact mem_append_right _ hentry, hfinds⟩
        · exact ⟨entry, by rw [newRows_concat]; exact mem_append_left _ hentry, hfinds⟩
      · rintro ⟨entry, hentry, hfinds⟩
        have hmem := hentry
        rw [newRows_concat] at hmem
        rcases mem_append.mp hmem with hold | hnew
        · exact .inr ⟨entry, hold, hfinds⟩
        -- The first block that has a version of the entity finds what this one would.
        · by_cases hearlier : ∃ e ∈ newRows blocks,
              kind.previousKey e.columns = kind.previousKey entry.columns
          · obtain ⟨e, he, hkey⟩ := hearlier
            have he' : e ∈ newRows (blocks ++ [block]) := by
              rw [newRows_concat]
              exact mem_append_left _ he
            exact .inr ⟨e, he, h.finds_congr hentry he' hkey hfinds⟩
          · exact .inl ⟨entry, hnew, hfinds, fun _ e he hkey ↦ hearlier ⟨e, he, hkey⟩⟩

end Reverting

/-! ### Indexing -/

section Indexing

variable [DecidableEq κ]

/-- The blocks one after another. -/
def indexBlocks (table : List (Row ρ)) (blocks : List (ChainBlock × List (Change ρ κ))) :
    Except String (List (Row ρ)) :=
  blocks.foldlM (fun table block ↦ kind.indexBlock table block.1 block.2) table

/-- The row is demoted by a change. -/
def DemotedBy (changes : List (Change ρ κ)) (row : Row ρ) : Prop :=
  ∃ change ∈ changes, kind.demoteKey row.columns = change.subject

/-- The row is demoted by a change of the blocks. -/
def Demoted (blocks : List (ChainBlock × List (Change ρ κ))) (row : Row ρ) : Prop :=
  ∃ block ∈ blocks, kind.DemotedBy block.2 row

variable {kind} {table : List (Row ρ)}

theorem change_eq_ok {block : ChainBlock} {change : Change ρ κ} {table' : List (Row ρ)}
    (h : kind.change block table change = .ok table') :
    table' = table.map (fun row ↦
        if kind.demoteKey row.columns = change.subject then row.demote else row)
      ++ change.added.map (Row.new block) := by
  simp only [EntityKind.change] at h
  split at h
  · split at h
    · cases h
    · cases h
      rfl
  · cases h
    rfl

/-- The changes of a block demote rows and add the new ones. -/
theorem indexBlock_mark {block : ChainBlock} (changes : List (Change ρ κ)) :
    ∀ (rows : List (Row ρ)) (m : Row ρ → Bool) (table' : List (Row ρ)),
      kind.indexBlock (rows.map (Row.mark m)) block changes = .ok table' →
      ((rows ++ addedRows block changes).map Row.rowId).Nodup →
      ∃ m' : Row ρ → Bool, table' = (rows ++ addedRows block changes).map (Row.mark m') ∧
        ∀ row ∈ rows, m' row = true ↔ m row = true ∧ ¬ kind.DemotedBy changes row := by
  induction changes with
  | nil =>
    intro rows m table' h _
    cases h
    refine ⟨m, by simp [addedRows], ?_⟩
    simp [DemotedBy]
  | cons change changes ih =>
    intro rows m table' h hids
    obtain ⟨table₁, hchange, hrest⟩ := bind_eq_ok.mp h
    have hadded : addedRows block (change :: changes)
        = change.added.map (Row.new block) ++ addedRows block changes := rfl
    rw [hadded, ← append_assoc] at hids
    -- The marks of the rows that were there, and of those the change adds.
    let m₁ : Row ρ → Bool := fun row ↦
      if row.rowId ∈ rows.map Row.rowId then
        m row && decide (kind.demoteKey row.columns ≠ change.subject)
      else true
    have hm₁ : ∀ row ∈ rows, m₁ row =
        (m row && decide (kind.demoteKey row.columns ≠ change.subject)) := by
      intro row hrow
      exact if_pos (mem_map_of_mem hrow)
    have htable₁ : table₁ = (rows ++ change.added.map (Row.new block)).map (Row.mark m₁) := by
      rw [change_eq_ok hchange, map_append, map_map]
      congr 1
      · apply map_congr_left
        intro row hrow
        rw [Row.mark, hm₁ row hrow]
        by_cases hkey : kind.demoteKey row.columns = change.subject
        · simp [Row.demote, Row.mark, hkey]
        · simp [Row.mark, hkey]
      · conv_lhs => rw [← map_id (change.added.map (Row.new block))]
        apply map_congr_left
        intro e he
        have hnew : e.rowId ∉ rows.map Row.rowId := by
          rw [map_append, map_append] at hids
          have hdisjoint := (nodup_append.mp (nodup_append.mp hids).1).2.2
          exact fun hmem ↦ hdisjoint _ hmem _ (mem_map_of_mem he) rfl
        obtain ⟨added, -, rfl⟩ := mem_map.mp he
        simp only [id_eq, Row.mark, m₁, if_neg hnew]
        rfl
    subst htable₁
    obtain ⟨m', heq, hm'⟩ := ih _ m₁ table' hrest hids
    refine ⟨m', ?_, ?_⟩
    · rw [heq, hadded, append_assoc]
    · intro row hrow
      rw [hm' row (mem_append_left _ hrow), hm₁ row hrow]
      simp only [DemotedBy, Bool.and_eq_true, decide_eq_true_eq, exists_mem_cons_iff, not_or,
        and_assoc, ne_eq]

/-- So do the changes of blocks. -/
theorem indexBlocks_mark (blocks : List (ChainBlock × List (Change ρ κ))) :
    ∀ (rows : List (Row ρ)) (m : Row ρ → Bool) (table' : List (Row ρ)),
      kind.indexBlocks (rows.map (Row.mark m)) blocks = .ok table' →
      ((rows ++ newRows blocks).map Row.rowId).Nodup →
      ∃ m' : Row ρ → Bool, table' = (rows ++ newRows blocks).map (Row.mark m') ∧
        ∀ row ∈ rows, m' row = true ↔ m row = true ∧ ¬ kind.Demoted blocks row := by
  induction blocks with
  | nil =>
    intro rows m table' h _
    cases h
    refine ⟨m, by simp [newRows], ?_⟩
    simp [Demoted]
  | cons block blocks ih =>
    intro rows m table' h hids
    obtain ⟨table₁, hblock, hrest⟩ := bind_eq_ok.mp h
    have hnew : newRows (block :: blocks) = addedRows block.1 block.2 ++ newRows blocks := rfl
    rw [hnew, ← append_assoc] at hids
    have hfirst : ((rows ++ addedRows block.1 block.2).map Row.rowId).Nodup := by
      rw [map_append] at hids
      exact (nodup_append.mp hids).1
    obtain ⟨m₁, rfl, hm₁⟩ := indexBlock_mark _ _ _ _ hblock hfirst
    obtain ⟨m', heq, hm'⟩ := ih _ m₁ table' hrest hids
    refine ⟨m', ?_, ?_⟩
    · rw [heq, hnew, append_assoc]
    · intro row hrow
      rw [hm' row (mem_append_left _ hrow), hm₁ row hrow]
      simp only [Demoted, exists_mem_cons_iff, not_or, and_assoc]

end Indexing

/-! ### Indexing and reverting -/

section Undoing

variable [DecidableEq κ] [DecidableEq π]

/-- For each entity that the blocks change, the query finds the rows that were current. -/
structure Restorable (table : List (Row ρ)) (blocks : List (ChainBlock × List (Change ρ κ))) :
    Prop where
  found : ∀ row ∈ table, row.isCurrent = true → kind.Demoted blocks row →
    ∃ entry ∈ newRows blocks, kind.Finds table entry row
  current : ∀ row ∈ table, ∀ entry ∈ newRows blocks, kind.Finds table entry row →
    row.isCurrent = true

variable {kind}

/-- A table is as it was after blocks are indexed and reverted just when it was restorable. -/
theorem reverted_eq_iff {table table' : List (Row ρ)}
    {blocks : List (ChainBlock × List (Change ρ κ))} (h : After table blocks)
    (hindex : kind.indexBlocks table blocks = .ok table') :
    kind.revertBlocks table' (blocks.reverse.map fun block ↦ block.1.row) = table ↔
      kind.Restorable table blocks := by
  rw [← map_mark_isCurrent table] at hindex
  obtain ⟨m₁, rfl, hm₁⟩ := indexBlocks_mark _ _ _ _ hindex h.ids
  obtain ⟨m, heq, hm⟩ := revertBlocks_mark kind blocks h m₁
  have hmarks : kind.revertBlocks ((table ++ newRows blocks).map (Row.mark m₁))
      (blocks.reverse.map fun block ↦ block.1.row) = table ↔
        ∀ row ∈ table, m row = row.isCurrent := by
    rw [heq, ← map_mark_eq_iff, map_mark_isCurrent]
  rw [hmarks]
  have hcurrent : ∀ row ∈ table, m row = true ↔ row.isCurrent = true ∧ ¬ kind.Demoted blocks row ∨
      ∃ entry ∈ newRows blocks, kind.Finds table entry row := by
    intro row hrow
    rw [hm row hrow, hm₁ row hrow]
  constructor
  · intro hsame
    constructor
    · intro row hrow hiscurrent hdemoted
      rw [← hsame row hrow, hcurrent row hrow] at hiscurrent
      rcases hiscurrent with ⟨-, hnot⟩ | hfinds
      · exact absurd hdemoted hnot
      · exact hfinds
    · intro row hrow entry hentry hfinds
      rw [← hsame row hrow, hcurrent row hrow]
      exact .inr ⟨entry, hentry, hfinds⟩
  · intro hrestorable row hrow
    rw [Bool.eq_iff_iff, hcurrent row hrow]
    constructor
    · rintro (⟨hiscurrent, -⟩ | ⟨entry, hentry, hfinds⟩)
      · exact hiscurrent
      · exact hrestorable.current row hrow entry hentry hfinds
    · intro hiscurrent
      by_cases hdemoted : kind.Demoted blocks row
      · exact .inr (hrestorable.found row hrow hiscurrent hdemoted)
      · exact .inl ⟨hiscurrent, hdemoted⟩

end Undoing

end EntityKind

end ColivingSpec.Discovery
