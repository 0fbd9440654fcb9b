import ColivingSpec.ContentNode.ClockTransactions
import Mathlib.Data.Multiset.Range

/-!
# The clock ledger

What the clocks of a user say: its clock, its clock records, and the rows that these name. A ledger
has clock records for one up to the clock, and one row for each of them. `createNewDataRecord` keeps
it, whatever runs between its statements, and a sync keeps it just when what it imports is a ledger
of its own.
-/

namespace ColivingSpec

open Lib List Multiset

/-- What is said of one user: the clock of its row, what its clock records say, and what they
should say of its rows. -/
structure ClockPart where
  clocks : Multiset ℤ
  records : Multiset (ℤ × SourceTable)
  rows : Multiset (ℤ × SourceTable)

namespace Database

/-- The part of a user. -/
def clockPart (uuid : UUID) (db : Database) : ClockPart where
  clocks := ((db.cnodeUsers.filter fun user ↦ user.cnodeUserUUID = uuid).map CNodeUser.clock :
    List ℤ)
  records := ((db.clockRecords.filter fun record ↦ record.cnodeUserUUID = uuid).map
    ClockRecord.stamp : List (ℤ × SourceTable))
  rows := ((db.sourceRows.filter fun row ↦ row.cnodeUserUUID = uuid).map SourceRow.stamp :
    List (ℤ × SourceTable))

end Database

variable (part : ClockPart) (db : Database) (row : SourceRow)

/-- What a write does to the part of its user. -/
def Write.applyPart : Write → ClockPart
  | .createCNodeUser row => { part with clocks := part.clocks + {row.clock} }
  | .updateCNodeUser row => { part with clocks := part.clocks.map fun _ ↦ row.clock }
  | .createClockRecord row => { part with records := part.records + {row.stamp} }
  | .createRow row => { part with rows := part.rows + {row.stamp} }

/-- A row is added to those that are there. -/
theorem Write.sourceRows_createRow :
    (Write.apply db (.createRow row)).sourceRows.Perm (db.sourceRows ++ [row]) := by
  unfold Database.sourceRows Database.dataRecords recordsOf
  apply perm_iff_count.mpr
  intro other
  cases row with
  | contentList row => simp [Write.apply]
  | data record =>
    cases record <;> simp [Write.apply, List.count_cons] <;> omega

theorem Write.apply_createRow :
    (Write.apply db (.createRow row)).cnodeUsers = db.cnodeUsers ∧
      (Write.apply db (.createRow row)).clockRecords = db.clockRecords := by
  cases row with
  | contentList row => exact ⟨rfl, rfl⟩
  | data record => cases record <;> exact ⟨rfl, rfl⟩

/-- The part of a user after a write. -/
theorem Database.clockPart_apply (uuid : UUID) (db : Database) (w : Write) :
    (w.apply db).clockPart uuid
      = if w.cnodeUserUUID = uuid then Write.applyPart (db.clockPart uuid) w
        else db.clockPart uuid := by
  cases w with
  | createCNodeUser | createClockRecord =>
    simp only [Write.apply, Write.cnodeUserUUID, Write.applyPart, clockPart, sourceRows,
      dataRecords, filter_append]
    split
    · next h => simp [h, ← coe_add]
    · next h => simp [h]
  | updateCNodeUser row =>
    have hmap : ((db.cnodeUsers.map fun user ↦
        if user.cnodeUserUUID = row.cnodeUserUUID then row else user).filter
          fun user ↦ user.cnodeUserUUID = uuid).map CNodeUser.clock
        = if row.cnodeUserUUID = uuid then
            ((db.cnodeUsers.filter fun user ↦ user.cnodeUserUUID = uuid).map
              CNodeUser.clock).map fun _ ↦ row.clock
          else (db.cnodeUsers.filter fun user ↦ user.cnodeUserUUID = uuid).map CNodeUser.clock := by
      induction db.cnodeUsers with
      | nil => simp
      | cons user users ih =>
        by_cases hrow : row.cnodeUserUUID = uuid <;> by_cases huser : user.cnodeUserUUID = uuid <;>
          grind
    by_cases hrow : row.cnodeUserUUID = uuid
    · rw [if_pos hrow] at hmap
      simp only [Write.apply, Write.cnodeUserUUID, hrow, Write.applyPart, clockPart, sourceRows,
        dataRecords, if_true] at hmap ⊢
      rw [hmap]
      rfl
    · rw [if_neg hrow] at hmap
      simp only [Write.apply, Write.cnodeUserUUID, hrow, clockPart, sourceRows, dataRecords, hmap,
        if_false]
  | createRow row =>
    obtain ⟨husers, hrecords⟩ := Write.apply_createRow db row
    have hrows := ((Write.sourceRows_createRow db row).filter
      fun row ↦ row.cnodeUserUUID = uuid).map SourceRow.stamp
    have hcoe := coe_eq_coe.mpr hrows
    simp only [Write.cnodeUserUUID, Write.applyPart, clockPart, husers, hrecords, hcoe,
      filter_append]
    by_cases hrow : row.cnodeUserUUID = uuid
    · simp [hrow, ← coe_add]
    · simp [hrow]

/-- The database of a node, in the parts of its users. -/
def clockParts : Parts Database Write UUID ClockPart where
  apply := Write.apply
  keyOf := Write.cnodeUserUUID
  part := Database.clockPart
  applyPart := Write.applyPart
  part_apply db w := by rw [Database.clockPart_apply, if_pos rfl]
  part_apply_of_ne db w uuid h := by rw [Database.clockPart_apply, if_neg h]

/-- The clocks `1` to `n`. -/
def clocksUpTo (n : ℕ) : Multiset ℤ := (Multiset.range n).map fun k : ℕ ↦ (k : ℤ) + 1

/-- A user with `n` clock records: their clocks are those up to `n`, the last one is the clock of
the user, and there is one row for each record. -/
structure ClockPart.LedgerOf (part : ClockPart) (n : ℕ) : Prop where
  clock : ∀ clock ∈ part.clocks, clock = n
  nobody : part.clocks = 0 → n = 0
  records : part.records.map Prod.fst = clocksUpTo n
  rows : part.rows = part.records

/-- The clocks of a user are a ledger. -/
def ClockPart.Ledger : Prop := ∃ n, part.LedgerOf n

theorem clocksUpTo_succ (n : ℕ) : clocksUpTo (n + 1) = clocksUpTo n + {(n : ℤ) + 1} := by
  simp [clocksUpTo, Multiset.range_succ, singleton_add, add_comm]

/-! ### What a statement reads -/

section Reads

variable {db : Database} {uuid : UUID} {part : ClockPart} {n : ℕ}

/-- The subquery gives the clock of the user. -/
theorem mem_clocks_of_currentClock {clock : ℤ}
    (h : ClockStatement.currentClock db uuid = .ok clock) : clock ∈ (db.clockPart uuid).clocks := by
  unfold ClockStatement.currentClock Database.selectCNodeUserClock at h
  cases hfind : db.cnodeUsers.find? fun user ↦ user.cnodeUserUUID = uuid with
  | none =>
    rw [hfind] at h
    cases h
  | some user =>
    rw [hfind] at h
    cases h
    have hmem := mem_of_find?_eq_some hfind
    have huuid := List.find?_some hfind
    simp only [decide_eq_true_eq] at huuid
    simp only [Database.clockPart, mem_coe, List.mem_map, List.mem_filter]
    exact ⟨user, ⟨hmem, decide_eq_true huuid⟩, rfl⟩

/-- The last clock of a ledger's clock records. -/
theorem maxClock_of_ledger (h : (db.clockPart uuid).records.map Prod.fst = clocksUpTo n) :
    (db.maxClock uuid).getD 0 = n := by
  have hmem : ∀ clock, clock ∈ (db.clockRecords.filter fun record ↦
      record.cnodeUserUUID = uuid).map ClockRecord.clock ↔ clock ∈ clocksUpTo n := by
    intro clock
    rw [← h]
    simp [Database.clockPart, ClockRecord.stamp]
  have hup : ∀ clock, clock ∈ clocksUpTo n ↔ ∃ k < n, (k : ℤ) + 1 = clock := by
    intro clock
    simp [clocksUpTo]
  unfold Database.maxClock
  cases hmax : ((db.clockRecords.filter fun record ↦
      record.cnodeUserUUID = uuid).map ClockRecord.clock).max? with
  | none =>
    rw [max?_eq_none_iff] at hmax
    rw [hmax] at hmem
    cases n with
    | zero => rfl
    | succ n =>
      have hlast := (hmem (n + 1)).mpr ((hup _).mpr ⟨n, Nat.lt_succ_self n, rfl⟩)
      exact absurd hlast not_mem_nil
  | some clock =>
    obtain ⟨hclock, hle⟩ := max?_eq_some_iff.mp hmax
    obtain ⟨k, hk, rfl⟩ := (hup _).mp ((hmem _).mp hclock)
    have hlast := hle n ((hmem _).mpr ((hup _).mpr ⟨n - 1, by omega, by omega⟩))
    simp only [Option.getD_some]
    omega

/-- The clocks that go on from the last one. -/
theorem clocks_of_contiguousFrom {clocks : List ℤ}
    (h : Database.contiguousFrom n clocks = true) :
    clocksUpTo n + (clocks : Multiset ℤ) = clocksUpTo (n + clocks.length) ∧
      ∀ clock, clocks.max? = some clock → clock = (n + clocks.length : ℕ) := by
  induction clocks generalizing n with
  | nil => simp
  | cons first rest ih =>
    simp only [Database.contiguousFrom, Bool.and_eq_true, decide_eq_true_eq] at h
    obtain ⟨rfl, hrest⟩ := h
    have hcast : ((n + 1 : ℕ) : ℤ) = (n : ℤ) + 1 := by push_cast; rfl
    rw [← hcast] at hrest
    obtain ⟨hclocks, hmax⟩ := ih hrest
    have hlength : n + (length (((n : ℤ) + 1) :: rest)) = n + 1 + rest.length := by
      simp only [length_cons]
      omega
    rw [hlength]
    refine ⟨?_, fun clock hclock ↦ ?_⟩
    · rw [← hclocks, clocksUpTo_succ, add_assoc, ← cons_coe, ← singleton_add]
    · cases hother : rest.max? with
      | none =>
        rw [max?_eq_none_iff] at hother
        subst hother
        simp at hclock
        simp [← hclock]
      | some last =>
        have hlast := hmax last hother
        rw [max?_cons, hother] at hclock
        simp only [Option.elim_some, Option.some.injEq] at hclock
        omega

end Reads

/-! ### `createNewDataRecord` -/

section CreateNewDataRecord

variable {db : Database} {uuid : UUID} {writes : List Write} {part part' : ClockPart} {n : ℕ}

/-- The clock of a user that is there goes up. -/
theorem incrementClock_eq_ok (h : ClockStatement.incrementClock uuid db = .ok writes) :
    (writes = [] ∧ (db.clockPart uuid).clocks = 0) ∨
      ∃ user : CNodeUser, user.cnodeUserUUID = uuid ∧
        user.clock ∈ (db.clockPart uuid).clocks ∧
        writes = [.updateCNodeUser { user with clock := user.clock + 1 }] := by
  unfold ClockStatement.incrementClock at h
  split at h
  · next hfind =>
    cases h
    refine .inl ⟨rfl, ?_⟩
    have hnone := find?_eq_none.mp hfind
    have hempty : (db.cnodeUsers.filter fun user ↦ user.cnodeUserUUID = uuid) = [] :=
      filter_eq_nil_iff.mpr hnone
    simp [Database.clockPart, hempty]
  · next user hfind =>
    cases h
    have huuid := List.find?_some hfind
    simp only [decide_eq_true_eq] at huuid
    refine .inr ⟨user, huuid, ?_, rfl⟩
    apply mem_clocks_of_currentClock
    simp only [ClockStatement.currentClock, Database.selectCNodeUserClock, hfind, Option.map_some]

theorem createClockRecord_eq_ok {sourceTable : SourceTable}
    (h : ClockStatement.createClockRecord uuid sourceTable db = .ok writes) :
    ∃ clock ∈ (db.clockPart uuid).clocks,
      writes = [.createClockRecord ⟨uuid, clock, sourceTable⟩] := by
  obtain ⟨clock, hclock, h⟩ := bind_eq_ok.mp h
  obtain ⟨db', -, h⟩ := bind_eq_ok.mp h
  cases h
  exact ⟨clock, mem_clocks_of_currentClock hclock, rfl⟩

theorem createRow_eq_ok {queryObj : SourceRow}
    (h : ClockStatement.createRow uuid queryObj db = .ok writes) :
    ∃ clock ∈ (db.clockPart uuid).clocks, writes = [.createRow (queryObj.stamped uuid clock)] := by
  obtain ⟨clock, hclock, h⟩ := bind_eq_ok.mp h
  obtain ⟨db', -, h⟩ := bind_eq_ok.mp h
  cases h
  exact ⟨clock, mem_clocks_of_currentClock hclock, rfl⟩

/-- A ledger with the next clock, its record and its row. -/
theorem ClockPart.LedgerOf.succ {sourceTable : SourceTable} {clocks : Multiset ℤ}
    (h : part.LedgerOf n) (hclocks : ∀ clock ∈ clocks, clock = (n : ℤ) + 1) (hne : clocks ≠ 0) :
    ClockPart.LedgerOf
      ⟨clocks, part.records + {((n : ℤ) + 1, sourceTable)},
        part.rows + {((n : ℤ) + 1, sourceTable)}⟩ (n + 1) where
  clock clock hclock := by
    rw [hclocks clock hclock]
    rfl
  nobody hempty := absurd hempty hne
  records := by
    rw [Multiset.map_add, h.records, clocksUpTo_succ]
    rfl
  rows := by rw [h.rows]

/-- The three statements add one clock, with its record and its row. -/
theorem keeps_createNewDataRecord (uuid : UUID) (queryObj : SourceRow) :
    clockParts.Keeps (fun _ ↦ ClockPart.Ledger) uuid
      (ClockStatement.createNewDataRecord uuid queryObj) where
  writesTo statement hstatement db writes hwrites w hw := by
    simp only [ClockStatement.createNewDataRecord, List.mem_cons, not_mem_nil,
      or_false] at hstatement
    rcases hstatement with rfl | rfl | rfl
    · rcases incrementClock_eq_ok hwrites with ⟨rfl, -⟩ | ⟨user, huuid, -, rfl⟩
      · cases hw
      · cases List.mem_singleton.mp hw
        exact huuid
    · obtain ⟨clock, -, rfl⟩ := createClockRecord_eq_ok hwrites
      cases List.mem_singleton.mp hw
      rfl
    · obtain ⟨clock, -, rfl⟩ := createRow_eq_ok hwrites
      cases List.mem_singleton.mp hw
      exact SourceRow.cnodeUserUUID_stamped uuid clock queryObj
  follows part part' hledger hfollows := by
    obtain ⟨n, hledger⟩ := hledger
    rcases hfollows with _ | ⟨hpart, hincrement, hfollows⟩
    rcases hfollows with _ | ⟨hpart', hrecord, hfollows⟩
    rcases hfollows with _ | ⟨hpart'', hrow, hfollows⟩
    rw [hfollows.nil_eq]
    obtain ⟨clock, hclock, rfl⟩ := createClockRecord_eq_ok hrecord
    obtain ⟨clock', hclock', rfl⟩ := createRow_eq_ok hrow
    rw [show Database.clockPart uuid _ = _ from hpart'] at hclock
    rw [show Database.clockPart uuid _ = _ from hpart''] at hclock'
    rcases incrementClock_eq_ok hincrement with ⟨rfl, hnone⟩ | ⟨user, huuid, hmem, rfl⟩
    · -- A user that is not there has no clock to read.
      rw [show Database.clockPart uuid _ = _ from hpart] at hnone
      simp only [foldl_nil, hnone] at hclock
      exact absurd hclock (notMem_zero clock)
    · rw [show Database.clockPart uuid _ = _ from hpart] at hmem
      have hn : user.clock = n := hledger.clock user.clock hmem
      simp only [List.foldl_cons, foldl_nil, clockParts, Write.applyPart,
        Multiset.mem_map] at hclock hclock' ⊢
      obtain ⟨-, -, rfl⟩ := hclock
      obtain ⟨-, -, rfl⟩ := hclock'
      rw [SourceRow.stamp_stamped, hn]
      refine ⟨n + 1, hledger.succ ?_ ?_⟩
      · intro clock hclock
        obtain ⟨-, -, rfl⟩ := Multiset.mem_map.mp hclock
        rfl
      · intro hempty
        rw [Multiset.map_eq_zero] at hempty
        rw [hempty] at hmem
        exact absurd hmem (notMem_zero _)

/-- Any number of records in one transaction. -/
theorem keeps_createNewDataRecords (uuid : UUID) (queryObjs : List SourceRow) :
    clockParts.Keeps (fun _ ↦ ClockPart.Ledger) uuid
      (queryObjs.flatMap (ClockStatement.createNewDataRecord uuid)) := by
  induction queryObjs with
  | nil => exact Parts.keeps_nil _ uuid
  | cons queryObj queryObjs ih => exact (keeps_createNewDataRecord uuid queryObj).append ih

/-- A row of `CNodeUsers` is created for a user that has none. -/
theorem createCNodeUser_eq_ok {row : CNodeUser}
    (h : ClockStatement.createCNodeUser row db = .ok writes) :
    writes = [.createCNodeUser row] ∧ (db.clockPart row.cnodeUserUUID).clocks = 0 := by
  obtain ⟨db', hinsert, h⟩ := bind_eq_ok.mp h
  obtain ⟨hclash, -, -⟩ := Table.insert_eq_ok.mp hinsert
  cases h
  refine ⟨rfl, ?_⟩
  have hempty : (db.cnodeUsers.filter fun user ↦ user.cnodeUserUUID = row.cnodeUserUUID) = [] := by
    apply filter_eq_nil_iff.mpr
    intro user huser heq
    have hapart := hclash user huser
    simp [Database.cnodeUserTable, heq] at hapart
  simp [Database.clockPart, hempty]

/-- A new user begins at the clock zero. -/
theorem keeps_createCNodeUser (row : CNodeUser) (hclock : row.clock = 0) :
    clockParts.Keeps (fun _ ↦ ClockPart.Ledger) row.cnodeUserUUID
      [ClockStatement.createCNodeUser row] where
  writesTo statement hstatement db writes hwrites w hw := by
    cases List.mem_singleton.mp hstatement
    obtain ⟨rfl, -⟩ := createCNodeUser_eq_ok hwrites
    cases List.mem_singleton.mp hw
    rfl
  follows part part' hledger hfollows := by
    obtain ⟨n, hledger⟩ := hledger
    rcases hfollows with _ | ⟨hpart, hcreate, hfollows⟩
    rw [hfollows.nil_eq]
    obtain ⟨rfl, hnone⟩ := createCNodeUser_eq_ok hcreate
    rw [show Database.clockPart row.cnodeUserUUID _ = _ from hpart] at hnone
    cases hledger.nobody hnone
    refine ⟨0, ?_, fun _ ↦ rfl, hledger.records, hledger.rows⟩
    intro clock hmem
    simp only [List.foldl_cons, foldl_nil, clockParts, Write.applyPart, hnone, zero_add,
      Multiset.mem_singleton] at hmem
    rw [hmem, hclock]
    rfl

end CreateNewDataRecord

/-! ### Syncs -/

/-- What the clock records of a bundle say. -/
def importedRecords (clockRecords : List ClockRecord) : Multiset (ℤ × SourceTable) :=
  (clockRecords.map ClockRecord.stamp : List (ℤ × SourceTable))

/-- What clock records should say of the rows of a bundle that are written. -/
def importedRows (files : List File) (digitalContents : List DigitalContent)
    (colivingUsers : List ColivingUser) : Multiset (ℤ × SourceTable) :=
  ((files.filter (·.typeIn File.NonDigitalContentTypes)).map
      fun file ↦ (file.clock, SourceTable.File) : List (ℤ × SourceTable)) +
    (digitalContents.map fun content ↦ (content.clock, SourceTable.DigitalContent) :
      List (ℤ × SourceTable)) +
    ((files.filter (·.typeIn File.DigitalContentTypes)).map
      fun file ↦ (file.clock, SourceTable.File) : List (ℤ × SourceTable)) +
    (colivingUsers.map fun user ↦ (user.clock, SourceTable.ColivingUser) :
      List (ℤ × SourceTable))

namespace FetchedCNodeUser

variable (fetchedCNodeUser : FetchedCNodeUser) (clockRecords : List ClockRecord) (files : List File)

/-- A bundle has one row for each of its clock records. -/
def OneRowEach : Prop :=
  importedRows files (fetchedCNodeUser.digitalContents.getD [])
    (fetchedCNodeUser.colivingUsers.getD []) = importedRecords clockRecords

/-- A bundle with a row for each record goes on with `n` clock records: it has others, or just
those. -/
def GoesOnFrom (n : ℕ) : Prop :=
  (clockRecords = [] → fetchedCNodeUser.clock = n) ∧
    fetchedCNodeUser.OneRowEach clockRecords files

end FetchedCNodeUser

section Sync

variable {db : Database} {uuid : UUID} {writes : List Write} {part part' : ClockPart} {n : ℕ}
variable {ctx : SyncContext} {wallet : Wallet} {fetchedCNodeUser : FetchedCNodeUser}

/-- The row of the user is written, and has the clock of the bundle. -/
theorem saveCNodeUser_statement_eq_ok
    (h : ClockStatement.saveCNodeUser ctx wallet uuid fetchedCNodeUser db = .ok writes) :
    (∀ w ∈ writes, w.cnodeUserUUID = uuid) ∧
      ∃ clocks ≠ 0, (∀ clock ∈ clocks, clock = fetchedCNodeUser.clock) ∧
        writes.foldl Write.applyPart (db.clockPart uuid)
          = { db.clockPart uuid with clocks := clocks } := by
  unfold ClockStatement.saveCNodeUser at h
  split at h
  · next user hfind =>
    simp only [require_bind_eq_ok] at h
    obtain ⟨rfl, -, h⟩ := h
    cases h
    have hmem : user.clock ∈ (db.clockPart user.cnodeUserUUID).clocks := by
      simp only [Database.clockPart, mem_coe, List.mem_map, List.mem_filter, decide_eq_true_eq]
      exact ⟨user, ⟨mem_of_find?_eq_some hfind, rfl⟩, rfl⟩
    refine ⟨?_, _, ?_, ?_, rfl⟩
    · intro w hw
      cases List.mem_singleton.mp hw
      rfl
    · intro hempty
      rw [Multiset.map_eq_zero] at hempty
      rw [hempty] at hmem
      exact absurd hmem (notMem_zero _)
    · intro clock hclock
      obtain ⟨-, -, rfl⟩ := Multiset.mem_map.mp hclock
      rfl
  · next hfind =>
    rw [require_bind_eq_ok] at h
    obtain ⟨huuid, h⟩ := h
    obtain ⟨rfl, hnone⟩ := createCNodeUser_eq_ok h
    refine ⟨?_, {fetchedCNodeUser.clock}, singleton_ne_zero _, ?_, ?_⟩
    · intro w hw
      cases List.mem_singleton.mp hw
      rfl
    · intro clock hclock
      exact Multiset.mem_singleton.mp hclock
    · simp only [List.foldl_cons, foldl_nil, Write.applyPart]
      rw [hnone, zero_add]

/-- Clock records are added to those that are there. -/
theorem foldl_createClockRecord (clockRecords : List ClockRecord) :
    ((writtenClockRecords uuid clockRecords).map Write.createClockRecord).foldl Write.applyPart part
      = { part with records := part.records + importedRecords clockRecords } := by
  induction clockRecords generalizing part with
  | nil => simp [writtenClockRecords, importedRecords]
  | cons record clockRecords ih =>
    simp only [writtenClockRecords, List.map_cons, List.foldl_cons] at ih ⊢
    rw [ih]
    simp only [Write.applyPart, importedRecords, List.map_cons, ← cons_coe,
      ClockRecord.stamp, ← singleton_add, add_assoc]

/-- The clock records go on from those that are there, and are added. -/
theorem bulkCreateClockRecords_statement_eq_ok (part : ClockPart)
    {clockRecords : List ClockRecord}
    (h : ClockStatement.bulkCreateClockRecords (writtenClockRecords uuid clockRecords) db
      = .ok writes) :
    (∀ w ∈ writes, w.cnodeUserUUID = uuid) ∧
      GoesOn ((db.maxClock uuid).getD 0) (clockRecords.map ClockRecord.clock) ∧
      writes.foldl Write.applyPart part
        = { part with records := part.records + importedRecords clockRecords } := by
  obtain ⟨db', hcreate, h⟩ := bind_eq_ok.mp h
  cases h
  have huuid : ∀ record ∈ writtenClockRecords uuid clockRecords, record.cnodeUserUUID = uuid := by
    intro record hrecord
    obtain ⟨other, -, rfl⟩ := List.mem_map.mp hrecord
    rfl
  obtain ⟨hgoes, -, -⟩ := (bulkCreateClockRecords_eq_ok huuid).mp hcreate
  have hclocks : (writtenClockRecords uuid clockRecords).map ClockRecord.clock
      = clockRecords.map ClockRecord.clock := by
    simp [writtenClockRecords, Function.comp_def]
  rw [hclocks] at hgoes
  refine ⟨?_, hgoes, foldl_createClockRecord clockRecords⟩
  intro w hw
  obtain ⟨record, hrecord, rfl⟩ := List.mem_map.mp hw
  exact huuid record hrecord

/-- Rows are added to those that are there. -/
theorem foldl_createRow {ρ : Type} (toRow : ρ → DataRecord) (rows : List ρ) :
    (rows.map fun row ↦ Write.createRow (.data (toRow row))).foldl Write.applyPart part
      = { part with rows := part.rows + (rows.map fun row ↦
          (SourceRow.data (toRow row)).stamp : List (ℤ × SourceTable)) } := by
  induction rows generalizing part with
  | nil => simp
  | cons row rows ih =>
    simp only [List.map_cons, List.foldl_cons]
    rw [ih]
    simp only [Write.applyPart, ← cons_coe, ← singleton_add, add_assoc]

theorem bulkCreate_statement_eq_ok {ρ : Type} {table : Table Database ρ} {toRow : ρ → DataRecord}
    {rows : List ρ} (h : ClockStatement.bulkCreate table toRow rows db = .ok writes) :
    writes = rows.map fun row ↦ .createRow (.data (toRow row)) := by
  obtain ⟨db', -, h⟩ := bind_eq_ok.mp h
  cases h
  rfl

theorem bulkCreateProperty_statement_eq_ok {ρ : Type} {table : Table Database ρ}
    {toRow : ρ → DataRecord} {written : List ρ → List ρ} {rows : Option (List ρ)}
    (h : ClockStatement.bulkCreateProperty table toRow written rows db = .ok writes) :
    writes = (written (rows.getD [])).map fun row ↦ .createRow (.data (toRow row)) := by
  obtain ⟨found, hfound, h⟩ := bind_eq_ok.mp h
  cases property_eq_ok.mp hfound
  exact bulkCreate_statement_eq_ok h

variable {clockRecords : List ClockRecord} {files : List File} {failed : List CID}

theorem writesTo_syncTransaction : ∀ statement ∈ ClockStatement.syncTransaction ctx wallet uuid
    fetchedCNodeUser clockRecords files failed, clockParts.WritesTo uuid statement := by
  intro statement hstatement db writes hwrites w hw
  simp only [ClockStatement.syncTransaction, List.mem_cons, not_mem_nil, or_false] at hstatement
  rcases hstatement with rfl | rfl | rfl | rfl | rfl | rfl
  · exact (saveCNodeUser_statement_eq_ok hwrites).1 w hw
  · exact (bulkCreateClockRecords_statement_eq_ok (db.clockPart uuid) hwrites).1 w hw
  · rw [bulkCreate_statement_eq_ok hwrites] at hw
    simp only [writtenNonDigitalContentFiles, List.map_map, List.mem_map] at hw
    obtain ⟨row, -, rfl⟩ := hw
    rfl
  · rw [bulkCreateProperty_statement_eq_ok hwrites] at hw
    simp only [writtenDigitalContents, List.map_map, List.mem_map] at hw
    obtain ⟨row, -, rfl⟩ := hw
    rfl
  · rw [bulkCreate_statement_eq_ok hwrites] at hw
    simp only [writtenDigitalContentFiles, List.map_map, List.mem_map] at hw
    obtain ⟨row, -, rfl⟩ := hw
    rfl
  · rw [bulkCreateProperty_statement_eq_ok hwrites] at hw
    simp only [writtenColivingUsers, List.map_map, List.mem_map] at hw
    obtain ⟨row, -, rfl⟩ := hw
    rfl

/-- A sync writes the clock of the bundle, and adds its records and its rows. -/
theorem follows_syncTransaction (hledger : part.LedgerOf n)
    (h : clockParts.Follows uuid (ClockStatement.syncTransaction ctx wallet uuid fetchedCNodeUser
      clockRecords files failed) part part') :
    GoesOn n (clockRecords.map ClockRecord.clock) ∧
      ∃ clocks ≠ 0, (∀ clock ∈ clocks, clock = fetchedCNodeUser.clock) ∧
        part' = ⟨clocks, part.records + importedRecords clockRecords,
          part.rows + importedRows files (fetchedCNodeUser.digitalContents.getD [])
            (fetchedCNodeUser.colivingUsers.getD [])⟩ := by
  rcases h with _ | ⟨huser, huserWrites, h⟩
  rcases h with _ | ⟨hrecords, hrecordWrites, h⟩
  rcases h with _ | ⟨-, hnon, h⟩
  rcases h with _ | ⟨-, hcontents, h⟩
  rcases h with _ | ⟨-, hfiles, h⟩
  rcases h with _ | ⟨-, husers, h⟩
  obtain ⟨-, clocks, hne, hclocks, huserPart⟩ := saveCNodeUser_statement_eq_ok huserWrites
  rw [show Database.clockPart uuid _ = _ from huser] at huserPart
  rw [show List.foldl clockParts.applyPart part _ = _ from huserPart] at hrecords h
  obtain ⟨-, hgoes, hrecordPart⟩ := bulkCreateClockRecords_statement_eq_ok
    { part with clocks := clocks } hrecordWrites
  have hmax : (Database.maxClock _ uuid).getD 0 = n := maxClock_of_ledger
    ((congrArg (Multiset.map Prod.fst ∘ ClockPart.records) hrecords).trans hledger.records)
  rw [hmax] at hgoes
  refine ⟨hgoes, clocks, hne, hclocks, ?_⟩
  rw [h.nil_eq, show List.foldl clockParts.applyPart { part with clocks := clocks } _ = _ from
    hrecordPart, bulkCreate_statement_eq_ok hnon, bulkCreateProperty_statement_eq_ok hcontents,
    bulkCreate_statement_eq_ok hfiles, bulkCreateProperty_statement_eq_ok husers]
  simp only [clockParts, foldl_createRow]
  simp only [importedRows, writtenNonDigitalContentFiles, writtenDigitalContents,
    writtenDigitalContentFiles, writtenColivingUsers, List.map_map, add_assoc]
  rfl

/-- A sync that finds a ledger leaves one just when its bundle goes on with it. -/
theorem ledger_iff_of_syncTransaction {localMaxClockVal : ℤ} (hledger : part.LedgerOf n)
    (hcheck : checkClocks localMaxClockVal fetchedCNodeUser.clock
      (clockRecords.map ClockRecord.clock) = none)
    (h : clockParts.Follows uuid (ClockStatement.syncTransaction ctx wallet uuid fetchedCNodeUser
      clockRecords files failed) part part') :
    part'.Ledger ↔ fetchedCNodeUser.GoesOnFrom clockRecords files n := by
  obtain ⟨hgoes, clocks, hne, hclocks, rfl⟩ := follows_syncTransaction hledger h
  have hmax : clockRecords ≠ [] →
      (clockRecords.map ClockRecord.clock).max? = some fetchedCNodeUser.clock := by
    intro hsome
    unfold checkClocks at hcheck
    split at hcheck
    · cases hcheck
    split at hcheck
    · cases hcheck
    split at hcheck
    · cases hcheck
    split at hcheck
    · cases hcheck
    · next hmax =>
      simp only [ne_eq, map_eq_nil_iff, not_and, not_not] at hmax
      exact hmax hsome
  have hrows : part.rows + importedRows files (fetchedCNodeUser.digitalContents.getD [])
        (fetchedCNodeUser.colivingUsers.getD [])
          = part.records + importedRecords clockRecords ↔
      fetchedCNodeUser.OneRowEach clockRecords files := by
    rw [hledger.rows]
    exact add_right_inj part.records
  have hsome : ∃ clock, clock ∈ clocks := exists_mem_of_ne_zero hne
  obtain ⟨clock, hclock⟩ := hsome
  constructor
  · rintro ⟨m, hm⟩
    refine ⟨fun hempty ↦ ?_, hrows.mp hm.rows⟩
    have hsame : part.records + importedRecords clockRecords = part.records := by
      rw [hempty]
      exact add_zero part.records
    have hcard := congrArg card hm.records
    rw [hsame, hledger.records] at hcard
    simp only [clocksUpTo, card_map, card_range] at hcard
    rw [← hclocks clock hclock, hm.clock clock hclock, hcard]
  · rintro ⟨hempty, hone⟩
    by_cases hnil : clockRecords = []
    · refine ⟨n, ?_, fun h ↦ absurd h hne, ?_, hrows.mpr hone⟩
      · intro clock hclock
        rw [hclocks clock hclock, hempty hnil]
      · rw [hnil]
        exact (congrArg (Multiset.map Prod.fst) (add_zero part.records)).trans hledger.records
    · have hcontiguous := (hgoes (by simpa using hnil)).2
      obtain ⟨hclocksUpTo, hlast⟩ := clocks_of_contiguousFrom hcontiguous
      refine ⟨n + (clockRecords.map ClockRecord.clock).length, ?_, fun h ↦ absurd h hne, ?_,
        hrows.mpr hone⟩
      · intro clock hclock
        rw [hclocks clock hclock]
        exact hlast _ (hmax hnil)
      · rw [Multiset.map_add, hledger.records, ← hclocksUpTo]
        congr 1
        simp [importedRecords, ClockRecord.stamp, Function.comp_def]

end Sync

/-! ### Runs -/

/-- A bundle with clock records, and a row for each of them. -/
def ClockTransaction.ImportsLedger : ClockTransaction → Prop
  | .syncFetchedCNodeUser _ _ _ _ fetchedCNodeUser clockRecords files _ =>
    clockRecords ≠ [] ∧ fetchedCNodeUser.OneRowEach clockRecords files
  | _ => True

/-- The transaction that starts, if one does, imports such a bundle or none. -/
def ClockEvent.ImportsLedger : ClockEvent → Prop
  | .start _ transaction => transaction.ImportsLedger
  | _ => True

/-- What is committed after some events, when nothing was open before. -/
def Database.committedAfter (events : List ClockEvent) : Database :=
  (replay (SharedStore.step clockParts) (SharedStore.quiet db)
    (events.map ClockEvent.toTransactionEvent)).committed

/-- Every transaction keeps the ledger of its user. -/
theorem ClockTransaction.keeps {transaction : ClockTransaction}
    (h : transaction.ImportsLedger) : clockParts.Keeps (fun _ ↦ ClockPart.Ledger)
      transaction.cnodeUserUUID transaction.statements := by
  cases transaction with
  | createNewDataRecords cnodeUserUUID queryObjs =>
    exact keeps_createNewDataRecords cnodeUserUUID queryObjs
  | saveEntriesToDB cnodeUserUUID newCNodeUser allEntries =>
    have hentries := keeps_createNewDataRecords cnodeUserUUID (allEntries.map .data)
    rw [flatMap_map] at hentries
    refine Parts.Keeps.append ?_ hentries
    cases newCNodeUser with
    | none => exact Parts.keeps_nil _ cnodeUserUUID
    | some row =>
      exact keeps_createCNodeUser { row with cnodeUserUUID := cnodeUserUUID, clock := 0 } rfl
  | syncFetchedCNodeUser ctx wallet cnodeUserUUID localMaxClockVal fetchedCNodeUser clockRecords
      files failed =>
    obtain ⟨hne, hone⟩ := h
    simp only [ClockTransaction.statements, ClockTransaction.cnodeUserUUID]
    split
    · exact Parts.keeps_nil _ cnodeUserUUID
    · next hcheck =>
      refine ⟨writesTo_syncTransaction, fun part part' hledger hfollows ↦ ?_⟩
      obtain ⟨n, hledger⟩ := hledger
      exact (ledger_iff_of_syncTransaction hledger hcheck hfollows).mpr
        ⟨fun hempty ↦ absurd hempty hne, hone⟩

/-- However the statements of transactions interleave, every user has a ledger in all that is
committed, when each bundle that is synced has a row for each of its clock records. A sync that
finds a ledger leaves one only with such a bundle. -/
theorem clock_ledger {db : Database} (hdb : ∀ uuid, (db.clockPart uuid).Ledger) :
    (∀ events : List ClockEvent, (∀ event ∈ events, event.ImportsLedger) →
      ∀ uuid, ((db.committedAfter events).clockPart uuid).Ledger) ∧
    ∀ ctx wallet uuid localMaxClockVal fetchedCNodeUser clockRecords files failed part part' n,
      ClockPart.LedgerOf part n →
      checkClocks localMaxClockVal fetchedCNodeUser.clock (clockRecords.map ClockRecord.clock)
        = none →
      clockParts.Follows uuid (ClockStatement.syncTransaction ctx wallet uuid fetchedCNodeUser
        clockRecords files failed) part part' →
      (part'.Ledger ↔ fetchedCNodeUser.GoesOnFrom clockRecords files n) := by
  constructor
  · intro events hevents uuid
    refine SharedStore.committed_of_starts (P := clockParts) (I := fun _ ↦ ClockPart.Ledger) hdb
      (fun event hevent ↦ ?_) uuid
    obtain ⟨event, hmem, rfl⟩ := List.mem_map.mp hevent
    have himports := hevents event hmem
    cases event with
    | start id transaction => exact ClockTransaction.keeps himports
    | statement id => trivial
    | commit id => trivial
    | rollback id => trivial
  · intro ctx wallet uuid localMaxClockVal fetchedCNodeUser clockRecords files failed part part' n
      hledger hcheck hfollows
    exact ledger_iff_of_syncTransaction hledger hcheck hfollows

namespace ClockLedgerRuns

/-- A user without records. -/
def opened : Database := ⟨[⟨"user", "wallet", none, 0, 0, 0, 0⟩], [], [], [], [], [], []⟩

/-- A metadata file. -/
def metadata (clock : ℤ) : File :=
  ⟨"file", "user", none, "QmMetadata", none, none, none, "/file_storage/QmMetadata",
    some .metadata, clock, false⟩

/-- A content list. -/
def contentList : ContentList := ⟨"user", 0, 7, "file", ⟨none, ""⟩, none⟩

/-- A transaction from its start to its commit. -/
def committing (id : ℕ) (transaction : ClockTransaction) : List ClockEvent :=
  .start id transaction ::
    (List.replicate transaction.statements.length (.statement id) ++ [.commit id])

/-- A file and then a content list, each in its own transaction. -/
def writes : List ClockEvent :=
  committing 0 (.createNewDataRecords "user" [.data (.file (metadata 0))]) ++
    committing 1 (.createNewDataRecords "user" [.contentList contentList])

/-- What such a node exports. -/
def bundle : FetchedCNodeUser :=
  ⟨"user", some "wallet", none, 0, 2, 0, some [], some [], some [metadata 1],
    some [⟨"user", 1, .File⟩, ⟨"user", 2, .ContentList⟩], ⟨0, 9, 2⟩⟩

/-- A secondary where every file can be fetched. -/
def context : SyncContext := ⟨1, 1, true, fun _ ↦ true, 0, "copy"⟩

/-- A first sync of the bundle. -/
def sync : List ClockEvent :=
  committing 0 (.syncFetchedCNodeUser context "wallet" "copy" (-1) bundle
    [⟨"user", 1, .File⟩, ⟨"user", 2, .ContentList⟩] [metadata 1] [])

/-- What the rows of coliving users, digital contents and files say. -/
def dataStamps (uuid : UUID) (db : Database) : Multiset (ℤ × SourceTable) :=
  ((db.dataRecords.filter fun record ↦ record.cnodeUserUUID = uuid).map fun record ↦
    (SourceRow.data record).stamp : List (ℤ × SourceTable))

end ClockLedgerRuns

open ClockLedgerRuns in
/-- The record of a content list has its row in a fourth table, and a sync leaves the row behind. -/
theorem content_list_leaves_ledger :
    (¬ ∀ events : List ClockEvent, ∀ uuid, dataStamps uuid (opened.committedAfter events)
      = ((opened.committedAfter events).clockPart uuid).records) ∧
    ¬ ∀ (db : Database) (events : List ClockEvent), (∀ uuid, (db.clockPart uuid).Ledger) →
      ∀ uuid, ((db.committedAfter events).clockPart uuid).Ledger := by
  constructor
  · intro h
    have hrecords := h writes "user"
    exact absurd hrecords (by decide +kernel)
  · intro h
    obtain ⟨n, hledger⟩ := h ⟨[], [], [], [], [], [], []⟩ sync
      (fun uuid ↦ ⟨0, by simp [Database.clockPart], fun _ ↦ rfl, rfl, rfl⟩) "copy"
    exact absurd hledger.rows (by decide +kernel)

open ClockLedgerRuns in
theorem clock_ledger_two_writes :
    (∀ uuid, ((opened.committedAfter writes).clockPart uuid).Ledger) ∧
      (opened.committedAfter writes).cnodeUsers.map CNodeUser.clock = [2] := by
  have hopened : ∀ uuid, (opened.clockPart uuid).Ledger := by
    intro uuid
    refine ⟨0, fun clock hclock ↦ ?_, fun _ ↦ rfl, rfl, rfl⟩
    simp only [Database.clockPart, opened, Multiset.mem_coe, List.mem_map, List.mem_filter,
      List.mem_singleton] at hclock
    obtain ⟨user, ⟨rfl, -⟩, rfl⟩ := hclock
    rfl
  refine ⟨(clock_ledger hopened).1 writes fun event hevent ↦ ?_, by decide +kernel⟩
  simp only [writes, committing, List.cons_append, List.mem_append, List.mem_cons,
    List.mem_replicate, List.not_mem_nil, or_false] at hevent
  rcases hevent with rfl | (⟨-, rfl⟩ | rfl) | rfl | ⟨-, rfl⟩ | rfl <;> trivial

end ColivingSpec
