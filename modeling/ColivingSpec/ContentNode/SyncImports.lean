import ColivingSpec.ContentNode.SecondarySyncFromPrimary

/-!
# What a sync accepts

When the transaction for a bundle commits, and what it commits then: the clock records go on from
the last one of the user, and the rows meet the keys and references of their tables.
-/

namespace ColivingSpec

open Lib

/-! ### The rows that are written -/

variable (cnodeUserUUID : UUID)

/-- The clock records, under the UUID of the local user. -/
def writtenClockRecords (clockRecords : List ClockRecord) : List ClockRecord :=
  clockRecords.map fun record ↦ { record with cnodeUserUUID := cnodeUserUUID }

/-- The files of digital contents, under the UUID of the local user. -/
def writtenDigitalContentFiles (failed : List CID) (files : List File) : List File :=
  files.map fun file ↦ { markSkipped failed file with cnodeUserUUID := cnodeUserUUID }

/-- The other files, under the UUID of the local user. -/
def writtenNonDigitalContentFiles (failed : List CID) (files : List File) : List File :=
  files.map fun file ↦
    { markSkipped failed file with
      digitalContentBlockchainId := none
      cnodeUserUUID := cnodeUserUUID }

/-- The digital contents, under the UUID of the local user. -/
def writtenDigitalContents (contents : List DigitalContent) : List DigitalContent :=
  contents.map fun content ↦ { content with cnodeUserUUID := cnodeUserUUID }

/-- The coliving users, under the UUID of the local user. -/
def writtenColivingUsers (users : List ColivingUser) : List ColivingUser :=
  users.map fun user ↦ { user with cnodeUserUUID := cnodeUserUUID }

/-- The clocks of new records go on from the last one. -/
def GoesOn (currentMaxClock : ℤ) (clocks : List ℤ) : Prop :=
  clocks ≠ [] → 0 ≤ currentMaxClock ∧ Database.contiguousFrom currentMaxClock clocks = true

/-- The rows that are written for a bundle. -/
structure WrittenRows where
  clockRecords : List ClockRecord
  nonDigitalContentFiles : List File
  digitalContents : List DigitalContent
  digitalContentFiles : List File
  colivingUsers : List ColivingUser

namespace Database

variable (db : Database) (rows : WrittenRows)

/-- The database with the rows. -/
def withRows : Database :=
  { db with
    clockRecords := db.clockRecords ++ rows.clockRecords
    files := db.files ++ rows.nonDigitalContentFiles ++ rows.digitalContentFiles
    digitalContents := db.digitalContents ++ rows.digitalContents
    colivingUsers := db.colivingUsers ++ rows.colivingUsers }

/-- The rows meet the keys and references of the tables, the files of digital contents coming
after the digital contents. -/
structure AcceptsRows (cnodeUserUUID : UUID) : Prop where
  clocks : GoesOn ((db.maxClock cnodeUserUUID).getD 0) (rows.clockRecords.map ClockRecord.clock)
  clockRecords : clockRecordTable.Accepts db rows.clockRecords
  nonDigitalContentFiles : fileTable.Accepts
    { db with clockRecords := db.clockRecords ++ rows.clockRecords } rows.nonDigitalContentFiles
  digitalContents : digitalContentTable.Accepts
    { db with
      clockRecords := db.clockRecords ++ rows.clockRecords
      files := db.files ++ rows.nonDigitalContentFiles } rows.digitalContents
  digitalContentFiles : fileTable.Accepts
    { db with
      clockRecords := db.clockRecords ++ rows.clockRecords
      files := db.files ++ rows.nonDigitalContentFiles
      digitalContents := db.digitalContents ++ rows.digitalContents } rows.digitalContentFiles
  colivingUsers : colivingUserTable.Accepts
    { db with
      clockRecords := db.clockRecords ++ rows.clockRecords
      files := db.files ++ rows.nonDigitalContentFiles ++ rows.digitalContentFiles
      digitalContents := db.digitalContents ++ rows.digitalContents } rows.colivingUsers

end Database

/-! ### Writing them -/

variable {db db' : Database} {cnodeUserUUID : UUID} {clockRecords : List ClockRecord}
  {node : Secondary} {db : Database}

theorem beforeBulkCreate_eq_ok {records : List ClockRecord}
    (huuid : ∀ record ∈ records, record.cnodeUserUUID = cnodeUserUUID) :
    db.beforeBulkCreate records = .ok () ↔
      GoesOn ((db.maxClock cnodeUserUUID).getD 0) (records.map ClockRecord.clock) := by
  cases records with
  | nil => simp [Database.beforeBulkCreate, GoesOn]
  | cons first rest =>
    rw [Database.beforeBulkCreate, huuid first List.mem_cons_self]
    simp only [require_bind_eq_ok, require_eq_ok]
    simp only [GoesOn, List.map_cons, Database.contiguousFrom, Bool.and_eq_true, decide_eq_true_eq]
    constructor
    · rintro ⟨hpos, hzero, hnext, hrest⟩ -
      by_cases hmax : (db.maxClock cnodeUserUUID).getD 0 = 0
      · have := hzero hmax
        exact ⟨by omega, by omega, hrest⟩
      · have := hnext hmax
        exact ⟨by omega, this, hrest⟩
    · intro h
      obtain ⟨hmax, hfirst, hrest⟩ := h (List.cons_ne_nil _ _)
      exact ⟨by omega, fun _ ↦ by omega, fun _ ↦ hfirst, hrest⟩

theorem bulkCreateClockRecords_eq_ok {records : List ClockRecord}
    (huuid : ∀ record ∈ records, record.cnodeUserUUID = cnodeUserUUID) :
    db.bulkCreateClockRecords records = .ok db' ↔
      GoesOn ((db.maxClock cnodeUserUUID).getD 0) (records.map ClockRecord.clock) ∧
      Database.clockRecordTable.Accepts db records ∧
      { db with clockRecords := db.clockRecords ++ records } = db' := by
  rw [Database.bulkCreateClockRecords, bind_eq_ok, ← beforeBulkCreate_eq_ok huuid]
  constructor
  · rintro ⟨⟨⟩, hhook, hcreate⟩
    exact ⟨hhook, Table.bulkCreate_eq_ok.mp hcreate⟩
  · rintro ⟨hhook, hcreate⟩
    exact ⟨(), hhook, Table.bulkCreate_eq_ok.mpr hcreate⟩

theorem property_eq_ok {α : Type} {o : Option α} {a : α} : property o = .ok a ↔ o = some a := by
  cases o with
  | none => simp [property]
  | some b => simp [property]

/-- The rows that are written for what a bundle has. -/
def rowsOf (cnodeUserUUID : UUID) (failed : List CID) (clockRecords : List ClockRecord)
    (files : List File) (digitalContents : List DigitalContent)
    (colivingUsers : List ColivingUser) : WrittenRows where
  clockRecords := writtenClockRecords cnodeUserUUID clockRecords
  nonDigitalContentFiles := writtenNonDigitalContentFiles cnodeUserUUID failed
    (files.filter (·.typeIn File.NonDigitalContentTypes))
  digitalContents := writtenDigitalContents cnodeUserUUID digitalContents
  digitalContentFiles := writtenDigitalContentFiles cnodeUserUUID failed
    (files.filter (·.typeIn File.DigitalContentTypes))
  colivingUsers := writtenColivingUsers cnodeUserUUID colivingUsers

/-- The rows of a bundle are saved exactly when they are all there and accepted. -/
theorem saveRows_eq_ok {failed : List CID} {files : List File}
    {digitalContents : Option (List DigitalContent)} {colivingUsers : Option (List ColivingUser)} :
    saveRows db cnodeUserUUID failed clockRecords
        (files.filter (·.typeIn File.DigitalContentTypes))
        (files.filter (·.typeIn File.NonDigitalContentTypes)) digitalContents colivingUsers
      = .ok db' ↔
    ∃ contents users, digitalContents = some contents ∧ colivingUsers = some users ∧
      db.AcceptsRows (rowsOf cnodeUserUUID failed clockRecords files contents users)
        cnodeUserUUID ∧
      db.withRows (rowsOf cnodeUserUUID failed clockRecords files contents users) = db' := by
  have huuid : ∀ record ∈ writtenClockRecords cnodeUserUUID clockRecords,
      record.cnodeUserUUID = cnodeUserUUID := by
    intro record hrecord
    obtain ⟨other, -, rfl⟩ := List.mem_map.mp hrecord
    rfl
  simp only [saveRows, bind_eq_ok, property_eq_ok]
  constructor
  · rintro ⟨db1, hclocks, db2, hnon, contents, hcontents, db3, hdigital, db4, hfiles, users, husers,
      hcoliving⟩
    obtain ⟨hgoes, hrecords, rfl⟩ := (bulkCreateClockRecords_eq_ok huuid).mp hclocks
    obtain ⟨hnon', rfl⟩ := Table.bulkCreate_eq_ok.mp hnon
    obtain ⟨hdigital', rfl⟩ := Table.bulkCreate_eq_ok.mp hdigital
    obtain ⟨hfiles', rfl⟩ := Table.bulkCreate_eq_ok.mp hfiles
    obtain ⟨hcoliving', rfl⟩ := Table.bulkCreate_eq_ok.mp hcoliving
    exact ⟨contents, users, hcontents, husers,
      ⟨hgoes, hrecords, hnon', hdigital', hfiles', hcoliving'⟩, rfl⟩
  · rintro ⟨contents, users, hcontents, husers, haccepts, rfl⟩
    exact ⟨_, (bulkCreateClockRecords_eq_ok huuid).mpr
        ⟨haccepts.clocks, haccepts.clockRecords, rfl⟩,
      _, Table.bulkCreate_eq_ok.mpr ⟨haccepts.nonDigitalContentFiles, rfl⟩,
      contents, hcontents,
      _, Table.bulkCreate_eq_ok.mpr ⟨haccepts.digitalContents, rfl⟩,
      _, Table.bulkCreate_eq_ok.mpr ⟨haccepts.digitalContentFiles, rfl⟩,
      users, husers,
      Table.bulkCreate_eq_ok.mpr ⟨haccepts.colivingUsers, rfl⟩⟩

/-! ### The transaction -/

variable (ctx : SyncContext)

/-- The user is saved: the one row with the wallet is updated, or a user is created whose UUID no
other user has. -/
inductive SavesUser (db : Database) (wallet : Wallet) (e : FetchedCNodeUser) :
    Database → UUID → Prop
  | updated {user : CNodeUser} : db.findCNodeUser wallet = some user →
    db.cnodeUsers.countP (fun user ↦ user.walletPublicKey = wallet) = 1 →
    SavesUser db wallet e
      { db with cnodeUsers := db.cnodeUsers.map fun user ↦
          if user.walletPublicKey = wallet then
            { user with
              lastLogin := e.lastLogin
              latestBlockNumber := e.latestBlockNumber
              clock := e.clock
              createdAt := e.createdAt
              updatedAt := ctx.now }
          else user }
      user.cnodeUserUUID
  | created : db.findCNodeUser wallet = none →
    (∀ user ∈ db.cnodeUsers, user.cnodeUserUUID ≠ ctx.newUUID) →
    SavesUser db wallet e
      { db with cnodeUsers := db.cnodeUsers ++ [⟨ctx.newUUID, wallet, e.lastLogin,
          e.latestBlockNumber, e.clock, e.createdAt, ctx.now⟩] }
      ctx.newUUID

/-- All files are fetched, or the failures are as many as are needed to go on without. -/
def Retrieved (node : Secondary) (wallet : Wallet) (failed : List CID) : Prop :=
  failed = [] ∨
    ctx.syncRequestMaxUserFailureCountBeforeSkip ≤ (node.failureCounts wallet).getD 0 + 1

variable {ctx} {wallet : Wallet} {e : FetchedCNodeUser}

theorem saveCNodeUser_eq_ok :
    saveCNodeUser ctx db wallet e = .ok (db', some cnodeUserUUID) ↔
      SavesUser ctx db wallet e db' cnodeUserUUID := by
  unfold saveCNodeUser
  constructor
  · intro h
    split at h
    · next user hfind =>
      split at h
      · next hone =>
        cases h
        exact .updated hfind hone
      · cases h
    · next hfind =>
      obtain ⟨db1, hinsert, heq⟩ := bind_eq_ok.mp h
      cases heq
      obtain ⟨hclash, -, rfl⟩ := Table.insert_eq_ok.mp hinsert
      refine .created hfind fun user huser heq ↦ ?_
      have := hclash user huser
      simp [Database.cnodeUserTable, heq] at this
  · rintro (⟨hfind, hone⟩ | ⟨hfind, hfresh⟩)
    · rw [hfind]
      simp only [if_pos hone]
    · rw [hfind]
      refine bind_eq_ok.mpr ⟨_, Table.insert_eq_ok.mpr ⟨?_, rfl, rfl⟩, rfl⟩
      intro user huser
      have hwallet : user.walletPublicKey ≠ wallet := by
        simpa using List.find?_eq_none.mp hfind user huser
      simp [Database.cnodeUserTable, hwallet, hfresh user huser]

theorem countFailures_snd (node : Secondary) (failed : List CID) :
    (countFailures ctx node wallet failed).2 = true ↔ Retrieved ctx node wallet failed := by
  unfold countFailures Retrieved Secondary.incrementFailureCount
  split
  · next hfailed =>
    simp only [hfailed, false_or]
    split
    · next hlt => simp [Nat.not_le.mpr hlt]
    · next hlt => simp [Nat.not_lt.mp hlt]
  · next hfailed => simp [not_not.mp hfailed]

/-- Counting failures leaves the database alone. -/
@[simp] theorem db_countFailures (node : Secondary) (failed : List CID) :
    (countFailures ctx node wallet failed).1.db = node.db := by
  unfold countFailures Secondary.incrementFailureCount Secondary.resetFailureCount
  split
  · dsimp only
    split
    · rfl
    · rfl
  · rfl

/-- No user is returned when more than one row has the wallet. -/
theorem saveCNodeUser_eq_none :
    (∃ db', saveCNodeUser ctx db wallet e = .ok (db', none)) ↔
      ∃ user, db.findCNodeUser wallet = some user ∧
        db.cnodeUsers.countP (fun user ↦ user.walletPublicKey = wallet) ≠ 1 := by
  unfold saveCNodeUser
  constructor
  · rintro ⟨db', h⟩
    split at h
    · next user hfind =>
      split at h
      · cases h
      · next hone => exact ⟨user, hfind, hone⟩
    · obtain ⟨db1, -, heq⟩ := bind_eq_ok.mp h
      cases heq
  · rintro ⟨user, hfind, hone⟩
    rw [hfind]
    simp only [if_neg hone]
    exact ⟨_, rfl⟩

/-- When the sync goes on, the count starts again. -/
theorem countFailures_fst {failed : List CID} (h : (countFailures ctx node wallet failed).2 = true) :
    (countFailures ctx node wallet failed).1 = node.resetFailureCount wallet := by
  unfold countFailures Secondary.incrementFailureCount at h ⊢
  split at h
  · next hfailed =>
    rw [if_pos hfailed]
    dsimp only at h ⊢
    split at h
    · cases h
    · next hlt =>
      rw [if_neg hlt]
      unfold Secondary.resetFailureCount
      simp only [Secondary.mk.injEq, true_and]
      funext w
      split
      · rfl
      · rfl
  · next hfailed => rw [if_neg hfailed]

variable (ctx) in
/-- The CIDs of the files that are not saved. -/
def failedOf (files : List File) : List CID :=
  failedCIDs ctx (files.filter (·.typeIn File.DigitalContentTypes))
    (files.filter (·.typeIn File.NonDigitalContentTypes))

variable (ctx) in
/-- What a transaction commits, on what it has saved of the user. -/
structure Commits (node : Secondary) (wallet : Wallet) (e : FetchedCNodeUser)
    (clockRecords : List ClockRecord) (db : Database) (cnodeUserUUID : UUID) (rows : WrittenRows) :
    Prop where
  user : SavesUser ctx node.db wallet e db cnodeUserUUID
  bundle : ∃ files contents users, e.files = some files ∧ e.digitalContents = some contents ∧
    e.colivingUsers = some users ∧ Retrieved ctx node wallet (failedOf ctx files) ∧
    rows = rowsOf cnodeUserUUID (failedOf ctx files) clockRecords files contents users
  accepts : db.AcceptsRows rows cnodeUserUUID

variable (ctx) in
/-- A transaction that is left open: more than one row has the wallet, or too few failures have
been counted to go on without the files that are not fetched. -/
def LeavesOpen (node : Secondary) (wallet : Wallet) (e : FetchedCNodeUser) : Prop :=
  (∃ user, node.db.findCNodeUser wallet = some user ∧
    node.db.cnodeUsers.countP (fun user ↦ user.walletPublicKey = wallet) ≠ 1) ∨
  ∃ db cnodeUserUUID files, SavesUser ctx node.db wallet e db cnodeUserUUID ∧
    e.files = some files ∧ ¬ Retrieved ctx node wallet (failedOf ctx files)

theorem SavesUser.unique {db1 db2 : Database} {uuid1 uuid2 : UUID}
    (h1 : SavesUser ctx db wallet e db1 uuid1) (h2 : SavesUser ctx db wallet e db2 uuid2) :
    db1 = db2 ∧ uuid1 = uuid2 := by
  have heq := (saveCNodeUser_eq_ok.mpr h1).symm.trans (saveCNodeUser_eq_ok.mpr h2)
  cases heq
  exact ⟨rfl, rfl⟩

/-- A transaction that commits does so in one way. -/
theorem Commits.unique {db1 db2 : Database} {uuid1 uuid2 : UUID} {rows1 rows2 : WrittenRows}
    (h1 : Commits ctx node wallet e clockRecords db1 uuid1 rows1)
    (h2 : Commits ctx node wallet e clockRecords db2 uuid2 rows2) :
    db1 = db2 ∧ rows1 = rows2 := by
  obtain ⟨rfl, rfl⟩ := h1.user.unique h2.user
  obtain ⟨files, contents, users, hfiles, hcontents, husers, -, rfl⟩ := h1.bundle
  obtain ⟨files', contents', users', hfiles', hcontents', husers', -, rfl⟩ := h2.bundle
  cases hfiles.symm.trans hfiles'
  cases hcontents.symm.trans hcontents'
  cases husers.symm.trans husers'
  exact ⟨rfl, rfl⟩

/-- Once the user is saved, a transaction is left open over the files that are not fetched. -/
theorem SavesUser.leavesOpen_iff (huser : SavesUser ctx node.db wallet e db cnodeUserUUID) :
    LeavesOpen ctx node wallet e ↔
      ∃ files, e.files = some files ∧ ¬ Retrieved ctx node wallet (failedOf ctx files) := by
  constructor
  · rintro (hmany | ⟨_, _, files, -, hfiles, hnot⟩)
    · obtain ⟨db', hnone⟩ := saveCNodeUser_eq_none.mpr hmany
      rw [saveCNodeUser_eq_ok.mpr huser] at hnone
      cases hnone
    · exact ⟨files, hfiles, hnot⟩
  · rintro ⟨files, hfiles, hnot⟩
    exact .inr ⟨db, cnodeUserUUID, files, huser, hfiles, hnot⟩

/-- A transaction that commits is not left open. -/
theorem Commits.not_leavesOpen {rows : WrittenRows}
    (h : Commits ctx node wallet e clockRecords db cnodeUserUUID rows) :
    ¬ LeavesOpen ctx node wallet e := by
  rw [h.user.leavesOpen_iff]
  rintro ⟨files', hfiles', hnot⟩
  obtain ⟨files, _, _, hfiles, -, -, hretrieved, -⟩ := h.bundle
  cases hfiles.symm.trans hfiles'
  exact hnot hretrieved

/-- A transaction that fails to save the user is not left open, and commits nothing. -/
theorem not_leavesOpen_of_error {message : String}
    (hsave : saveCNodeUser ctx node.db wallet e = .error message) :
    ¬ LeavesOpen ctx node wallet e ∧ ∀ clockRecords,
      ¬ ∃ db cnodeUserUUID rows, Commits ctx node wallet e clockRecords db cnodeUserUUID rows := by
  have hnot : ∀ {db cnodeUserUUID}, ¬ SavesUser ctx node.db wallet e db cnodeUserUUID := by
    intro db cnodeUserUUID huser
    rw [saveCNodeUser_eq_ok.mpr huser] at hsave
    cases hsave
  constructor
  · rintro (hmany | ⟨_, _, _, huser, -⟩)
    · obtain ⟨db', hnone⟩ := saveCNodeUser_eq_none.mpr hmany
      rw [hsave] at hnone
      cases hnone
    · exact hnot huser
  · rintro clockRecords ⟨_, _, _, hcommits⟩
    exact hnot hcommits.user

/-- How the transaction for a bundle ends; before it commits the database is as it was. -/
theorem syncTransaction_cases (ctx : SyncContext) (wallet : Wallet) (e : FetchedCNodeUser)
    (node : Secondary) (clockRecords : List ClockRecord) :
    (syncTransaction ctx node wallet e clockRecords).1.db = node.db ∧
    ((∃ db cnodeUserUUID rows, Commits ctx node wallet e clockRecords db cnodeUserUUID rows ∧
        syncTransaction ctx node wallet e clockRecords
          = (node.resetFailureCount wallet, .committed (db.withRows rows))) ∨
      (LeavesOpen ctx node wallet e ∧ ∃ result, result ≠ .success ∧
        (syncTransaction ctx node wallet e clockRecords).2 = .leftOpen result) ∨
      (¬ LeavesOpen ctx node wallet e ∧
        (¬ ∃ db cnodeUserUUID rows, Commits ctx node wallet e clockRecords db cnodeUserUUID rows) ∧
        ∃ message, (syncTransaction ctx node wallet e clockRecords).2 = .threw message)) := by
  unfold syncTransaction
  cases hsave : saveCNodeUser ctx node.db wallet e with
  | error message =>
    obtain ⟨hclosed, hnone⟩ := not_leavesOpen_of_error hsave
    exact ⟨rfl, .inr (.inr ⟨hclosed, hnone clockRecords, message, rfl⟩)⟩
  | ok saved =>
    obtain ⟨db, _ | cnodeUserUUID⟩ := saved
    · exact ⟨rfl, .inr (.inl ⟨.inl (saveCNodeUser_eq_none.mp ⟨db, hsave⟩), _,
        by decide, rfl⟩)⟩
    · have huser : SavesUser ctx node.db wallet e db cnodeUserUUID := saveCNodeUser_eq_ok.mp hsave
      cases hfiles : e.files with
      | none =>
        refine ⟨rfl, .inr (.inr ⟨?_, ?_, _, rfl⟩)⟩
        · rw [huser.leavesOpen_iff]
          rintro ⟨files, hsome, -⟩
          rw [hfiles] at hsome
          cases hsome
        · rintro ⟨_, _, rows, hcommits⟩
          obtain ⟨files, _, _, hsome, -⟩ := hcommits.bundle
          rw [hfiles] at hsome
          cases hsome
      | some files =>
        have hcount : (countFailures ctx node wallet (failedOf ctx files)).2 = true ↔
          Retrieved ctx node wallet (failedOf ctx files) := countFailures_snd node _
        have hdb : (countFailures ctx node wallet (failedOf ctx files)).1.db = node.db :=
          db_countFailures node _
        have hfst : (countFailures ctx node wallet (failedOf ctx files)).2 = true →
            (countFailures ctx node wallet (failedOf ctx files)).1
              = node.resetFailureCount wallet := countFailures_fst
        simp only []
        rw [show failedCIDs ctx (files.filter (·.typeIn File.DigitalContentTypes))
          (files.filter (·.typeIn File.NonDigitalContentTypes)) = failedOf ctx files from rfl]
        rcases hcounted : countFailures ctx node wallet (failedOf ctx files) with
          ⟨node', _ | _⟩
        · rw [hcounted] at hcount hdb
          refine ⟨hdb, .inr (.inl ⟨huser.leavesOpen_iff.mpr ⟨files, hfiles, ?_⟩, _,
            by decide, rfl⟩)⟩
          exact fun hretrieved ↦ Bool.false_ne_true (hcount.mpr hretrieved)
        · rw [hcounted] at hcount hdb hfst
          obtain rfl := hfst rfl
          have hretrieved := hcount.mp rfl
          cases hrows : saveRows db cnodeUserUUID (failedOf ctx files) clockRecords
              (files.filter (·.typeIn File.DigitalContentTypes))
              (files.filter (·.typeIn File.NonDigitalContentTypes)) e.digitalContents
              e.colivingUsers with
          | error message =>
            refine ⟨hdb, .inr (.inr ⟨?_, ?_, message, rfl⟩)⟩
            · rw [huser.leavesOpen_iff]
              rintro ⟨files', hsome, hnot⟩
              rw [hfiles] at hsome
              cases hsome
              exact hnot hretrieved
            · rintro ⟨db', uuid', rows, hcommits⟩
              obtain ⟨rfl, rfl⟩ := huser.unique hcommits.user
              obtain ⟨files', contents, users, hsome, hcontents, husers, -, rfl⟩ := hcommits.bundle
              rw [hfiles] at hsome
              cases hsome
              have := saveRows_eq_ok.mpr
                ⟨contents, users, hcontents, husers, hcommits.accepts, rfl⟩
              rw [hrows] at this
              cases this
          | ok db' =>
            obtain ⟨contents, users, hcontents, husers, haccepts, rfl⟩ := saveRows_eq_ok.mp hrows
            exact ⟨hdb, .inl ⟨db, cnodeUserUUID, _, ⟨huser, ⟨files, contents, users, hfiles,
              hcontents, husers, hretrieved, rfl⟩, haccepts⟩, rfl⟩⟩

theorem Commits.syncTransaction {rows : WrittenRows}
    (h : Commits ctx node wallet e clockRecords db cnodeUserUUID rows) :
    syncTransaction ctx node wallet e clockRecords
      = (node.resetFailureCount wallet, .committed (db.withRows rows)) := by
  obtain ⟨-, hcommits | hopen | hthrew⟩ := syncTransaction_cases ctx wallet e node clockRecords
  · obtain ⟨db', uuid', rows', hcommits, heq⟩ := hcommits
    obtain ⟨rfl, rfl⟩ := h.unique hcommits
    exact heq
  · exact absurd hopen.1 h.not_leavesOpen
  · exact absurd ⟨db, cnodeUserUUID, rows, h⟩ hthrew.2.1

end ColivingSpec
