import ColivingSpec.ContentNode.PrimarySyncFromSecondary
import ColivingSpec.ContentNode.SyncRanges

/-!
# What a merge covers

The loop over the ranges of a secondary's export ends with the first one: the request has no lower
bound, and the clock that an export reports never exceeds the end of its range. A merge that
succeeds covers the secondary's rows exactly when those after the first range have their contents
elsewhere.
-/

namespace ColivingSpec

open Lib List

/-! ### Contents -/

namespace Database

/-- The wallet has a row with the content. -/
def Holds (db : Database) (wallet : Wallet) (content : DataRecord) : Prop :=
  ∃ held ∈ db.dataRecordsOf wallet, held.content = content

/-- Every row of the wallet on the secondary has its content in a row on the primary. -/
def Covers (primary secondary : Database) (wallet : Wallet) : Prop :=
  ∀ record ∈ secondary.dataRecordsOf wallet, primary.Holds wallet record.content

/-- The user has a row with the comparison fields of the record. -/
def present (db : Database) (uuid : UUID) : DataRecord → Bool
  | .colivingUser row => (db.colivingUsers.filter (·.cnodeUserUUID = uuid)).any fun localRow ↦
      colivingUserComparisonFields row = colivingUserComparisonFields localRow
  | .digitalContent row => (db.digitalContents.filter (·.cnodeUserUUID = uuid)).any fun localRow ↦
      digitalContentComparisonFields row = digitalContentComparisonFields localRow
  | .file row => (db.files.filter (·.cnodeUserUUID = uuid)).any fun localRow ↦
      fileComparisonFields row = fileComparisonFields localRow

/-- The wallet has a row with the comparison fields of the record. -/
def alreadyPresent (db : Database) (wallet : Wallet) (record : DataRecord) : Bool :=
  (db.findCNodeUser wallet).any fun user ↦ db.present user.cnodeUserUUID record

/-- Every row of the wallet on the secondary has its content on the primary, or in a row of the
first range that the primary does not filter out. -/
def FirstRangeCovers (maxExportClockValueRange : ℕ) (primary secondary : Database)
    (wallet : Wallet) : Prop :=
  ∀ record ∈ secondary.dataRecordsOf wallet, primary.Holds wallet record.content ∨
    ∃ sent ∈ secondary.dataRecordsOf wallet, sent.content = record.content ∧ 0 ≤ sent.clock ∧
      sent.clock < maxExportClockValueRange ∧ primary.alreadyPresent wallet sent = false

variable (db secondary : Database) (wallet : Wallet)

instance (content : DataRecord) : Decidable (db.Holds wallet content) :=
  inferInstanceAs (Decidable (∃ held ∈ db.dataRecordsOf wallet, held.content = content))

instance : Decidable (db.Covers secondary wallet) :=
  inferInstanceAs (Decidable (∀ record ∈ secondary.dataRecordsOf wallet,
    db.Holds wallet record.content))

instance (maxExportClockValueRange : ℕ) :
    Decidable (FirstRangeCovers maxExportClockValueRange db secondary wallet) :=
  inferInstanceAs (Decidable (∀ record ∈ secondary.dataRecordsOf wallet,
    db.Holds wallet record.content ∨ ∃ sent ∈ secondary.dataRecordsOf wallet,
      sent.content = record.content ∧ 0 ≤ sent.clock ∧
        sent.clock < maxExportClockValueRange ∧ db.alreadyPresent wallet sent = false))

end Database

variable {db db' : Database} {wallet : Wallet}

theorem holds_iff {db db' : Database} (h : ∀ held, held ∈ db'.dataRecordsOf wallet ↔
    held ∈ db.dataRecordsOf wallet) (content : DataRecord) :
    db'.Holds wallet content ↔ db.Holds wallet content := by
  unfold Database.Holds
  simp only [h]

/-- A record that is written adds its content to those of its wallet. -/
theorem holds_createNewDataRecord {entry : DataRecord} {uuid : UUID}
    (huuid : db.ofWallet wallet uuid = true) (h : db.createNewDataRecord entry uuid = .ok db') :
    db'.ofWallet wallet uuid = true ∧ ∀ content, db'.Holds wallet content ↔
      db.Holds wallet content ∨ entry.content = content := by
  obtain ⟨husers, clock, hrecords⟩ := Database.createNewDataRecord_eq_ok wallet h
  refine ⟨(husers uuid).trans huuid, fun content ↦ ?_⟩
  unfold Database.Holds
  simp only [Database.mem_dataRecordsOf, hrecords, husers]
  constructor
  · rintro ⟨held, ⟨hmem | rfl, howned⟩, hcontent⟩
    · exact .inl ⟨held, ⟨hmem, howned⟩, hcontent⟩
    · exact .inr ((entry.content_stamped uuid clock).symm.trans hcontent)
  · rintro (⟨held, ⟨hmem, howned⟩, hcontent⟩ | hcontent)
    · exact ⟨held, ⟨.inl hmem, howned⟩, hcontent⟩
    · refine ⟨entry.stamped uuid clock, ⟨.inr rfl, ?_⟩, ?_⟩
      · rwa [entry.cnodeUserUUID_stamped]
      · rwa [entry.content_stamped]

/-- Records that are written in turn add their contents. -/
theorem holds_foldlM {entries : List DataRecord} {uuid : UUID}
    (huuid : db.ofWallet wallet uuid = true)
    (h : entries.foldlM (fun db entry ↦ db.createNewDataRecord entry uuid) db = .ok db')
    (content : DataRecord) : db'.Holds wallet content ↔
      db.Holds wallet content ∨ ∃ entry ∈ entries, entry.content = content := by
  induction entries generalizing db with
  | nil =>
    cases pure_eq_ok.mp h
    simp
  | cons entry entries ih =>
    obtain ⟨mid, hmid, h⟩ := bind_eq_ok.mp h
    obtain ⟨hmiduuid, hholds⟩ := holds_createNewDataRecord huuid hmid
    rw [ih hmiduuid h, hholds, exists_mem_cons_iff, or_assoc]

/-! ### The entries to write -/

section Entries

variable {ctx : MergeContext}

theorem dbQueryLimit_pos : 0 < dbQueryLimit ctx := by
  unfold dbQueryLimit
  split <;> decide

/-- The pages see all local rows. -/
theorem filterOutAlreadyPresentDBEntries_eq {ρ κ : Type} [DecidableEq κ] (clockOf : ρ → ℤ)
    (comparisonFields : ρ → κ) (localRows fetchedEntries : List ρ) :
    filterOutAlreadyPresentDBEntries ctx clockOf comparisonFields localRows fetchedEntries
      = fetchedEntries.filter fun fetchedEntry ↦ !localRows.any fun localEntry ↦
          comparisonFields fetchedEntry = comparisonFields localEntry := by
  unfold filterOutAlreadyPresentDBEntries
  rw [overOffsets_eq dbQueryLimit_pos]
  · apply filter_congr
    intro fetchedEntry _
    rw [Bool.not_inj_iff, Bool.eq_iff_iff, any_eq_true, any_eq_true]
    simp only [mem_mergeSort]
  · intro entries page rest
    rw [filter_filter]
    apply filter_congr
    intro fetchedEntry _
    rw [any_append, Bool.not_or, Bool.and_comm]
  · rw [length_mergeSort]
    exact Nat.lt_succ_self _

variable {e : FetchedCNodeUser} {colivingUsers : List ColivingUser}
variable {digitalContents : List DigitalContent} {files : List File} {uuid : UUID}
variable {entries : List DataRecord}

variable (colivingUsers digitalContents files) in
theorem mem_recordsOf_filter (keeps : DataRecord → Bool) (record : DataRecord) :
    record ∈ recordsOf (colivingUsers.filter fun row ↦ keeps (.colivingUser row))
        (digitalContents.filter fun row ↦ keeps (.digitalContent row))
        (files.filter fun row ↦ keeps (.file row)) ↔
      record ∈ recordsOf colivingUsers digitalContents files ∧ keeps record = true := by
  cases record <;> simp

/-- Without a user with the wallet there are no rows of the wallet. -/
theorem ofWallet_eq_false (h : db.findCNodeUser wallet = none) (uuid : UUID) :
    db.ofWallet wallet uuid = false := by
  apply Bool.eq_false_iff.mpr
  intro howned
  obtain ⟨user, hmem, huser⟩ := any_eq_true.mp howned
  have hnot := find?_eq_none.mp h user hmem
  exact hnot (decide_eq_true (of_decide_eq_true huser).1)

/-- The user of a record is not one that no row has. -/
theorem Fresh.cnodeUserUUID_ne (h : Fresh db uuid) {record : DataRecord}
    (hrecord : record ∈ db.dataRecords) : record.cnodeUserUUID ≠ uuid := by
  cases record with
  | colivingUser row => exact h.colivingUsers row (colivingUser_mem_recordsOf.mp hrecord)
  | digitalContent row => exact h.digitalContents row (digitalContent_mem_recordsOf.mp hrecord)
  | file row => exact h.files row (file_mem_recordsOf.mp hrecord)

/-- The entries to write are the records that are not there already; the user is there then, and
the wallet has the rows that it had. -/
theorem entriesToWrite_eq_ok (hfresh : Fresh db ctx.newUUID)
    (h : entriesToWrite ctx db wallet e colivingUsers digitalContents files
      = .ok (db', uuid, entries)) :
    db'.ofWallet wallet uuid = true ∧
      (∀ held, held ∈ db'.dataRecordsOf wallet ↔ held ∈ db.dataRecordsOf wallet) ∧
      ∀ record, record ∈ entries ↔ record ∈ recordsOf colivingUsers digitalContents files ∧
        db.alreadyPresent wallet record = false := by
  unfold entriesToWrite at h
  unfold Database.alreadyPresent
  cases hfind : db.findCNodeUser wallet with
  | some localCNodeUser =>
    rw [hfind] at h
    cases h
    refine ⟨?_, fun _ ↦ Iff.rfl, fun record ↦ ?_⟩
    · have hwallet := find?_some hfind
      apply any_eq_true.mpr
      exact ⟨_, mem_of_find?_eq_some hfind, decide_eq_true ⟨of_decide_eq_true hwallet, rfl⟩⟩
    · simp only [filterOutAlreadyPresentDBEntries_eq]
      have hkeeps := mem_recordsOf_filter colivingUsers digitalContents files
        (fun record ↦ !db.present localCNodeUser.cnodeUserUUID record) record
      rw [Bool.not_eq_true'] at hkeeps
      exact hkeeps
  | none =>
    rw [hfind] at h
    obtain ⟨mid, hmid, h⟩ := bind_eq_ok.mp h
    obtain ⟨-, -, rfl⟩ := Table.insert_eq_ok.mp hmid
    cases pure_eq_ok.mp h
    have howned : ∀ uuid, Database.ofWallet (Database.cnodeUserTable.put db
        (Database.cnodeUserTable.rows db ++ [⟨ctx.newUUID, wallet, e.lastLogin,
          e.latestBlockNumber, 0, e.createdAt, ctx.now⟩])) wallet uuid
          = decide (ctx.newUUID = uuid) := by
      intro uuid
      have hnone := ofWallet_eq_false hfind uuid
      unfold Database.ofWallet at hnone ⊢
      simp only [Database.cnodeUserTable, any_append, hnone, any_cons, any_nil,
        Bool.false_or, Bool.or_false, true_and]
    refine ⟨(howned _).trans (decide_eq_true rfl), fun held ↦ ?_, fun record ↦ ?_⟩
    · rw [Database.mem_dataRecordsOf, Database.mem_dataRecordsOf, howned, ofWallet_eq_false hfind]
      constructor
      · rintro ⟨hheld, huuid⟩
        exact absurd (of_decide_eq_true huuid).symm (hfresh.cnodeUserUUID_ne hheld)
      · rintro ⟨-, hfalse⟩
        cases hfalse
    · exact (and_iff_left rfl).symm

end Entries

/-! ### The first range -/

section Range

variable {ctx : MergeContext} {maxExportClockValueRange : ℕ} {secondary secondary' : Database}
variable {e : FetchedCNodeUser} {exportClockRangeMin : ℤ}

/-- The rows of a bundle, when it has all lists. -/
def FetchedCNodeUser.Lists (e : FetchedCNodeUser) (colivingUsers : List ColivingUser)
    (digitalContents : List DigitalContent) (files : List File) : Prop :=
  e.colivingUsers = some colivingUsers ∧ e.digitalContents = some digitalContents ∧
    e.files = some files

/-- An export that is forced does not fail. -/
theorem bundleCNodeUser_force (min max : ℤ) (colivingUsers : List ColivingUser)
    (digitalContents : List DigitalContent) (files : List File) (clockRecords : List ClockRecord)
    (user : CNodeUser) :
    ∃ e, Database.bundleCNodeUser min max true colivingUsers digitalContents files clockRecords
        user = .ok e ∧ e.walletPublicKey = some user.walletPublicKey ∧
      e.clockInfo = ⟨min, max, Database.exportedClock user.clock max⟩ ∧
      e.Lists (colivingUsers.filter (·.cnodeUserUUID = user.cnodeUserUUID))
        (digitalContents.filter (·.cnodeUserUUID = user.cnodeUserUUID))
        (files.filter (·.cnodeUserUUID = user.cnodeUserUUID)) := by
  have hvalid : Database.validateClock (Database.exportedClock user.clock max) clockRecords true
      = .ok () := by
    unfold Database.validateClock
    split
    · rfl
    · rw [require_eq_ok]
      exact .inr rfl
  simp only [Database.bundleCNodeUser, hvalid, ok_bind]
  exact ⟨_, rfl, rfl, rfl, rfl, rfl, rfl⟩

theorem mem_findInClockRange {ρ : Type} {uuidOf : ρ → UUID} {clockOf : ρ → ℤ} {rows : List ρ}
    {uuids : List UUID} {min max : ℤ} {row : ρ} :
    row ∈ findInClockRange uuidOf clockOf rows uuids min max ↔
      row ∈ rows ∧ uuidOf row ∈ uuids ∧ min ≤ clockOf row ∧ clockOf row ≤ max := by
  unfold findInClockRange
  rw [mem_mergeSort, mem_filter, decide_eq_true_eq]

/-- What is exported of a user from the beginning. -/
theorem mem_exported {ρ : Type} {uuidOf : ρ → UUID} {clockOf : ρ → ℤ} {rows : List ρ}
    {uuid : UUID} {range : ℕ} {row : ρ} :
    row ∈ (findInClockRange uuidOf clockOf rows [uuid] ((none : Option ℤ).getD 0)
        ((none : Option ℤ).getD 0 + (range - 1))).filter (fun row ↦ uuidOf row = uuid) ↔
      (row ∈ rows ∧ uuidOf row = uuid) ∧ 0 ≤ clockOf row ∧ clockOf row < range := by
  rw [mem_filter, mem_findInClockRange, decide_eq_true_eq, mem_singleton, Option.getD_none]
  constructor
  · rintro ⟨⟨hrow, huuid, hlo, hhi⟩, -⟩
    exact ⟨⟨hrow, huuid⟩, hlo, by omega⟩
  · rintro ⟨⟨hrow, huuid⟩, hlo, hhi⟩
    exact ⟨⟨hrow, huuid, hlo, by omega⟩, huuid⟩

theorem mapM_eq_ok {α β : Type} {f : α → Except String β} (h : ∀ a, ∃ b, f a = .ok b)
    (l : List α) : ∃ bs, l.mapM f = .ok bs ∧ Forall₂ (fun a b ↦ f a = .ok b) l bs := by
  induction l with
  | nil => exact ⟨[], rfl, Forall₂.nil⟩
  | cons a l ih =>
    obtain ⟨b, hb⟩ := h a
    obtain ⟨bs, hbs, hall⟩ := ih
    refine ⟨b :: bs, ?_, Forall₂.cons hb hall⟩
    rw [mapM_cons, hb, ok_bind, hbs, ok_bind]
    rfl

/-- A forced export of one bundle is of the one user with the wallet. -/
theorem exportRoute_eq_ok {min : Option ℤ}
    (h : secondary.exportRoute maxExportClockValueRange [wallet] min true
      = (secondary', .ok [e])) :
    ∃ user, secondary.cnodeUsers.filter (fun user ↦ user.walletPublicKey ∈ [wallet]) = [user] ∧
      e.clockInfo.localClockMax ≤ e.clockInfo.requestedClockRangeMax ∧
      e.Lists
        ((findInClockRange ColivingUser.cnodeUserUUID ColivingUser.clock secondary.colivingUsers
          [user.cnodeUserUUID] (min.getD 0) (min.getD 0 + (maxExportClockValueRange - 1))).filter
            (·.cnodeUserUUID = user.cnodeUserUUID))
        ((findInClockRange DigitalContent.cnodeUserUUID DigitalContent.clock
          secondary.digitalContents
          [user.cnodeUserUUID] (min.getD 0) (min.getD 0 + (maxExportClockValueRange - 1))).filter
            (·.cnodeUserUUID = user.cnodeUserUUID))
        ((findInClockRange File.cnodeUserUUID File.clock secondary.files
          [user.cnodeUserUUID] (min.getD 0) (min.getD 0 + (maxExportClockValueRange - 1))).filter
            (·.cnodeUserUUID = user.cnodeUserUUID)) := by
  simp only [Database.exportRoute, Database.retry, Database.exportComponentService] at h
  generalize hmax : min.getD 0 + ((maxExportClockValueRange : ℤ) - 1) = max at h ⊢
  generalize husers : secondary.cnodeUsers.filter
    (fun user ↦ user.walletPublicKey ∈ [wallet]) = users at h ⊢
  have hbundles := mapM_eq_ok
    (fun user ↦ (bundleCNodeUser_force (min.getD 0) max
      (findInClockRange ColivingUser.cnodeUserUUID ColivingUser.clock secondary.colivingUsers
        (users.map CNodeUser.cnodeUserUUID) (min.getD 0) max)
      (findInClockRange DigitalContent.cnodeUserUUID DigitalContent.clock
        secondary.digitalContents (users.map CNodeUser.cnodeUserUUID) (min.getD 0) max)
      (findInClockRange File.cnodeUserUUID File.clock secondary.files
        (users.map CNodeUser.cnodeUserUUID) (min.getD 0) max)
      (findInClockRange ClockRecord.cnodeUserUUID ClockRecord.clock secondary.clockRecords
        (users.map CNodeUser.cnodeUserUUID) (min.getD 0) max) user).imp
          fun _ hbundle ↦ hbundle.1) users
  obtain ⟨bundles, hbundles, hall⟩ := hbundles
  rw [hbundles] at h
  cases h
  cases hall with
  | cons hbundle hrest =>
    cases hrest
    next user =>
    obtain ⟨e', hforced, -, hclock, hlists⟩ := bundleCNodeUser_force (min.getD 0) max
      (findInClockRange ColivingUser.cnodeUserUUID ColivingUser.clock secondary.colivingUsers
        [user.cnodeUserUUID] (min.getD 0) max)
      (findInClockRange DigitalContent.cnodeUserUUID DigitalContent.clock
        secondary.digitalContents [user.cnodeUserUUID] (min.getD 0) max)
      (findInClockRange File.cnodeUserUUID File.clock secondary.files
        [user.cnodeUserUUID] (min.getD 0) max)
      (findInClockRange ClockRecord.cnodeUserUUID ClockRecord.clock secondary.clockRecords
        [user.cnodeUserUUID] (min.getD 0) max) user
    cases hbundle.symm.trans hforced
    refine ⟨user, rfl, ?_, hlists⟩
    rw [hclock]
    show Database.exportedClock user.clock max ≤ max
    unfold Database.exportedClock
    split
    · exact le_refl max
    · omega

/-- The rows of the only user with the wallet. -/
theorem ofWallet_eq {user : CNodeUser} {wallet : Wallet}
    (h : secondary.cnodeUsers.filter (fun user ↦ user.walletPublicKey ∈ [wallet]) = [user])
    (uuid : UUID) : secondary.ofWallet wallet uuid = true ↔ uuid = user.cnodeUserUUID := by
  unfold Database.ofWallet
  rw [any_eq_true]
  have hmem : ∀ other, other ∈ secondary.cnodeUsers ∧ other.walletPublicKey = wallet ↔
      other = user := by
    intro other
    have hmem : other ∈ secondary.cnodeUsers.filter (fun user ↦ user.walletPublicKey ∈ [wallet]) ↔
        other = user := by
      rw [h, mem_singleton]
    rw [← hmem, mem_filter, decide_eq_true_eq, mem_singleton]
  constructor
  · rintro ⟨other, hother, howned⟩
    obtain ⟨hwallet, huuid⟩ := of_decide_eq_true howned
    rw [← huuid, (hmem other).mp ⟨hother, hwallet⟩]
  · rintro rfl
    obtain ⟨huser, hwallet⟩ := (hmem user).mpr rfl
    exact ⟨user, huser, decide_eq_true ⟨hwallet, rfl⟩⟩

/-- What is fetched, whatever the lower bound of the caller: the rows of the wallet with clocks
below the size of a range. -/
theorem fetchExportFromSecondary_eq_ok
    (h : fetchExportFromSecondary ctx maxExportClockValueRange secondary
      ⟨wallet, none, some exportClockRangeMin⟩ = (secondary', .ok e)) :
    e.clockInfo.localClockMax ≤ e.clockInfo.requestedClockRangeMax ∧
      ∃ colivingUsers digitalContents files, e.Lists colivingUsers digitalContents files ∧
        ∀ record, record ∈ recordsOf colivingUsers digitalContents files ↔
          record ∈ secondary.dataRecordsOf wallet ∧ 0 ≤ record.clock ∧
            record.clock < maxExportClockValueRange := by
  unfold fetchExportFromSecondary at h
  split at h
  · split at h
    · next hroute =>
      split at h
      · cases h
        obtain ⟨user, husers, hclock, hlists⟩ := exportRoute_eq_ok hroute
        refine ⟨hclock, _, _, _, hlists, fun record ↦ ?_⟩
        rw [Database.mem_dataRecordsOf, ofWallet_eq husers, Database.dataRecords]
        cases record with
        | colivingUser row =>
          rw [colivingUser_mem_recordsOf, colivingUser_mem_recordsOf]
          exact mem_exported
        | digitalContent row =>
          rw [digitalContent_mem_recordsOf, digitalContent_mem_recordsOf]
          exact mem_exported
        | file row =>
          rw [file_mem_recordsOf, file_mem_recordsOf]
          exact mem_exported
      · cases h
    · cases h
    · cases h
  · cases h

/-! ### A merge -/

/-- What a call that writes adds: the contents of the records that are not there already. -/
theorem saveEntriesToDB_eq_ok (hfresh : Fresh db ctx.newUUID)
    {colivingUsers : List ColivingUser} {digitalContents : List DigitalContent}
    {files : List File} (hlists : e.Lists colivingUsers digitalContents files)
    (h : saveEntriesToDB ctx db wallet e = .ok db') (content : DataRecord) :
    db'.Holds wallet content ↔ db.Holds wallet content ∨
      ∃ record ∈ recordsOf colivingUsers digitalContents files,
        db.alreadyPresent wallet record = false ∧ record.content = content := by
  obtain ⟨husers, hcontents, hfiles⟩ := hlists
  simp only [saveEntriesToDB, husers, hcontents, hfiles, property, ok_bind] at h
  obtain ⟨⟨target, uuid, entries⟩, hentries, h⟩ := bind_eq_ok.mp h
  obtain ⟨huuid, hrows, hmem⟩ := entriesToWrite_eq_ok hfresh hentries
  rw [holds_foldlM huuid h, holds_iff hrows]
  simp only [mem_mergeSort, hmem, and_assoc]

/-- A range that is merged is the first one, and the loop ends with it. -/
theorem mergeRange_eq_ok {userReplicaSet : List Endpoint} {dbs dbs' : MergedDatabases}
    {clockInfo : ClockInfo} (hfresh : Fresh dbs.primary ctx.newUUID)
    (h : mergeRange ctx maxExportClockValueRange wallet userReplicaSet dbs exportClockRangeMin
      = (dbs', .ok clockInfo)) :
    clockInfo.localClockMax ≤ clockInfo.requestedClockRangeMax ∧
      ∀ content, dbs'.primary.Holds wallet content ↔ dbs.primary.Holds wallet content ∨
        ∃ sent ∈ dbs.secondary.dataRecordsOf wallet, sent.content = content ∧ 0 ≤ sent.clock ∧
          sent.clock < maxExportClockValueRange ∧
          dbs.primary.alreadyPresent wallet sent = false := by
  unfold mergeRange at h
  split at h
  · cases h
  · next secondary' e hfetched =>
    obtain ⟨hclock, colivingUsers, digitalContents, files, hlists, hmem⟩ :=
      fetchExportFromSecondary_eq_ok hfetched
    simp only at h
    split at h
    · cases h
    · next primary hwritten =>
      cases h
      obtain ⟨files', -, hrest⟩ := bind_eq_ok.mp hwritten
      obtain ⟨-, -, hsaved⟩ := bind_eq_ok.mp hrest
      refine ⟨hclock, fun content ↦ ?_⟩
      rw [saveEntriesToDB_eq_ok hfresh hlists hsaved]
      apply or_congr_right
      constructor
      · rintro ⟨record, hrecord, hnew, hcontent⟩
        obtain ⟨hrecord, hlo, hhi⟩ := (hmem record).mp hrecord
        exact ⟨record, hrecord, hcontent, hlo, hhi, hnew⟩
      · rintro ⟨record, hrecord, hcontent, hlo, hhi, hnew⟩
        exact ⟨record, (hmem record).mpr ⟨hrecord, hlo, hhi⟩, hnew, hcontent⟩

/-- The loop ends with its first range, merged or not. -/
theorem mergeRanges_succ (maxExportClockValueRange : ℕ) (wallet : Wallet)
    (userReplicaSet : List Endpoint) (dbs : MergedDatabases)
    (hfresh : Fresh dbs.primary ctx.newUUID) (exportClockRangeMin : ℤ) :
    ∃ merged : MergedDatabases × Option String,
      (∀ ranges, mergeRanges ctx maxExportClockValueRange wallet userReplicaSet (ranges + 1) dbs
        exportClockRangeMin = some merged) ∧
      (merged.2 = none → ∀ content, merged.1.primary.Holds wallet content ↔
        dbs.primary.Holds wallet content ∨
          ∃ sent ∈ dbs.secondary.dataRecordsOf wallet, sent.content = content ∧
            0 ≤ sent.clock ∧ sent.clock < maxExportClockValueRange ∧
            dbs.primary.alreadyPresent wallet sent = false) := by
  simp only [mergeRanges]
  cases hrange : mergeRange ctx maxExportClockValueRange wallet userReplicaSet dbs
      exportClockRangeMin with
  | mk dbs' result =>
    cases result with
    | error message => exact ⟨(dbs', some message), fun _ ↦ rfl, fun h ↦ nomatch h⟩
    | ok clockInfo =>
      obtain ⟨hclock, hholds⟩ := mergeRange_eq_ok hfresh hrange
      refine ⟨(dbs', none), fun _ ↦ ?_, fun _ ↦ hholds⟩
      exact if_pos hclock

end Range

/-- A merge comes to its end, and one that succeeds covers the rows of the secondary exactly when
the first range does. -/
theorem primarySyncFromSecondary_covers_iff (ctx : MergeContext) (maxExportClockValueRange : ℕ)
    (node : Primary) (secondary : Database) (wallet : Wallet)
    (hfresh : Fresh node.db ctx.newUUID) :
    ∃ outcome, (∀ ranges, primarySyncFromSecondary ctx maxExportClockValueRange (ranges + 1) node
        secondary wallet = some outcome) ∧
      (outcome.error = none → (Database.Covers outcome.primary.db secondary wallet ↔
        Database.FirstRangeCovers maxExportClockValueRange node.db secondary wallet)) := by
  simp only [primarySyncFromSecondary]
  cases ctx.initColivingLibs with
  | error message => exact ⟨_, fun _ ↦ rfl, fun h ↦ nomatch h⟩
  | ok libs =>
    cases WalletWriteLock.acquire node.keys wallet .primarySyncFromSecondary with
    | error message => exact ⟨_, fun _ ↦ rfl, fun h ↦ nomatch h⟩
    | ok keys =>
      cases getUserReplicaSet ctx with
      | error message => exact ⟨_, fun _ ↦ rfl, fun h ↦ nomatch h⟩
      | ok userReplicaSet =>
        have hfirst := mergeRanges_succ maxExportClockValueRange wallet userReplicaSet
          ⟨node.db, secondary⟩ hfresh 0
        obtain ⟨merged, hmerged, hholds⟩ := hfirst
        simp only [hmerged]
        refine ⟨_, fun _ ↦ rfl, fun hsuccess ↦ ?_⟩
        unfold Database.Covers Database.FirstRangeCovers
        simp only [hholds hsuccess]

/-! ### A wallet with two files -/

/-- A user whose clock is 2, with its clock records and two metadata files. -/
def twoFiles : Database where
  cnodeUsers := [⟨"u", "0xa", none, 7, 2, 100, 100⟩]
  clockRecords := [⟨"u", 1, .File⟩, ⟨"u", 2, .File⟩]
  files := [
    ⟨"f", "u", none, "Qm1", none, none, none, "/file_storage/Qm1", some .metadata, 1, false⟩,
    ⟨"g", "u", none, "Qm2", none, none, none, "/file_storage/Qm2", some .metadata, 2, false⟩]
  digitalContents := []
  colivingUsers := []
  contentLists := []
  sessionTokens := []

/-- A primary without rows. -/
def noPrimaryRows : Primary := ⟨⟨[], [], [], [], [], [], []⟩, fun _ ↦ none⟩

/-- A context in which all calls to other services succeed. -/
def allAnswered : MergeContext where
  devMode := false
  contentNodeEndpoint := none
  nodeSyncFileSaveMaxConcurrency := 10
  initColivingLibs := .ok ()
  getContentNodeEndpoints := .ok ["https://cn1"]
  exportAnswered _ := true
  saveFileForMultihashToFS _ _ := true
  now := 200
  newUUID := "v"

/-- With ranges of two clocks the second file is lost, and the merge reports success. -/
theorem second_range_is_lost :
    ¬ ∀ outcome, primarySyncFromSecondary allAnswered 2 1 noPrimaryRows twoFiles "0xa"
        = some outcome →
      outcome.error = none → Database.Covers outcome.primary.db twoFiles "0xa" := by
  intro hclaim
  have hlost : (primarySyncFromSecondary allAnswered 2 1 noPrimaryRows twoFiles "0xa").any
      (fun outcome ↦ outcome.error = none ∧
        ¬ Database.Covers outcome.primary.db twoFiles "0xa") = true := by
    decide +kernel
  obtain ⟨outcome, hrun, houtcome⟩ := (Option.any_eq_true _ _).mp hlost
  obtain ⟨hsuccess, hnot⟩ := of_decide_eq_true houtcome
  exact hnot (hclaim outcome hrun hsuccess)

/-- A primary that has the second file. -/
def secondFile : Primary where
  db := {
    cnodeUsers := [⟨"p", "0xa", none, 7, 1, 100, 100⟩]
    clockRecords := [⟨"p", 1, .File⟩]
    files := [
      ⟨"h", "p", none, "Qm2", none, none, none, "/file_storage/Qm2", some .metadata, 1, false⟩]
    digitalContents := []
    colivingUsers := []
    contentLists := []
    sessionTokens := [] }
  keys _ := none

/-- With the same ranges the first file is merged into a primary that has the second one. -/
theorem first_range_is_merged :
    ∃ outcome, primarySyncFromSecondary allAnswered 2 1 secondFile twoFiles "0xa"
        = some outcome ∧
      outcome.error = none ∧ Database.Covers outcome.primary.db twoFiles "0xa" := by
  have hfresh : Fresh secondFile.db allAnswered.newUUID := by
    constructor <;> decide
  obtain ⟨outcome, hrun, hcovers⟩ := primarySyncFromSecondary_covers_iff allAnswered 2 secondFile
    twoFiles "0xa" hfresh
  have hsuccess : (primarySyncFromSecondary allAnswered 2 1 secondFile twoFiles "0xa").map
      MergeOutcome.error = some none := by
    decide +kernel
  rw [hrun 0] at hsuccess
  have herror : outcome.error = none := Option.some.inj hsuccess
  exact ⟨outcome, hrun 0, herror, (hcovers herror).mpr (by decide +kernel)⟩

end ColivingSpec
