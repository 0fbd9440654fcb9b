import ColivingSpec.ContentNode.ExportedRange
import ColivingSpec.ContentNode.SyncImports

/-!
# What a range adds to a secondary

A wallet on its primary and on a secondary that has the primary's rows up to a clock, the bundle
that is exported for the clocks after it, and that the secondary accepts the rows of the bundle if
the files have a type that it writes and no other wallet has their keys.
-/

namespace ColivingSpec

open Lib List Bool

/-! ### The four tables -/

/-- The columns of `ClockRecords`. -/
def clockRecordColumns : Columns ClockRecord where
  uuidOf := ClockRecord.cnodeUserUUID
  clockOf := ClockRecord.clock
  withUUID uuid record := { record with cnodeUserUUID := uuid }
  uuidOf_withUUID _ _ := rfl
  clockOf_withUUID _ _ := rfl

/-- The columns of `Files`. -/
def fileColumns : Columns File where
  uuidOf := File.cnodeUserUUID
  clockOf := File.clock
  withUUID uuid file := { file with cnodeUserUUID := uuid }
  uuidOf_withUUID _ _ := rfl
  clockOf_withUUID _ _ := rfl

/-- The columns of `DigitalContents`. -/
def digitalContentColumns : Columns DigitalContent where
  uuidOf := DigitalContent.cnodeUserUUID
  clockOf := DigitalContent.clock
  withUUID uuid content := { content with cnodeUserUUID := uuid }
  uuidOf_withUUID _ _ := rfl
  clockOf_withUUID _ _ := rfl

/-- The columns of `ColivingUsers`. -/
def colivingUserColumns : Columns ColivingUser where
  uuidOf := ColivingUser.cnodeUserUUID
  clockOf := ColivingUser.clock
  withUUID uuid user := { user with cnodeUserUUID := uuid }
  uuidOf_withUUID _ _ := rfl
  clockOf_withUUID _ _ := rfl

/-- The tables of the secondary have the primary's rows of the user up to a clock. -/
structure Mirrors (primary : Database) (uuid : UUID) (secondary : Database) (uuid' : UUID)
    (clock : ℤ) : Prop where
  clockRecords : clockRecordColumns.Mirrors primary.clockRecords uuid secondary.clockRecords uuid'
    clock
  files : fileColumns.Mirrors primary.files uuid secondary.files uuid' clock
  digitalContents : digitalContentColumns.Mirrors primary.digitalContents uuid
    secondary.digitalContents uuid' clock
  colivingUsers : colivingUserColumns.Mirrors primary.colivingUsers uuid secondary.colivingUsers
    uuid' clock

/-! ### The two nodes -/

/-- A wallet on its primary: one user, whose clock records are those from 1 up to the user's
clock, in tables that meet their keys and references. Users and digital contents refer to files of
the wallet that came before them, digital contents to files that are not of digital contents. -/
structure PrimaryWallet (db : Database) (wallet : Wallet) (user : CNodeUser) (n : ℕ) : Prop where
  users : db.cnodeUsers.filter (fun user ↦ user.walletPublicKey = wallet) = [user]
  clock : user.clock = n
  clocks : ∀ clock, (∃ record ∈ db.clockRecords,
    record.cnodeUserUUID = user.cnodeUserUUID ∧ record.clock = clock) ↔ 1 ≤ clock ∧ clock ≤ n
  clockRecords : Database.clockRecordTable.Valid db
  files : Database.fileTable.Valid db
  digitalContents : Database.digitalContentTable.Valid db
  colivingUsers : Database.colivingUserTable.Valid db
  digitalContentFiles : ∀ content ∈ db.digitalContents,
    content.cnodeUserUUID = user.cnodeUserUUID → ∀ fileUUID,
    content.metadataFileUUID = fileUUID ∨ content.coverArtFileUUID = some fileUUID →
    ∃ file ∈ db.files, file.cnodeUserUUID = user.cnodeUserUUID ∧ file.fileUUID = fileUUID ∧
      file.clock ≤ content.clock ∧ file.typeIn File.DigitalContentTypes = false
  colivingUserFiles : ∀ colivingUser ∈ db.colivingUsers,
    colivingUser.cnodeUserUUID = user.cnodeUserUUID → ∀ fileUUID,
    colivingUser.metadataFileUUID = fileUUID ∨ colivingUser.coverArtFileUUID = some fileUUID ∨
      colivingUser.profilePicFileUUID = some fileUUID →
    ∃ file ∈ db.files, file.cnodeUserUUID = user.cnodeUserUUID ∧ file.fileUUID = fileUUID ∧
      file.clock ≤ colivingUser.clock

/-- The secondary has no user with the wallet, or one with the primary's rows up to a clock. -/
inductive Synced (primary : Database) (user : CNodeUser) (wallet : Wallet)
    (secondary : Database) : ℤ → Prop
  | absent : secondary.findCNodeUser wallet = none → Synced primary user wallet secondary (-1)
  | present {user' : CNodeUser} {clock : ℕ} :
    secondary.cnodeUsers.filter (fun user ↦ user.walletPublicKey = wallet) = [user'] →
    user'.clock = clock →
    Mirrors primary user.cnodeUserUUID secondary user'.cnodeUserUUID clock →
    Synced primary user wallet secondary clock

/-- What other wallets have on the secondary has no key in common with the primary's rows. -/
structure Apart (primary : Database) (uuid : UUID) (wallet : Wallet) (secondary : Database) :
    Prop where
  files : ∀ other ∈ secondary.files, secondary.ofWallet wallet other.cnodeUserUUID = false →
    ∀ file ∈ primary.files, file.cnodeUserUUID = uuid → other.fileUUID ≠ file.fileUUID
  digitalContents : ∀ other ∈ secondary.digitalContents,
    secondary.ofWallet wallet other.cnodeUserUUID = false →
    ∀ content ∈ primary.digitalContents, content.cnodeUserUUID = uuid →
    ¬ (other.blockchainId = content.blockchainId ∧ other.clock = content.clock)
  colivingUsers : ∀ other ∈ secondary.colivingUsers,
    secondary.ofWallet wallet other.cnodeUserUUID = false →
    ∀ user ∈ primary.colivingUsers, user.cnodeUserUUID = uuid →
    ¬ (other.blockchainId = user.blockchainId ∧ other.clock = user.clock)

/-- A UUID that no row has. -/
structure Fresh (db : Database) (uuid : UUID) : Prop where
  cnodeUsers : ∀ user ∈ db.cnodeUsers, user.cnodeUserUUID ≠ uuid
  clockRecords : ∀ record ∈ db.clockRecords, record.cnodeUserUUID ≠ uuid
  files : ∀ file ∈ db.files, file.cnodeUserUUID ≠ uuid
  digitalContents : ∀ content ∈ db.digitalContents, content.cnodeUserUUID ≠ uuid
  colivingUsers : ∀ user ∈ db.colivingUsers, user.cnodeUserUUID ≠ uuid

/-- A context in which the lock is acquired and all files are fetchable. -/
structure Ready (ctx : SyncContext) : Prop where
  lockAcquired : ctx.lockAcquired = true
  fetchable : ∀ args, ctx.saveFileForMultihashToFS args = true

/-- The secondary writes the file as it is. -/
def Written (file : File) : Prop :=
  file.typeIn File.DigitalContentTypes = true ∨
    file.typeIn File.NonDigitalContentTypes = true ∧ file.digitalContentBlockchainId = none

/-- All files of the user with clocks above the given one are written as they are. -/
def Replicable (primary : Database) (uuid : UUID) (clock : ℤ) : Prop :=
  ∀ file ∈ primary.files, file.cnodeUserUUID = uuid → clock < file.clock → Written file

/-! ### The export -/

variable {primary : Database} {wallet : Wallet} {user : CNodeUser} {n : ℕ}

/-- The clocks of a list of records go from one after `lo` up to `hi`. -/
structure Consecutive (lo hi : ℤ) (clocks : List ℤ) : Prop where
  mem_iff : ∀ clock, clock ∈ clocks ↔ lo < clock ∧ clock ≤ hi
  sorted : clocks.Pairwise (· < ·)

variable {lo hi : ℤ} {clocks : List ℤ}

theorem Consecutive.contiguousFrom (h : Consecutive lo hi clocks) :
    Database.contiguousFrom lo clocks = true := by
  induction clocks generalizing lo with
  | nil => rfl
  | cons clock rest ih =>
    obtain ⟨hfirst, hrest⟩ := pairwise_cons.mp h.sorted
    have hclock := (h.mem_iff clock).mp mem_cons_self
    have hnext : clock = lo + 1 := by
      rcases mem_cons.mp ((h.mem_iff (lo + 1)).mpr (by omega)) with heq | hmem
      · exact heq.symm
      · have := hfirst _ hmem
        omega
    rw [Database.contiguousFrom, decide_eq_true hnext, Bool.true_and]
    apply ih
    refine ⟨fun other ↦ ?_, hrest⟩
    constructor
    · intro hother
      have hlt := hfirst other hother
      have hle := (h.mem_iff other).mp (mem_cons_of_mem _ hother)
      exact ⟨hlt, hle.2⟩
    · rintro ⟨hlt, hle⟩
      have hmem := (h.mem_iff other).mpr ⟨by omega, hle⟩
      exact (mem_cons.mp hmem).resolve_left (by omega)

/-- The last of the clocks above `lo` and up to `hi`. -/
theorem max?_of_mem (h : ∀ clock, clock ∈ clocks ↔ lo < clock ∧ clock ≤ hi) :
    clocks.max? = if lo < hi then some hi else none := by
  split
  · next hlt =>
    rw [max?_eq_some_iff]
    exact ⟨(h hi).mpr ⟨hlt, Int.le_refl hi⟩, fun other hother ↦ ((h other).mp hother).2⟩
  · next hle =>
    rw [max?_eq_none_iff, eq_nil_iff_forall_not_mem]
    intro clock hclock
    have := (h clock).mp hclock
    omega

theorem Consecutive.head? (h : Consecutive lo hi clocks) :
    clocks.head?.any (· ≠ lo + 1) = false := by
  have hcontiguous := h.contiguousFrom
  cases clocks with
  | nil => rfl
  | cons clock rest =>
    rw [Database.contiguousFrom, and_eq_true] at hcontiguous
    simp [of_decide_eq_true hcontiguous.1]

namespace PrimaryWallet

variable (h : PrimaryWallet primary wallet user n)
include h

theorem clockRecord_clock {record : ClockRecord} (hrecord : record ∈ primary.clockRecords)
    (huuid : record.cnodeUserUUID = user.cnodeUserUUID) : 1 ≤ record.clock ∧ record.clock ≤ n :=
  (h.clocks record.clock).mp ⟨record, hrecord, huuid, rfl⟩

/-- A row with a clock record has a clock of the wallet. -/
theorem clock_of_hasClockRecord {clock : ℤ}
    (hclock : primary.hasClockRecord user.cnodeUserUUID clock = true) : 1 ≤ clock ∧ clock ≤ n := by
  obtain ⟨record, hrecord, hsame⟩ := any_eq_true.mp hclock
  obtain ⟨huuid, hclock⟩ := of_decide_eq_true hsame
  exact (h.clocks clock).mp ⟨record, hrecord, huuid, hclock⟩

theorem file_clock {file : File} (hfile : file ∈ primary.files)
    (huuid : file.cnodeUserUUID = user.cnodeUserUUID) : 1 ≤ file.clock ∧ file.clock ≤ n := by
  have hresolved := h.files.resolved file hfile
  rw [Database.fileTable, and_eq_true, huuid] at hresolved
  exact h.clock_of_hasClockRecord hresolved.2

theorem digitalContent_clock {content : DigitalContent}
    (hcontent : content ∈ primary.digitalContents)
    (huuid : content.cnodeUserUUID = user.cnodeUserUUID) :
    1 ≤ content.clock ∧ content.clock ≤ n := by
  have hresolved := h.digitalContents.resolved content hcontent
  rw [Database.digitalContentTable, and_eq_true, and_eq_true, and_eq_true, huuid] at hresolved
  exact h.clock_of_hasClockRecord hresolved.1.1.2

theorem colivingUser_clock {colivingUser : ColivingUser}
    (hmem : colivingUser ∈ primary.colivingUsers)
    (huuid : colivingUser.cnodeUserUUID = user.cnodeUserUUID) :
    1 ≤ colivingUser.clock ∧ colivingUser.clock ≤ n := by
  have hresolved := h.colivingUsers.resolved colivingUser hmem
  rw [Database.colivingUserTable, and_eq_true, and_eq_true, and_eq_true,
    and_eq_true, huuid] at hresolved
  exact h.clock_of_hasClockRecord hresolved.1.1.1.2

end PrimaryWallet

/-- The bundle of a wallet for the clocks after `lo` and up to `hi`. -/
structure Exported (primary : Database) (wallet : Wallet) (uuid : UUID) (lo hi : ℤ)
    (e : FetchedCNodeUser) (records : List ClockRecord) (files : List File)
    (contents : List DigitalContent) (users : List ColivingUser) : Prop where
  recordsPerm : records.Perm (clockRecordColumns.between primary.clockRecords uuid lo hi)
  filesPerm : files.Perm (fileColumns.between primary.files uuid lo hi)
  contentsPerm : contents.Perm (digitalContentColumns.between primary.digitalContents uuid lo hi)
  usersPerm : users.Perm (colivingUserColumns.between primary.colivingUsers uuid lo hi)
  consecutive : Consecutive (max lo 0) hi (records.map ClockRecord.clock)
  walletPublicKey : e.walletPublicKey = some wallet
  clock : e.clock = hi
  clockRecords : e.clockRecords = some records
  files : e.files = some files
  digitalContents : e.digitalContents = some contents
  colivingUsers : e.colivingUsers = some users

/-- The end of a range is the last clock or cuts the clocks off. -/
theorem le_iff_le_min {clock last max : ℤ} (h : clock ≤ last) :
    clock ≤ max ↔ clock ≤ min last max := by
  omega

/-- No two clock records between two clocks have the same clock. -/
theorem PrimaryWallet.nodup_clocks (h : PrimaryWallet primary wallet user n) (lo hi : ℤ) :
    ((clockRecordColumns.between primary.clockRecords user.cnodeUserUUID lo hi).map
      ClockRecord.clock).Nodup := by
  apply pairwise_map.mpr
  have hsub : (clockRecordColumns.between primary.clockRecords user.cnodeUserUUID lo hi).Pairwise
      fun a b ↦ Database.clockRecordTable.clash a b = false :=
    h.clockRecords.distinct.sublist filter_sublist
  refine hsub.imp_of_mem fun ha hb hclash hclock ↦ ?_
  obtain ⟨-, hauuid, -⟩ := Columns.mem_between.mp ha
  obtain ⟨-, hbuuid, -⟩ := Columns.mem_between.mp hb
  exact of_decide_eq_false hclash ⟨hauuid.trans hbuuid.symm, hclock⟩

/-- The clock records of a range, in order. -/
theorem PrimaryWallet.consecutive (h : PrimaryWallet primary wallet user n) (lo max : ℤ) :
    Consecutive (Max.max lo 0) (min n max)
      (((findInClockRange ClockRecord.cnodeUserUUID ClockRecord.clock primary.clockRecords
        [user.cnodeUserUUID] (lo + 1) max).filter
          (·.cnodeUserUUID = user.cnodeUserUUID)).map ClockRecord.clock) := by
  have hperm : ((findInClockRange ClockRecord.cnodeUserUUID ClockRecord.clock primary.clockRecords
      [user.cnodeUserUUID] (lo + 1) max).filter (·.cnodeUserUUID = user.cnodeUserUUID)).Perm
        (clockRecordColumns.between primary.clockRecords user.cnodeUserUUID lo (min n max)) :=
    clockRecordColumns.findInClockRange_perm primary.clockRecords user.cnodeUserUUID
      lo (min n max) max fun record hrecord huuid ↦
        le_iff_le_min (h.clockRecord_clock hrecord huuid).2
  constructor
  · intro clock
    rw [(hperm.map ClockRecord.clock).mem_iff, mem_map]
    constructor
    · rintro ⟨record, hrecord, rfl⟩
      obtain ⟨hrecord, huuid, hlo, hhi⟩ := Columns.mem_between.mp hrecord
      have hclock := h.clockRecord_clock hrecord huuid
      have hlo : lo < record.clock := hlo
      exact ⟨by omega, hhi⟩
    · rintro ⟨hlo, hhi⟩
      obtain ⟨record, hrecord, huuid, rfl⟩ := (h.clocks clock).mpr (by omega)
      have hlo : lo < record.clock := by omega
      exact ⟨record, Columns.mem_between.mpr ⟨hrecord, huuid, hlo, hhi⟩, rfl⟩
  · have hnodup := (hperm.map ClockRecord.clock).nodup_iff.mpr (h.nodup_clocks lo (min n max))
    have hsorted := clockRecordColumns.findInClockRange_sorted primary.clockRecords
      [user.cnodeUserUUID] (lo + 1) max
    have hle : (((findInClockRange ClockRecord.cnodeUserUUID ClockRecord.clock primary.clockRecords
        [user.cnodeUserUUID] (lo + 1) max).filter
          (·.cnodeUserUUID = user.cnodeUserUUID)).map ClockRecord.clock).Pairwise (· ≤ ·) :=
      pairwise_map.mpr (hsorted.sublist filter_sublist)
    refine (hle.and hnodup).imp fun hab ↦ ?_
    omega

/-- The export of the clocks after `lo`: one bundle, up to the end of the range. -/
theorem PrimaryWallet.exportRoute_eq (h : PrimaryWallet primary wallet user n)
    (maxExportClockValueRange : ℕ) (lo : ℤ) :
    ∃ e records files contents users,
      (primary.exportRoute maxExportClockValueRange [wallet] (some (lo + 1)) false).2 = .ok [e] ∧
      Exported primary wallet user.cnodeUserUUID lo (min n (lo + maxExportClockValueRange)) e
        records files contents users := by
  have husers : primary.cnodeUsers.filter (fun user ↦ user.walletPublicKey ∈ [wallet]) = [user] := by
    rw [← h.users]
    apply filter_congr
    intro other _
    simp
  have hwallet : user.walletPublicKey = wallet := by
    have hmem : user ∈ primary.cnodeUsers.filter fun user ↦ user.walletPublicKey = wallet := by
      rw [h.users]
      exact mem_singleton_self user
    simpa using (mem_filter.mp hmem).2
  have hmax : lo + 1 + ((maxExportClockValueRange : ℤ) - 1) = lo + maxExportClockValueRange := by
    omega
  have hconsecutive := h.consecutive lo (lo + maxExportClockValueRange)
  have hall : (findInClockRange ClockRecord.cnodeUserUUID ClockRecord.clock primary.clockRecords
      [user.cnodeUserUUID] (lo + 1) (lo + maxExportClockValueRange)).filter
        (·.cnodeUserUUID = user.cnodeUserUUID)
      = findInClockRange ClockRecord.cnodeUserUUID ClockRecord.clock primary.clockRecords
        [user.cnodeUserUUID] (lo + 1) (lo + maxExportClockValueRange) := by
    apply filter_eq_self.mpr
    intro record hrecord
    have hmem := (mem_filter.mp (mem_mergeSort.mp hrecord)).2
    simpa using (of_decide_eq_true hmem).1
  have hclock : Database.exportedClock user.clock (lo + maxExportClockValueRange)
      = min (n : ℤ) (lo + maxExportClockValueRange) := by
    rw [Database.exportedClock, h.clock]
    split
    · omega
    · omega
  have hvalid : Database.validateClock (min n (lo + maxExportClockValueRange))
      (findInClockRange ClockRecord.cnodeUserUUID ClockRecord.clock primary.clockRecords
        [user.cnodeUserUUID] (lo + 1) (lo + maxExportClockValueRange)) false = .ok () := by
    rw [hall] at hconsecutive
    rw [Database.validateClock, max?_of_mem hconsecutive.mem_iff]
    split
    · next hnone => rfl
    · next maxClockRecord hsome =>
      rw [require_eq_ok]
      split at hsome
      · exact .inl (Option.some.inj hsome)
      · cases hsome
  have hbundle : ∃ e records files contents users,
      Database.bundleCNodeUser (lo + 1) (lo + maxExportClockValueRange) false
        (findInClockRange ColivingUser.cnodeUserUUID ColivingUser.clock primary.colivingUsers
          [user.cnodeUserUUID] (lo + 1) (lo + maxExportClockValueRange))
        (findInClockRange DigitalContent.cnodeUserUUID DigitalContent.clock
          primary.digitalContents [user.cnodeUserUUID] (lo + 1) (lo + maxExportClockValueRange))
        (findInClockRange File.cnodeUserUUID File.clock primary.files
          [user.cnodeUserUUID] (lo + 1) (lo + maxExportClockValueRange))
        (findInClockRange ClockRecord.cnodeUserUUID ClockRecord.clock primary.clockRecords
          [user.cnodeUserUUID] (lo + 1) (lo + maxExportClockValueRange)) user = .ok e ∧
      Exported primary wallet user.cnodeUserUUID lo (min n (lo + maxExportClockValueRange)) e
        records files contents users := by
    rw [Database.bundleCNodeUser, hclock, hvalid, ok_bind]
    exact ⟨_, _, _, _, _, rfl,
      clockRecordColumns.findInClockRange_perm _ _ _ _ _ fun record hrecord huuid ↦
        le_iff_le_min (h.clockRecord_clock hrecord huuid).2,
      fileColumns.findInClockRange_perm _ _ _ _ _ fun file hfile huuid ↦
        le_iff_le_min (h.file_clock hfile huuid).2,
      digitalContentColumns.findInClockRange_perm _ _ _ _ _ fun content hcontent huuid ↦
        le_iff_le_min (h.digitalContent_clock hcontent huuid).2,
      colivingUserColumns.findInClockRange_perm _ _ _ _ _ fun other hother huuid ↦
        le_iff_le_min (h.colivingUser_clock hother huuid).2,
      hconsecutive, congrArg some hwallet, rfl, rfl, rfl, rfl, rfl⟩
  obtain ⟨e, records, files, contents, users, hbundle, hexported⟩ := hbundle
  refine ⟨e, records, files, contents, users, ?_, hexported⟩
  unfold Database.exportRoute Database.retry Database.exportComponentService
  simp only [Option.getD_some, husers, map_cons, map_nil, mapM_cons, mapM_nil, hmax, hbundle]
  rfl

/-! ### What the secondary accepts -/

variable {ctx : SyncContext} {secondary : Database} {uuid' : UUID} {lo hi : ℤ}
variable {e : FetchedCNodeUser}

/-- The secondary with its user saved: the user has the new clock, the tables have the rows up to
the old one, and no other rows have a key in common with the primary's. -/
structure Prepared (primary : Database) (uuid : UUID) (wallet : Wallet) (db : Database)
    (uuid' : UUID) (lo hi : ℤ) : Prop where
  users : ∃ user', db.cnodeUsers.filter (fun user ↦ user.walletPublicKey = wallet) = [user'] ∧
    user'.cnodeUserUUID = uuid' ∧ user'.clock = hi
  mirrors : Mirrors primary uuid db uuid' lo
  files : ∀ other ∈ db.files, other.cnodeUserUUID ≠ uuid' →
    ∀ file ∈ primary.files, file.cnodeUserUUID = uuid → other.fileUUID ≠ file.fileUUID
  digitalContents : ∀ other ∈ db.digitalContents, other.cnodeUserUUID ≠ uuid' →
    ∀ content ∈ primary.digitalContents, content.cnodeUserUUID = uuid →
    ¬ (other.blockchainId = content.blockchainId ∧ other.clock = content.clock)
  colivingUsers : ∀ other ∈ db.colivingUsers, other.cnodeUserUUID ≠ uuid' →
    ∀ user ∈ primary.colivingUsers, user.cnodeUserUUID = uuid →
    ¬ (other.blockchainId = user.blockchainId ∧ other.clock = user.clock)

theorem Columns.mirrors_of_fresh {ρ : Type} (c : Columns ρ) {rows primary : List ρ} {uuid : UUID}
    (hfresh : ∀ row ∈ rows, c.uuidOf row ≠ uuid')
    (hclock : ∀ row ∈ primary, c.uuidOf row = uuid → lo < c.clockOf row) :
    c.Mirrors primary uuid rows uuid' lo := by
  have hrows : rows.filter (fun row ↦ c.uuidOf row = uuid') = [] := by
    apply filter_eq_nil_iff.mpr
    intro row hrow
    simpa using hfresh row hrow
  have hprimary : c.upTo primary uuid lo = [] := by
    apply filter_eq_nil_iff.mpr
    intro row hrow hmem
    obtain ⟨huuid, hle⟩ := of_decide_eq_true hmem
    have := hclock row hrow huuid
    omega
  unfold Columns.Mirrors
  rw [hrows, hprimary]
  exact Perm.nil

/-- A table without rows of a fresh user mirrors the primary's before its first clock. -/
theorem PrimaryWallet.mirrors_of_fresh (h : PrimaryWallet primary wallet user n)
    (hfresh : Fresh secondary uuid') :
    Mirrors primary user.cnodeUserUUID secondary uuid' (-1) where
  clockRecords := clockRecordColumns.mirrors_of_fresh hfresh.clockRecords fun _ hrow huuid ↦ by
    have := (h.clockRecord_clock hrow huuid).1
    show -1 < ClockRecord.clock _
    omega
  files := fileColumns.mirrors_of_fresh hfresh.files fun _ hrow huuid ↦ by
    have := (h.file_clock hrow huuid).1
    show -1 < File.clock _
    omega
  digitalContents := digitalContentColumns.mirrors_of_fresh hfresh.digitalContents
    fun _ hrow huuid ↦ by
      have := (h.digitalContent_clock hrow huuid).1
      show -1 < DigitalContent.clock _
      omega
  colivingUsers := colivingUserColumns.mirrors_of_fresh hfresh.colivingUsers fun _ hrow huuid ↦ by
    have := (h.colivingUser_clock hrow huuid).1
    show -1 < ColivingUser.clock _
    omega

/-- The user is saved, whether it is there or not. -/
theorem Synced.prepare (h : PrimaryWallet primary wallet user n)
    (hsynced : Synced primary user wallet secondary lo)
    (hapart : Apart primary user.cnodeUserUUID wallet secondary)
    (hfresh : secondary.findCNodeUser wallet = none → Fresh secondary ctx.newUUID) :
    ∃ db uuid', SavesUser ctx secondary wallet e db uuid' ∧
      Prepared primary user.cnodeUserUUID wallet db uuid' lo e.clock := by
  cases hsynced with
  | absent hnone =>
    have hnot : ∀ other ∈ secondary.cnodeUsers, other.walletPublicKey ≠ wallet := by
      intro other hother
      simpa using find?_eq_none.mp hnone other hother
    have hother : ∀ uuid, secondary.ofWallet wallet uuid = false := by
      intro uuid
      apply any_eq_false.mpr
      intro other hmem hsame
      exact hnot other hmem (of_decide_eq_true hsame).1
    have hfresh := hfresh hnone
    refine ⟨_, _, .created hnone hfresh.cnodeUsers, ?_⟩
    have hmirrors := h.mirrors_of_fresh hfresh
    refine ⟨⟨⟨ctx.newUUID, wallet, e.lastLogin, e.latestBlockNumber, e.clock, e.createdAt, ctx.now⟩,
      ?_, rfl, rfl⟩, ⟨hmirrors.clockRecords, hmirrors.files, hmirrors.digitalContents,
      hmirrors.colivingUsers⟩, ?_, ?_, ?_⟩
    · rw [filter_append, filter_eq_nil_iff.mpr fun other hmem ↦ by
        simpa using hnot other hmem]
      simp
    · exact fun other hmem _ ↦ hapart.files other hmem (hother _)
    · exact fun other hmem _ ↦ hapart.digitalContents other hmem (hother _)
    · exact fun other hmem _ ↦ hapart.colivingUsers other hmem (hother _)
  | @present user' clock husers hclock hmirrors =>
    have hfind : secondary.findCNodeUser wallet = some user' := by
      rw [Database.findCNodeUser, ← head?_filter, husers]
      rfl
    have hone : secondary.cnodeUsers.countP (fun user ↦ user.walletPublicKey = wallet) = 1 := by
      rw [countP_eq_length_filter, husers]
      rfl
    have hother : ∀ {uuid}, uuid ≠ user'.cnodeUserUUID →
        secondary.ofWallet wallet uuid = false := by
      intro uuid hne
      apply any_eq_false.mpr
      intro other hmem hsame
      obtain ⟨hwallet, huuid⟩ := of_decide_eq_true hsame
      have hin : other ∈ secondary.cnodeUsers.filter fun user ↦ user.walletPublicKey = wallet :=
        mem_filter.mpr ⟨hmem, decide_eq_true hwallet⟩
      rw [husers, mem_singleton] at hin
      exact hne (by rw [← huuid, hin])
    refine ⟨_, _, .updated hfind hone, ?_⟩
    refine ⟨⟨{ user' with
        lastLogin := e.lastLogin
        latestBlockNumber := e.latestBlockNumber
        clock := e.clock
        createdAt := e.createdAt
        updatedAt := ctx.now }, ?_, rfl, rfl⟩,
      ⟨hmirrors.clockRecords, hmirrors.files, hmirrors.digitalContents,
        hmirrors.colivingUsers⟩, ?_, ?_, ?_⟩
    · rw [filter_map]
      have hcomp : ((fun user : CNodeUser ↦ decide (user.walletPublicKey = wallet)) ∘
          fun user : CNodeUser ↦ if user.walletPublicKey = wallet then
            { user with
              lastLogin := e.lastLogin
              latestBlockNumber := e.latestBlockNumber
              clock := e.clock
              createdAt := e.createdAt
              updatedAt := ctx.now } else user)
          = fun user : CNodeUser ↦ decide (user.walletPublicKey = wallet) := by
        funext user
        simp only [Function.comp_apply]
        split
        · rfl
        · rfl
      have hwallet : user'.walletPublicKey = wallet := by
        simpa using find?_some hfind
      rw [hcomp, husers, map_singleton, if_pos hwallet]
    · exact fun other hmem hne ↦ hapart.files other hmem (hother hne)
    · exact fun other hmem hne ↦ hapart.digitalContents other hmem (hother hne)
    · exact fun other hmem hne ↦ hapart.colivingUsers other hmem (hother hne)

theorem clockRecordColumns_keyed :
    clockRecordColumns.Keyed Database.clockRecordTable.clash where
  symm a b := by simp [Database.clockRecordTable, eq_comm]
  withUUID uuid a b h := by
    have h : a.cnodeUserUUID = b.cnodeUserUUID := h
    simp [Database.clockRecordTable, clockRecordColumns, h]

theorem fileColumns_keyed : fileColumns.Keyed Database.fileTable.clash where
  symm a b := by simp [Database.fileTable, eq_comm]
  withUUID uuid a b h := by
    have h : a.cnodeUserUUID = b.cnodeUserUUID := h
    simp [Database.fileTable, fileColumns, h]

theorem digitalContentColumns_keyed :
    digitalContentColumns.Keyed Database.digitalContentTable.clash where
  symm a b := by simp [Database.digitalContentTable, eq_comm]
  withUUID uuid a b h := by
    have h : a.cnodeUserUUID = b.cnodeUserUUID := h
    simp [Database.digitalContentTable, digitalContentColumns, h]

theorem colivingUserColumns_keyed :
    colivingUserColumns.Keyed Database.colivingUserTable.clash where
  symm a b := by simp [Database.colivingUserTable, eq_comm]
  withUUID uuid a b h := by
    have h : a.cnodeUserUUID = b.cnodeUserUUID := h
    simp [Database.colivingUserTable, colivingUserColumns, h]

/-- The rows of a bundle as they are when all files are written as they are. -/
def copiedRows (uuid' : UUID) (records : List ClockRecord) (files : List File)
    (contents : List DigitalContent) (users : List ColivingUser) : WrittenRows where
  clockRecords := records.map (clockRecordColumns.withUUID uuid')
  nonDigitalContentFiles :=
    (files.filter (·.typeIn File.NonDigitalContentTypes)).map (fileColumns.withUUID uuid')
  digitalContents := contents.map (digitalContentColumns.withUUID uuid')
  digitalContentFiles :=
    (files.filter (·.typeIn File.DigitalContentTypes)).map (fileColumns.withUUID uuid')
  colivingUsers := users.map (colivingUserColumns.withUUID uuid')

/-- A type is not of digital contents and of other files. -/
theorem typeIn_exclusive {file : File} (h : file.typeIn File.NonDigitalContentTypes = true) :
    file.typeIn File.DigitalContentTypes = false := by
  unfold File.typeIn at h ⊢
  cases htype : file.type with
  | none => rfl
  | some type =>
    rw [htype] at h
    cases type with
    | digital_content => exact absurd h (by decide)
    | copy320 => exact absurd h (by decide)
    | other value => simp [File.NonDigitalContentTypes] at h
    | dir => rfl
    | image => rfl
    | metadata => rfl

theorem markSkipped_nil (file : File) : markSkipped [] file = file := by
  simp [markSkipped]

theorem rowsOf_eq_copiedRows {uuid' : UUID} {records : List ClockRecord} {files : List File}
    {contents : List DigitalContent} {users : List ColivingUser}
    (hwritten : ∀ file ∈ files, Written file) :
    rowsOf uuid' [] records files contents users = copiedRows uuid' records files contents users := by
  have hnon : writtenNonDigitalContentFiles uuid' []
      (files.filter (·.typeIn File.NonDigitalContentTypes))
        = (files.filter (·.typeIn File.NonDigitalContentTypes)).map (fileColumns.withUUID uuid') := by
    apply map_congr_left
    intro file hfile
    obtain ⟨hfile, htype⟩ := mem_filter.mp hfile
    rw [markSkipped_nil]
    rcases hwritten file hfile with hdigital | ⟨-, hid⟩
    · rw [typeIn_exclusive htype] at hdigital
      cases hdigital
    · rw [← hid]
      rfl
  have hdigital : writtenDigitalContentFiles uuid' []
      (files.filter (·.typeIn File.DigitalContentTypes))
        = (files.filter (·.typeIn File.DigitalContentTypes)).map (fileColumns.withUUID uuid') := by
    apply map_congr_left
    intro file _
    rw [markSkipped_nil]
    rfl
  unfold rowsOf copiedRows
  rw [hnon, hdigital]
  rfl

/-- Files that are written are those of digital contents and the others. -/
theorem files_perm {files : List File} (hwritten : ∀ file ∈ files, Written file) :
    (files.filter (·.typeIn File.NonDigitalContentTypes)
      ++ files.filter (·.typeIn File.DigitalContentTypes)).Perm files := by
  have hrest : files.filter (·.typeIn File.DigitalContentTypes)
      = files.filter fun file ↦ !file.typeIn File.NonDigitalContentTypes := by
    apply filter_congr
    intro file hfile
    rcases hwritten file hfile with hdigital | ⟨hnon, -⟩
    · have hnon : file.typeIn File.NonDigitalContentTypes = false := by
        by_contra h
        rw [typeIn_exclusive (not_eq_false _ ▸ h)] at hdigital
        cases hdigital
      rw [hdigital, hnon]
      rfl
    · rw [hnon, typeIn_exclusive hnon]
      rfl
  rw [hrest]
  exact filter_append_perm _ files

section Accepts

variable {uuid : UUID} {db : Database} {records : List ClockRecord} {files : List File}
variable {contents : List DigitalContent} {users : List ColivingUser}

theorem Prepared.hasCNodeUser (h : Prepared primary uuid wallet db uuid' lo hi) :
    db.hasCNodeUser uuid' = true := by
  obtain ⟨user', husers, huuid, -⟩ := h.users
  have hmem : user' ∈ db.cnodeUsers.filter fun user ↦ user.walletPublicKey = wallet := by
    rw [husers]
    exact mem_singleton_self user'
  exact any_eq_true.mpr ⟨user', mem_of_mem_filter hmem, decide_eq_true huuid⟩

/-- The last clock record of a user that has those up to a clock. -/
theorem mirrors_maxClock (h : PrimaryWallet primary wallet user n)
    (hmirrors : Mirrors primary user.cnodeUserUUID db uuid' lo) (hlo : lo ≤ n) :
    (db.maxClock uuid').getD 0 = max lo 0 := by
  have hmem : ∀ clock, clock ∈ (db.clockRecords.filter fun record ↦
      record.cnodeUserUUID = uuid').map ClockRecord.clock ↔ 0 < clock ∧ clock ≤ lo := by
    intro clock
    rw [mem_map]
    constructor
    · rintro ⟨record, hrecord, rfl⟩
      obtain ⟨hrecord, huuid⟩ := mem_filter.mp hrecord
      obtain ⟨record', hrecord', huuid', hclock, rfl⟩ :=
        hmirrors.clockRecords.mem_iff.mp ⟨hrecord, of_decide_eq_true huuid⟩
      have := h.clockRecord_clock hrecord' huuid'
      exact ⟨by show 0 < record'.clock; omega, hclock⟩
    · rintro ⟨hpos, hle⟩
      obtain ⟨record, hrecord, huuid, rfl⟩ := (h.clocks clock).mpr (by omega)
      obtain ⟨hin, huuid'⟩ := hmirrors.clockRecords.mem_iff.mpr
        ⟨record, hrecord, huuid, hle, rfl⟩
      exact ⟨_, mem_filter.mpr ⟨hin, decide_eq_true huuid'⟩, rfl⟩
  rw [Database.maxClock, max?_of_mem hmem]
  split
  · show lo = max lo 0
    omega
  · show 0 = max lo 0
    omega

variable {db' : Database}

/-- The clock records of the range are there once they are written. -/
theorem Exported.hasClockRecord (h : PrimaryWallet primary wallet user n)
    (hexported : Exported primary wallet user.cnodeUserUUID lo hi e records files contents users)
    {clock : ℤ} (hlo : lo < clock) (hhi : clock ≤ hi) (hclock : 1 ≤ clock ∧ clock ≤ n)
    (hdb : db'.clockRecords
      = db.clockRecords ++ records.map (clockRecordColumns.withUUID uuid')) :
    db'.hasClockRecord uuid' clock = true := by
  obtain ⟨record, hrecord, huuid, rfl⟩ := (h.clocks clock).mpr hclock
  have hmem : record ∈ records :=
    hexported.recordsPerm.mem_iff.mpr (Columns.mem_between.mpr ⟨hrecord, huuid, hlo, hhi⟩)
  apply any_eq_true.mpr
  refine ⟨clockRecordColumns.withUUID uuid' record, ?_, decide_eq_true ⟨rfl, rfl⟩⟩
  rw [hdb]
  exact mem_append_right _ (mem_map_of_mem hmem)

/-- A file of the wallet with a clock up to the end of the range is there once the files it is
among are written. -/
theorem Prepared.hasFile (hprepared : Prepared primary user.cnodeUserUUID wallet db uuid' lo hi)
    {file : File} (hfile : file ∈ primary.files) (huuid : file.cnodeUserUUID = user.cnodeUserUUID)
    {new : List File} (hnew : lo < file.clock → file ∈ new)
    (hdb : db'.files = db.files ++ new.map (fileColumns.withUUID uuid')) :
    db'.hasFile file.fileUUID = true := by
  apply any_eq_true.mpr
  rw [hdb]
  refine ⟨fileColumns.withUUID uuid' file, ?_, decide_eq_true rfl⟩
  by_cases hclock : file.clock ≤ lo
  · exact mem_append_left _
      (hprepared.mirrors.files.mem_iff.mpr ⟨file, hfile, huuid, hclock, rfl⟩).1
  · exact mem_append_right _ (mem_map_of_mem (hnew (by omega)))

theorem hasFileIfAny_of_forall {fileUUID? : Option UUID}
    (h : ∀ fileUUID, fileUUID? = some fileUUID → db'.hasFile fileUUID = true) :
    db'.hasFileIfAny fileUUID? = true := by
  cases fileUUID? with
  | none => rfl
  | some fileUUID => exact h fileUUID rfl

variable (h : PrimaryWallet primary wallet user n)
variable (hprepared : Prepared primary user.cnodeUserUUID wallet db uuid' lo hi)
variable (hexported : Exported primary wallet user.cnodeUserUUID lo hi e records files contents users)
variable (hwritten : ∀ file ∈ files, Written file)

include h hprepared hexported in
theorem accepts_clockRecords :
    Database.clockRecordTable.Accepts db (records.map (clockRecordColumns.withUUID uuid')) := by
  constructor
  · refine clockRecordColumns_keyed.fresh h.clockRecords.distinct hprepared.mirrors.clockRecords
      ?_ hexported.recordsPerm
    intro other _ hne record _ _
    have hne : other.cnodeUserUUID ≠ uuid' := hne
    simp [Database.clockRecordTable, clockRecordColumns, hne]
  · exact clockRecordColumns_keyed.distinct h.clockRecords.distinct hexported.recordsPerm
  · intro record hrecord
    obtain ⟨other, -, rfl⟩ := mem_map.mp hrecord
    exact hprepared.hasCNodeUser

include h hprepared hexported in
theorem fresh_files : ∀ other ∈ db.files, ∀ file ∈ files.map (fileColumns.withUUID uuid'),
    Database.fileTable.clash other file = false := by
  refine fileColumns_keyed.fresh h.files.distinct hprepared.mirrors.files ?_ hexported.filesPerm
  intro other hother hne file hfile huuid
  have hne : other.cnodeUserUUID ≠ uuid' := hne
  have huuids := hprepared.files other hother hne file hfile huuid
  simp [Database.fileTable, fileColumns, huuids, hne]

variable (uuid') in
include h hexported hwritten in
/-- The files of digital contents and the others have no key in common. -/
theorem distinct_files :
    ((files.filter (·.typeIn File.NonDigitalContentTypes)).map (fileColumns.withUUID uuid')
      ++ (files.filter (·.typeIn File.DigitalContentTypes)).map
        (fileColumns.withUUID uuid')).Pairwise
      fun a b ↦ Database.fileTable.clash a b = false := by
  rw [← map_append]
  exact fileColumns_keyed.distinct h.files.distinct
    ((files_perm hwritten).trans hexported.filesPerm)

variable (husers : db'.cnodeUsers = db.cnodeUsers) (hrecords : db'.clockRecords
  = db.clockRecords ++ records.map (clockRecordColumns.withUUID uuid'))

include hprepared husers in
theorem saved_hasCNodeUser : db'.hasCNodeUser uuid' = true := by
  rw [Database.hasCNodeUser, husers]
  exact hprepared.hasCNodeUser

include h hprepared hexported husers hrecords in
theorem resolves_file {file : File} (hfile : file ∈ files) :
    Database.fileTable.resolves db' (fileColumns.withUUID uuid' file) = true := by
  obtain ⟨hmem, huuid, hlo, hhi⟩ := Columns.mem_between.mp (hexported.filesPerm.subset hfile)
  have hrecord := hexported.hasClockRecord h hlo hhi (h.file_clock hmem huuid) hrecords
  exact and_eq_true_iff.mpr ⟨saved_hasCNodeUser hprepared husers, hrecord⟩

include h hprepared hexported hwritten husers hrecords

theorem accepts_nonDigitalContentFiles (hfiles : db'.files = db.files) :
    Database.fileTable.Accepts db'
      ((files.filter (·.typeIn File.NonDigitalContentTypes)).map
        (fileColumns.withUUID uuid')) := by
  constructor
  · intro other hother file hfile
    have hother : other ∈ db.files := hfiles ▸ hother
    obtain ⟨file', hfile', rfl⟩ := mem_map.mp hfile
    exact fresh_files h hprepared hexported other hother _
      (mem_map_of_mem (mem_of_mem_filter hfile'))
  · exact (pairwise_append.mp (distinct_files uuid' h hexported hwritten)).1
  · intro file hfile
    obtain ⟨file', hfile', rfl⟩ := mem_map.mp hfile
    exact resolves_file h hprepared hexported husers hrecords (mem_of_mem_filter hfile')

theorem accepts_digitalContentFiles (hfiles : db'.files = db.files ++
      (files.filter (·.typeIn File.NonDigitalContentTypes)).map (fileColumns.withUUID uuid')) :
    Database.fileTable.Accepts db'
      ((files.filter (·.typeIn File.DigitalContentTypes)).map (fileColumns.withUUID uuid')) := by
  obtain ⟨-, hdistinct, hcross⟩ := pairwise_append.mp
    (distinct_files uuid' h hexported hwritten)
  constructor
  · intro other hother file hfile
    have hother : other ∈ db'.files := hother
    rw [hfiles] at hother
    rcases mem_append.mp hother with hold | hnew
    · obtain ⟨file', hfile', rfl⟩ := mem_map.mp hfile
      exact fresh_files h hprepared hexported other hold _
        (mem_map_of_mem (mem_of_mem_filter hfile'))
    · exact hcross other hnew file hfile
  · exact hdistinct
  · intro file hfile
    obtain ⟨file', hfile', rfl⟩ := mem_map.mp hfile
    exact resolves_file h hprepared hexported husers hrecords (mem_of_mem_filter hfile')

theorem accepts_digitalContents (hcontents : db'.digitalContents = db.digitalContents)
    (hfiles : db'.files = db.files ++ (files.filter (·.typeIn File.NonDigitalContentTypes)).map
      (fileColumns.withUUID uuid')) :
    Database.digitalContentTable.Accepts db'
      (contents.map (digitalContentColumns.withUUID uuid')) := by
  constructor
  · show ∀ other ∈ db'.digitalContents, _
    rw [hcontents]
    refine digitalContentColumns_keyed.fresh h.digitalContents.distinct
      hprepared.mirrors.digitalContents ?_ hexported.contentsPerm
    intro other hother hne content hcontent huuid
    have hne : other.cnodeUserUUID ≠ uuid' := hne
    have hkey := hprepared.digitalContents other hother hne content hcontent huuid
    simpa [Database.digitalContentTable, digitalContentColumns, hne] using hkey
  · exact digitalContentColumns_keyed.distinct h.digitalContents.distinct hexported.contentsPerm
  · intro content hcontent
    obtain ⟨content', hcontent', rfl⟩ := mem_map.mp hcontent
    obtain ⟨hmem, huuid, hlo, hhi⟩ :=
      Columns.mem_between.mp (hexported.contentsPerm.subset hcontent')
    have hrecord := hexported.hasClockRecord h hlo hhi (h.digitalContent_clock hmem huuid) hrecords
    have hreference : ∀ fileUUID, content'.metadataFileUUID = fileUUID ∨
        content'.coverArtFileUUID = some fileUUID → db'.hasFile fileUUID = true := by
      intro fileUUID hrefers
      obtain ⟨file, hfile, hfileuuid, rfl, hclock, htype⟩ :=
        h.digitalContentFiles content' hmem huuid fileUUID hrefers
      refine hprepared.hasFile hfile hfileuuid (fun hafter ↦ ?_) hfiles
      have hin : file ∈ files := hexported.filesPerm.mem_iff.mpr
        (Columns.mem_between.mpr ⟨hfile, hfileuuid, hafter, Int.le_trans hclock hhi⟩)
      rcases hwritten file hin with hdigital | ⟨hnon, -⟩
      · rw [htype] at hdigital
        cases hdigital
      · exact mem_filter.mpr ⟨hin, hnon⟩
    simp only [Database.digitalContentTable, and_eq_true]
    exact ⟨⟨⟨saved_hasCNodeUser hprepared husers, hrecord⟩, hreference _ (.inl rfl)⟩,
      hasFileIfAny_of_forall fun fileUUID hart ↦ hreference fileUUID (.inr hart)⟩

theorem accepts_colivingUsers (hcolivingUsers : db'.colivingUsers = db.colivingUsers)
    (hfiles : db'.files = db.files ++ (files.filter (·.typeIn File.NonDigitalContentTypes)
      ++ files.filter (·.typeIn File.DigitalContentTypes)).map (fileColumns.withUUID uuid')) :
    Database.colivingUserTable.Accepts db' (users.map (colivingUserColumns.withUUID uuid')) := by
  constructor
  · show ∀ other ∈ db'.colivingUsers, _
    rw [hcolivingUsers]
    refine colivingUserColumns_keyed.fresh h.colivingUsers.distinct
      hprepared.mirrors.colivingUsers ?_ hexported.usersPerm
    intro other hother hne colivingUser hmem huuid
    have hne : other.cnodeUserUUID ≠ uuid' := hne
    have hkey := hprepared.colivingUsers other hother hne colivingUser hmem huuid
    simpa [Database.colivingUserTable, colivingUserColumns, hne] using hkey
  · exact colivingUserColumns_keyed.distinct h.colivingUsers.distinct hexported.usersPerm
  · intro colivingUser hmem
    obtain ⟨colivingUser', hmem', rfl⟩ := mem_map.mp hmem
    obtain ⟨hmem, huuid, hlo, hhi⟩ := Columns.mem_between.mp (hexported.usersPerm.subset hmem')
    have hrecord := hexported.hasClockRecord h hlo hhi (h.colivingUser_clock hmem huuid) hrecords
    have hreference : ∀ fileUUID, colivingUser'.metadataFileUUID = fileUUID ∨
        colivingUser'.coverArtFileUUID = some fileUUID ∨
        colivingUser'.profilePicFileUUID = some fileUUID → db'.hasFile fileUUID = true := by
      intro fileUUID hrefers
      obtain ⟨file, hfile, hfileuuid, rfl, hclock⟩ :=
        h.colivingUserFiles colivingUser' hmem huuid fileUUID hrefers
      refine hprepared.hasFile hfile hfileuuid (fun hafter ↦ ?_) hfiles
      exact (files_perm hwritten).mem_iff.mpr (hexported.filesPerm.mem_iff.mpr
        (Columns.mem_between.mpr ⟨hfile, hfileuuid, hafter, Int.le_trans hclock hhi⟩))
    simp only [Database.colivingUserTable, and_eq_true]
    exact ⟨⟨⟨⟨saved_hasCNodeUser hprepared husers, hrecord⟩, hreference _ (.inl rfl)⟩,
      hasFileIfAny_of_forall fun fileUUID hart ↦ hreference fileUUID (.inr (.inl hart))⟩,
      hasFileIfAny_of_forall fun fileUUID hpic ↦ hreference fileUUID (.inr (.inr hpic))⟩

omit husers hrecords in
/-- The rows of a range are accepted, once the user is saved. -/
theorem acceptsRows_copiedRows (hlo : lo ≤ n) :
    db.AcceptsRows (copiedRows uuid' records files contents users) uuid' := by
  constructor
  · rw [mirrors_maxClock h hprepared.mirrors hlo]
    intro _
    refine ⟨by omega, ?_⟩
    have hclocks : (copiedRows uuid' records files contents users).clockRecords.map
        ClockRecord.clock = records.map ClockRecord.clock := by
      simp only [copiedRows, map_map]
      rfl
    rw [hclocks]
    exact hexported.consecutive.contiguousFrom
  · exact accepts_clockRecords h hprepared hexported
  · exact accepts_nonDigitalContentFiles h hprepared hexported hwritten rfl rfl rfl
  · exact accepts_digitalContents h hprepared hexported hwritten rfl rfl rfl rfl
  · exact accepts_digitalContentFiles h hprepared hexported hwritten rfl rfl rfl
  · refine accepts_colivingUsers h hprepared hexported hwritten rfl rfl rfl ?_
    rw [map_append, ← append_assoc]
    rfl

end Accepts

end ColivingSpec
