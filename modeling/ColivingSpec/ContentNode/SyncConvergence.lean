import ColivingSpec.ContentNode.SyncFailures
import ColivingSpec.ContentNode.SyncRanges

/-!
# Syncing to the primary's rows

A secondary that has the primary's rows of a wallet up to a clock asks for the rows after it, and
has those of the range when the call ends; repeated calls lead to all rows. This needs files of a
type that the secondary writes: a file of another type is left out, though its clock record is not.
-/

namespace ColivingSpec

open Lib List

/-! ### The runs -/

/-- The export on the primary, followed by the sync on the secondary. -/
def syncFromExport (ctx : SyncContext) (primary : Database) (maxExportClockValueRange : ℕ)
    (wallet : Wallet) (node : Secondary) : Secondary × SyncResult :=
  handleSyncFromPrimary ctx node wallet
    (fun localMaxClockVal ↦
      match (primary.exportRoute maxExportClockValueRange [wallet] (some (localMaxClockVal + 1))
        false).2 with
      | .ok fetched => .cnodeUsers fetched
      | .error _ => .rejected)
    false

/-- The secondary after a number of runs. -/
def syncRuns (ctxs : ℕ → SyncContext) (primary : Database) (maxExportClockValueRange : ℕ)
    (wallet : Wallet) (node : Secondary) : ℕ → Secondary
  | 0 => node
  | k + 1 => (syncFromExport (ctxs k) primary maxExportClockValueRange wallet
      (syncRuns ctxs primary maxExportClockValueRange wallet node k)).1

/-- One run leaves the primary's rows up to the end of the range, and a user whose clock is the
last of its clock records; a number of runs leaves all rows. -/
structure Converges (ctxs : ℕ → SyncContext) (primary : Database) (maxExportClockValueRange : ℕ)
    (wallet : Wallet) (user : CNodeUser) (n : ℕ) (node : Secondary) (clock : ℤ) : Prop where
  synced : Synced primary user wallet
    (syncFromExport (ctxs 0) primary maxExportClockValueRange wallet node).1.db
    (min n (clock + maxExportClockValueRange))
  userClock : ∀ user', (syncFromExport (ctxs 0) primary maxExportClockValueRange wallet
      node).1.db.findCNodeUser wallet = some user' →
    user'.clock = ((syncFromExport (ctxs 0) primary maxExportClockValueRange wallet
      node).1.db.maxClock user'.cnodeUserUUID).getD 0
  repeated : ∃ k, Synced primary user wallet
    (syncRuns ctxs primary maxExportClockValueRange wallet node k).db n

variable {primary : Database} {wallet : Wallet} {user : CNodeUser} {n : ℕ}
variable {ctx : SyncContext} {secondary : Database} {uuid' : UUID} {lo hi : ℤ}
variable {e : FetchedCNodeUser}

/-! ### One run -/

/-- When all files are fetchable none fails. -/
theorem Ready.failedOf_eq_nil (h : Ready ctx) (files : List File) : failedOf ctx files = [] := by
  unfold failedOf failedCIDs
  rw [overSlices_eq, overSlices_eq]
  · simp [h.fetchable]
  · simp
  · simp
  · simp
  · simp

/-- Where a secondary asks from. -/
theorem Synced.localMaxClockVal (h : Synced primary user wallet secondary lo) :
    (secondary.findCNodeUser wallet).elim (-1) CNodeUser.clock = lo := by
  cases h with
  | absent hnone =>
    rw [hnone]
    rfl
  | @present user' clock husers hclock _ =>
    rw [Database.findCNodeUser, ← head?_filter, husers]
    exact hclock

theorem Synced.neg_one_le (h : Synced primary user wallet secondary lo) : -1 ≤ lo := by
  cases h with
  | absent _ => exact Int.le_refl (-1)
  | present _ _ _ => omega

theorem Synced.findCNodeUser_ne_none (h : Synced primary user wallet secondary lo)
    (hlo : 0 ≤ lo) : secondary.findCNodeUser wallet ≠ none := by
  intro hnone
  have hclock := h.localMaxClockVal
  rw [hnone] at hclock
  have hclock : -1 = lo := hclock
  omega

/-- A bundle with rows after the local clock is new data. -/
theorem Exported.checkClocks {uuid : UUID} {records : List ClockRecord} {files : List File}
    {contents : List DigitalContent} {users : List ColivingUser}
    (h : Exported primary wallet uuid lo hi e records files contents users) (hlt : lo < hi)
    (hlo : -1 ≤ lo) :
    checkClocks lo e.clock (records.map ClockRecord.clock) = none := by
  have hhead := h.consecutive.head?
  have hmax := max?_of_mem h.consecutive.mem_iff
  unfold ColivingSpec.checkClocks
  rw [h.clock, if_neg (by omega), if_neg (by omega), if_neg, if_neg]
  · rintro ⟨hclocks, hne⟩
    rw [hmax] at hne
    split at hne
    · exact hne rfl
    · next hnot =>
      rw [if_neg hnot] at hmax
      exact hclocks (max?_eq_none_iff.mp hmax)
  · rintro ⟨hne, hany⟩
    have hzero : max lo 0 = lo := by omega
    rw [hzero] at hhead
    rw [hhead] at hany
    cases hany

section OneRun

variable {uuid : UUID} {db : Database} {records : List ClockRecord} {files : List File}
variable {contents : List DigitalContent} {users : List ColivingUser}

/-- With the rows of the range the secondary has the primary's rows up to its end. -/
theorem Prepared.synced (hprepared : Prepared primary user.cnodeUserUUID wallet db uuid' lo hi)
    (hexported : Exported primary wallet user.cnodeUserUUID lo hi e records files contents users)
    (hwritten : ∀ file ∈ files, Written file) (hle : lo ≤ hi) (hpos : 0 ≤ hi) :
    Synced primary user wallet (db.withRows (copiedRows uuid' records files contents users)) hi := by
  obtain ⟨user', husers, rfl, hclock⟩ := hprepared.users
  obtain ⟨clock, rfl⟩ := Int.eq_ofNat_of_zero_le hpos
  refine .present husers hclock ⟨?_, ?_, ?_, ?_⟩
  · exact hprepared.mirrors.clockRecords.append hle (hexported.recordsPerm.map _)
  · have hfiles := hprepared.mirrors.files.append hle
      (((files_perm hwritten).trans hexported.filesPerm).map
        (fileColumns.withUUID user'.cnodeUserUUID))
    rw [map_append, ← append_assoc] at hfiles
    exact hfiles
  · exact hprepared.mirrors.digitalContents.append hle (hexported.contentsPerm.map _)
  · exact hprepared.mirrors.colivingUsers.append hle (hexported.usersPerm.map _)

/-- The rows of other wallets are those there were. -/
theorem Prepared.apart (hprepared : Prepared primary uuid wallet db uuid' lo hi) :
    Apart primary uuid wallet (db.withRows (copiedRows uuid' records files contents users)) := by
  have hwallet : ∀ {other}, (db.withRows (copiedRows uuid' records files contents users)).ofWallet
      wallet other = false → other ≠ uuid' := by
    rintro other hother rfl
    obtain ⟨user', husers, rfl, -⟩ := hprepared.users
    have hmem : user' ∈ db.cnodeUsers.filter fun user ↦ user.walletPublicKey = wallet := by
      rw [husers]
      exact mem_singleton_self user'
    have hnone := any_eq_false.mp hother user' (mem_of_mem_filter hmem)
    exact hnone (decide_eq_true ⟨of_decide_eq_true (mem_filter.mp hmem).2, rfl⟩)
  constructor
  · intro other hmem hother
    have hne := hwallet hother
    rcases mem_append.mp hmem with hmem | hnew
    · rcases mem_append.mp hmem with hold | hnew
      · exact hprepared.files other hold hne
      · obtain ⟨_, -, rfl⟩ := mem_map.mp hnew
        exact absurd rfl hne
    · obtain ⟨_, -, rfl⟩ := mem_map.mp hnew
      exact absurd rfl hne
  · intro other hmem hother
    have hne := hwallet hother
    rcases mem_append.mp hmem with hold | hnew
    · exact hprepared.digitalContents other hold hne
    · obtain ⟨_, -, rfl⟩ := mem_map.mp hnew
      exact absurd rfl hne
  · intro other hmem hother
    have hne := hwallet hother
    rcases mem_append.mp hmem with hold | hnew
    · exact hprepared.colivingUsers other hold hne
    · obtain ⟨_, -, rfl⟩ := mem_map.mp hnew
      exact absurd rfl hne

end OneRun

/-- The call that a run makes. -/
theorem syncFromExport_eq (h : PrimaryWallet primary wallet user n) (hready : Ready ctx)
    (maxExportClockValueRange : ℕ) (node : Secondary)
    (hlo : (node.db.findCNodeUser wallet).elim (-1) CNodeUser.clock = lo) :
    ∃ e records files contents users,
      syncFromExport ctx primary maxExportClockValueRange wallet node
        = syncFetchedCNodeUsers ctx wallet lo node [e] ∧
      Exported primary wallet user.cnodeUserUUID lo (min n (lo + maxExportClockValueRange)) e
        records files contents users := by
  obtain ⟨e, records, files, contents, users, hexport, hexported⟩ :=
    h.exportRoute_eq maxExportClockValueRange lo
  refine ⟨e, records, files, contents, users, ?_, hexported⟩
  have hbefore : beforeFetch node.db wallet false = (node.db, lo) := by
    rw [beforeFetch, if_neg Bool.false_ne_true, hlo]
  rw [syncFromExport, handleSyncFromPrimary_eq hready.lockAcquired, hbefore, hexport]
  rfl

/-- A run without anything new leaves the secondary as it is. -/
theorem syncFromExport_upToDate (h : PrimaryWallet primary wallet user n) (hready : Ready ctx)
    {node : Secondary} (hsynced : Synced primary user wallet node.db lo)
    (maxExportClockValueRange : ℕ) (hend : min (n : ℤ) (lo + maxExportClockValueRange) = lo) :
    syncFromExport ctx primary maxExportClockValueRange wallet node = (node, .success) := by
  obtain ⟨e, records, files, contents, users, heq, hexported⟩ :=
    syncFromExport_eq h hready maxExportClockValueRange node hsynced.localMaxClockVal
  have hsame : UpToDate wallet lo e :=
    ⟨hexported.walletPublicKey, by rw [hexported.clockRecords]; rfl, hexported.clock.trans hend⟩
  rw [heq, syncFetchedCNodeUsers, hsame.sync]
  rfl

/-- A run from a secondary that has the rows up to `lo`, if the files of the range are written. -/
theorem syncFromExport_synced (h : PrimaryWallet primary wallet user n) (hready : Ready ctx)
    {node : Secondary} (hsynced : Synced primary user wallet node.db lo) (hlo : lo ≤ n)
    (hapart : Apart primary user.cnodeUserUUID wallet node.db)
    (hfresh : node.db.findCNodeUser wallet = none → Fresh node.db ctx.newUUID)
    (maxExportClockValueRange : ℕ)
    (hwritten : Replicable primary user.cnodeUserUUID lo) :
    ∃ node', syncFromExport ctx primary maxExportClockValueRange wallet node = (node', .success) ∧
      Synced primary user wallet node'.db (min n (lo + maxExportClockValueRange)) ∧
      Apart primary user.cnodeUserUUID wallet node'.db ∧
      (node'.db = node.db ∨ node'.db.findCNodeUser wallet ≠ none) := by
  by_cases hend : min (n : ℤ) (lo + maxExportClockValueRange) = lo
  · rw [hend]
    exact ⟨node, syncFromExport_upToDate h hready hsynced maxExportClockValueRange hend, hsynced,
      hapart, .inl rfl⟩
  have hneg := hsynced.neg_one_le
  have hlt : lo < min (n : ℤ) (lo + maxExportClockValueRange) := by omega
  obtain ⟨e, records, files, contents, users, heq, hexported⟩ :=
    syncFromExport_eq h hready maxExportClockValueRange node hsynced.localMaxClockVal
  have hfiles : ∀ file ∈ files, Written file := by
    intro file hfile
    obtain ⟨hmem, huuid, hclock, -⟩ := Columns.mem_between.mp (hexported.filesPerm.subset hfile)
    exact hwritten file hmem huuid hclock
  obtain ⟨db, uuid', huser, hprepared⟩ := hsynced.prepare (e := e) h hapart hfresh
  rw [hexported.clock] at hprepared
  have hnew : NewData wallet lo e records :=
    ⟨hexported.walletPublicKey, hexported.clockRecords, hexported.checkClocks hlt hneg⟩
  have hcommits : Commits ctx node wallet e records db uuid'
      (copiedRows uuid' records files contents users) := by
    refine ⟨huser, ⟨files, contents, users, hexported.files, hexported.digitalContents,
      hexported.colivingUsers, ?_, ?_⟩,
      acceptsRows_copiedRows h hprepared hexported hfiles hlo⟩
    · rw [hready.failedOf_eq_nil]
      exact .inl rfl
    · rw [hready.failedOf_eq_nil]
      exact (rowsOf_eq_copiedRows hfiles).symm
  have himports : Imports ctx wallet lo node e
      { node.resetFailureCount wallet with
        db := db.withRows (copiedRows uuid' records files contents users) } :=
    ⟨records, db, uuid', _, hnew, hcommits, rfl⟩
  have hpos : 0 ≤ min (n : ℤ) (lo + maxExportClockValueRange) := by omega
  have hresult := hprepared.synced hexported hfiles (Int.le_of_lt hlt) hpos
  refine ⟨{ node.resetFailureCount wallet with
      db := db.withRows (copiedRows uuid' records files contents users) }, ?_, hresult,
    hprepared.apart, .inr (hresult.findCNodeUser_ne_none hpos)⟩
  rw [heq, syncFetchedCNodeUsers, himports.sync]
  rfl

/-! ### Repeated runs -/

variable {ctxs : ℕ → SyncContext} {node : Secondary} {maxExportClockValueRange : ℕ}

theorem Replicable.mono {uuid : UUID} (h : Replicable primary uuid lo) (hle : lo ≤ hi) :
    Replicable primary uuid hi :=
  fun file hfile huuid hclock ↦ h file hfile huuid (Int.lt_of_le_of_lt hle hclock)

variable (maxExportClockValueRange) in
/-- Each run adds a range, up to the last clock. -/
theorem syncRuns_synced (h : PrimaryWallet primary wallet user n) (hready : ∀ i, Ready (ctxs i))
    (hsynced : Synced primary user wallet node.db lo) (hlo : lo ≤ n)
    (hapart : Apart primary user.cnodeUserUUID wallet node.db)
    (hfresh : ∀ i, Fresh node.db (ctxs i).newUUID)
    (hwritten : Replicable primary user.cnodeUserUUID lo) (k : ℕ) :
    let node' := syncRuns ctxs primary maxExportClockValueRange wallet node k
    Synced primary user wallet node'.db (min n (lo + k * maxExportClockValueRange)) ∧
      Apart primary user.cnodeUserUUID wallet node'.db ∧
      (node'.db = node.db ∨ node'.db.findCNodeUser wallet ≠ none) := by
  induction k with
  | zero =>
    have hzero : min (n : ℤ) (lo + (0 : ℕ) * maxExportClockValueRange) = lo := by
      omega
    rw [hzero]
    exact ⟨hsynced, hapart, .inl rfl⟩
  | succ k ih =>
    obtain ⟨ihsynced, ihapart, ihsame⟩ := ih
    have hmul : 0 ≤ (k : ℤ) * maxExportClockValueRange :=
      Int.mul_nonneg (Int.natCast_nonneg k) (Int.natCast_nonneg maxExportClockValueRange)
    have hfreshNow : (syncRuns ctxs primary maxExportClockValueRange wallet node k).db.findCNodeUser
        wallet = none → Fresh (syncRuns ctxs primary maxExportClockValueRange wallet node k).db
          (ctxs k).newUUID := by
      intro hnone
      rcases ihsame with hsame | hsome
      · rw [hsame]
        exact hfresh k
      · exact absurd hnone hsome
    obtain ⟨node', heq, hnext, hnextApart, hnextSame⟩ :=
      syncFromExport_synced h (hready k) ihsynced (by omega) ihapart hfreshNow
        maxExportClockValueRange (hwritten.mono (by omega))
    have hclock : min (n : ℤ)
        (min (n : ℤ) (lo + k * maxExportClockValueRange) + maxExportClockValueRange)
          = min (n : ℤ) (lo + (k + 1 : ℕ) * maxExportClockValueRange) := by
      rw [Int.natCast_succ, Int.add_mul, Int.one_mul]
      omega
    rw [hclock] at hnext
    have hrun : syncRuns ctxs primary maxExportClockValueRange wallet node (k + 1) = node' :=
      congrArg Prod.fst heq
    rw [hrun]
    refine ⟨hnext, hnextApart, ?_⟩
    rcases hnextSame with hsame | hsome
    · rw [hsame]
      exact ihsame
    · exact .inr hsome

/-- With ranges that are not empty the runs reach the last clock. -/
theorem le_of_runs (hneg : -1 ≤ lo) (hpos : 0 < maxExportClockValueRange) :
    (n : ℤ) ≤ lo + (n + 1 : ℕ) * maxExportClockValueRange := by
  have hle : n + 1 ≤ (n + 1) * maxExportClockValueRange := Nat.le_mul_of_pos_right _ hpos
  have hle : ((n + 1 : ℕ) : ℤ) ≤ ((n + 1) * maxExportClockValueRange : ℕ) := Int.ofNat_le.mpr hle
  omega

/-- The clock of a user that has the rows up to a clock is that of its last clock record. -/
theorem Synced.maxClock (h : PrimaryWallet primary wallet user n)
    (hsynced : Synced primary user wallet secondary lo) (hlo : lo ≤ n) {user' : CNodeUser}
    (hfind : secondary.findCNodeUser wallet = some user') :
    user'.clock = (secondary.maxClock user'.cnodeUserUUID).getD 0 := by
  have hclock := hsynced.localMaxClockVal
  rw [hfind] at hclock
  have hclock : user'.clock = lo := hclock
  cases hsynced with
  | absent hnone =>
    rw [hnone] at hfind
    cases hfind
  | @present other clock husers hother hmirrors =>
    rw [Database.findCNodeUser, ← head?_filter, husers] at hfind
    cases hfind
    rw [mirrors_maxClock h hmirrors hlo, hclock]
    omega

/-! ### What every run keeps -/

/-- No two rows have a key in common. -/
structure Distinct (db : Database) : Prop where
  files : db.files.Pairwise fun a b ↦ Database.fileTable.clash a b = false
  digitalContents : db.digitalContents.Pairwise fun a b ↦
    Database.digitalContentTable.clash a b = false
  colivingUsers : db.colivingUsers.Pairwise fun a b ↦ Database.colivingUserTable.clash a b = false

/-- The rows of `db'` are those of `db` and new ones, with keys of their own; new files are written
as they are. -/
structure Grows (db db' : Database) : Prop where
  files : ∃ new, db'.files = db.files ++ new ∧ ∀ file ∈ new, Written file
  digitalContents : ∃ new, db'.digitalContents = db.digitalContents ++ new
  colivingUsers : ∃ new, db'.colivingUsers = db.colivingUsers ++ new
  distinct : Distinct db → Distinct db'

namespace Grows

variable {db db' db'' : Database}

theorem refl (db : Database) : Grows db db where
  files := ⟨[], (append_nil _).symm, fun _ h ↦ absurd h not_mem_nil⟩
  digitalContents := ⟨[], (append_nil _).symm⟩
  colivingUsers := ⟨[], (append_nil _).symm⟩
  distinct := id

theorem trans (h : Grows db db') (h' : Grows db' db'') : Grows db db'' := by
  obtain ⟨files, hfiles, hwritten⟩ := h.files
  obtain ⟨files', hfiles', hwritten'⟩ := h'.files
  obtain ⟨contents, hcontents⟩ := h.digitalContents
  obtain ⟨contents', hcontents'⟩ := h'.digitalContents
  obtain ⟨users, husers⟩ := h.colivingUsers
  obtain ⟨users', husers'⟩ := h'.colivingUsers
  constructor
  · refine ⟨files ++ files', by rw [hfiles', hfiles, append_assoc], fun file hfile ↦ ?_⟩
    rcases mem_append.mp hfile with hfile | hfile
    · exact hwritten file hfile
    · exact hwritten' file hfile
  · exact ⟨contents ++ contents', by rw [hcontents', hcontents, append_assoc]⟩
  · exact ⟨users ++ users', by rw [husers', husers, append_assoc]⟩
  · exact fun hdistinct ↦ h'.distinct (h.distinct hdistinct)

/-- Rows of the user table are not looked at. -/
theorem of_eq (hfiles : db'.files = db.files) (hcontents : db'.digitalContents = db.digitalContents)
    (husers : db'.colivingUsers = db.colivingUsers) : Grows db db' where
  files := ⟨[], by rw [hfiles, append_nil], fun _ h ↦ absurd h not_mem_nil⟩
  digitalContents := ⟨[], by rw [hcontents, append_nil]⟩
  colivingUsers := ⟨[], by rw [husers, append_nil]⟩
  distinct h := ⟨hfiles ▸ h.files, hcontents ▸ h.digitalContents, husers ▸ h.colivingUsers⟩

/-- Files of the types that are written are written as they are. -/
theorem written_rowsOf {failed : List CID} {records : List ClockRecord} {files : List File}
    {contents : List DigitalContent} {users : List ColivingUser} :
    ∀ file ∈ (rowsOf uuid' failed records files contents users).nonDigitalContentFiles
      ++ (rowsOf uuid' failed records files contents users).digitalContentFiles, Written file := by
  intro file hfile
  rcases mem_append.mp hfile with hnon | hdigital
  · obtain ⟨file', hfile', rfl⟩ := mem_map.mp hnon
    exact .inr ⟨(mem_filter.mp hfile').2, rfl⟩
  · obtain ⟨file', hfile', rfl⟩ := mem_map.mp hdigital
    exact .inl (mem_filter.mp hfile').2

theorem withRows {rows : WrittenRows} (haccepts : db.AcceptsRows rows uuid')
    (hwritten : ∀ file ∈ rows.nonDigitalContentFiles ++ rows.digitalContentFiles, Written file) :
    Grows db (db.withRows rows) where
  files := ⟨rows.nonDigitalContentFiles ++ rows.digitalContentFiles, append_assoc _ _ _, hwritten⟩
  digitalContents := ⟨rows.digitalContents, rfl⟩
  colivingUsers := ⟨rows.colivingUsers, rfl⟩
  distinct h :=
    ⟨haccepts.digitalContentFiles.pairwise_append
        (haccepts.nonDigitalContentFiles.pairwise_append h.files),
      haccepts.digitalContents.pairwise_append h.digitalContents,
      haccepts.colivingUsers.pairwise_append h.colivingUsers⟩

theorem savesUser (h : SavesUser ctx db wallet e db' uuid') : Grows db db' := by
  cases h with
  | updated _ _ => exact of_eq rfl rfl rfl
  | created _ _ => exact of_eq rfl rfl rfl

theorem fixInconsistentUser (db : Database) (uuid : UUID) :
    Grows db (db.fixInconsistentUser uuid) := by
  unfold Database.fixInconsistentUser
  split
  · exact refl db
  · exact of_eq rfl rfl rfl

theorem imports {node' : Secondary} (h : Imports ctx wallet lo node e node') :
    Grows node.db node'.db := by
  obtain ⟨records, db, uuid, rows, -, hcommits, rfl⟩ := h
  apply (savesUser hcommits.user).trans
  apply withRows hcommits.accepts
  obtain ⟨files, contents, users, -, -, -, -, rfl⟩ := hcommits.bundle
  exact written_rowsOf

/-- A bundle adds rows only. -/
theorem syncFetchedCNodeUser (ctx : SyncContext) (wallet : Wallet) (localMaxClockVal : ℤ)
    (node : Secondary) (e : FetchedCNodeUser) :
    Grows node.db (syncFetchedCNodeUser ctx wallet localMaxClockVal node e).1.db := by
  obtain ⟨-, heq⟩ | ⟨node', himports, heq⟩ | ⟨-, -, node', result, -, heq, ⟨-, hdb⟩ | ⟨-, hdb⟩⟩ :=
    syncFetchedCNodeUser_cases ctx wallet localMaxClockVal node e
  · rw [heq]
    exact refl node.db
  · rw [heq]
    exact imports himports
  · rw [heq]
    rw [hdb]
    exact fixInconsistentUser node.db e.cnodeUserUUID
  · rw [heq]
    rw [hdb]
    exact refl node.db

end Grows

/-- The users with the wallet after the runs: those that were there, and any that a run created. -/
def UsersOf (ctxs : ℕ → SyncContext) (wallet : Wallet) (db db' : Database) : Prop :=
  ∀ user ∈ db'.cnodeUsers, user.walletPublicKey = wallet →
    (∃ i, user.cnodeUserUUID = (ctxs i).newUUID) ∨
      ∃ other ∈ db.cnodeUsers, other.cnodeUserUUID = user.cnodeUserUUID ∧
        other.walletPublicKey = wallet

theorem syncFetchedCNodeUsers_singleton (ctx : SyncContext) (wallet : Wallet)
    (localMaxClockVal : ℤ) (node : Secondary) (e : FetchedCNodeUser) :
    (syncFetchedCNodeUsers ctx wallet localMaxClockVal node [e]).1
      = (syncFetchedCNodeUser ctx wallet localMaxClockVal node e).1 := by
  rw [syncFetchedCNodeUsers]
  split
  · next heq => rw [heq]
  · next heq =>
    rw [heq]
    rfl

/-- What a run keeps, whatever comes of it. -/
theorem syncFromExport_grows (h : PrimaryWallet primary wallet user n) (hready : Ready ctx)
    (maxExportClockValueRange : ℕ) (node : Secondary) :
    let node' := (syncFromExport ctx primary maxExportClockValueRange wallet node).1
    Grows node.db node'.db ∧ KeepsUsers ctx.newUUID wallet node.db node'.db := by
  obtain ⟨lo, hlo⟩ : ∃ lo, (node.db.findCNodeUser wallet).elim (-1) CNodeUser.clock = lo :=
    ⟨_, rfl⟩
  obtain ⟨e, records, files, contents, users, heq, -⟩ :=
    syncFromExport_eq h hready maxExportClockValueRange node hlo
  rw [heq, syncFetchedCNodeUsers_singleton]
  exact ⟨.syncFetchedCNodeUser ctx wallet lo node e,
    (syncFetchedCNodeUser_users ctx wallet lo node e).1⟩

/-- What a number of runs keeps. -/
theorem syncRuns_grows (h : PrimaryWallet primary wallet user n) (hready : ∀ i, Ready (ctxs i))
    (maxExportClockValueRange : ℕ) (node : Secondary) (k : ℕ) :
    let node' := syncRuns ctxs primary maxExportClockValueRange wallet node k
    Grows node.db node'.db ∧ UsersOf ctxs wallet node.db node'.db := by
  induction k with
  | zero => exact ⟨.refl node.db, fun user huser hwallet ↦ .inr ⟨user, huser, rfl, hwallet⟩⟩
  | succ k ih =>
    obtain ⟨ihgrows, ihusers⟩ := ih
    obtain ⟨hgrows, husers⟩ := syncFromExport_grows h (hready k) maxExportClockValueRange
      (syncRuns ctxs primary maxExportClockValueRange wallet node k)
    refine ⟨ihgrows.trans hgrows, fun user' huser' hwallet ↦ ?_⟩
    rcases husers user' huser' with ⟨hnew, -⟩ | ⟨other, hother, huuid, hsame⟩
    · exact .inl ⟨k, hnew⟩
    · rw [← huuid]
      exact ihusers other hother (hsame.trans hwallet)

/-- Runs with empty ranges leave the secondary as it is. -/
theorem syncRuns_zero (h : PrimaryWallet primary wallet user n) (hready : ∀ i, Ready (ctxs i))
    (hsynced : Synced primary user wallet node.db lo) (hlo : lo ≤ n) (k : ℕ) :
    syncRuns ctxs primary 0 wallet node k = node := by
  induction k with
  | zero => rfl
  | succ k ih =>
    have hend : min (n : ℤ) (lo + (0 : ℕ)) = lo := by omega
    show (syncFromExport (ctxs k) primary 0 wallet (syncRuns ctxs primary 0 wallet node k)).1 = node
    rw [ih, syncFromExport_upToDate h (hready k) hsynced 0 hend]

/-! ### What is synced after some runs -/

/-- The user whose rows are the primary's is one that was there, with its rows, or one that a run
created. -/
theorem Synced.local_or_new (hsynced : Synced primary user wallet secondary lo)
    {node' : Secondary} {user' : CNodeUser} (husers : UsersOf ctxs wallet secondary node'.db)
    (huser : user' ∈ node'.db.cnodeUsers) (hwallet : user'.walletPublicKey = wallet) :
    (∃ i, user'.cnodeUserUUID = (ctxs i).newUUID) ∨
      secondary.ofWallet wallet user'.cnodeUserUUID = true ∧
        Mirrors primary user.cnodeUserUUID secondary user'.cnodeUserUUID lo := by
  rcases husers user' huser hwallet with hnew | ⟨other, hother, huuid, hsame⟩
  · exact .inl hnew
  · refine .inr ⟨any_eq_true.mpr ⟨other, hother, decide_eq_true ⟨hsame, huuid⟩⟩, ?_⟩
    cases hsynced with
    | absent hnone =>
      have := find?_eq_none.mp hnone other hother
      exact absurd (decide_eq_true hsame) this
    | @present user'' clock hlocal hclock hmirrors =>
      have hmem : other ∈ secondary.cnodeUsers.filter fun user ↦ user.walletPublicKey = wallet :=
        mem_filter.mpr ⟨hother, decide_eq_true hsame⟩
      rw [hlocal, mem_singleton] at hmem
      rw [← huuid, hmem]
      exact hmirrors

/-- The user that has the rows up to a clock. -/
theorem Synced.exists_user {clock : ℕ} (h : Synced primary user wallet secondary clock) :
    ∃ user' ∈ secondary.cnodeUsers, user'.walletPublicKey = wallet ∧
      Mirrors primary user.cnodeUserUUID secondary user'.cnodeUserUUID clock := by
  generalize hlo : (clock : ℤ) = lo at h
  cases h with
  | absent _ => omega
  | @present user' clock' husers _ hmirrors =>
    have hmem : user' ∈ secondary.cnodeUsers.filter fun user ↦ user.walletPublicKey = wallet := by
      rw [husers]
      exact mem_singleton_self user'
    obtain ⟨huser, hwallet⟩ := mem_filter.mp hmem
    exact ⟨user', huser, of_decide_eq_true hwallet, hmirrors⟩

section Repeated

variable (h : PrimaryWallet primary wallet user n)
variable (hsynced : Synced primary user wallet node.db lo)
variable (hfresh : ∀ i, Fresh node.db (ctxs i).newUUID)
variable {node' : Secondary} {user' : CNodeUser}
variable (hgrows : Grows node.db node'.db) (husers : UsersOf ctxs wallet node.db node'.db)
variable (huser : user' ∈ node'.db.cnodeUsers) (hwallet : user'.walletPublicKey = wallet)
variable (hmirrors : Mirrors primary user.cnodeUserUUID node'.db user'.cnodeUserUUID n)

include h hsynced hfresh hgrows husers huser hwallet hmirrors

/-- Files that are there after the runs were there before, or are written as they are. -/
theorem replicable_of_mirrors : Replicable primary user.cnodeUserUUID lo := by
  intro file hfile huuid hclock
  obtain ⟨hcopy, hcopyUUID⟩ := hmirrors.files.mem_iff.mpr
    ⟨file, hfile, huuid, (h.file_clock hfile huuid).2, rfl⟩
  obtain ⟨new, hfiles, hwritten⟩ := hgrows.files
  rw [hfiles] at hcopy
  rcases mem_append.mp hcopy with hold | hnew
  · rcases hsynced.local_or_new husers huser hwallet with ⟨i, hnew⟩ | ⟨-, hlocal⟩
    · exact absurd hnew ((hfresh i).files _ hold)
    · have hle : fileColumns.clockOf (fileColumns.withUUID user'.cnodeUserUUID file) ≤ lo :=
        hlocal.files.clock_le hold rfl
      have hle : file.clock ≤ lo := hle
      omega
  · exact hwritten (fileColumns.withUUID user'.cnodeUserUUID file) hnew

/-- Other wallets' rows are still there after the runs, so they have no keys of the primary's. -/
theorem apart_of_mirrors (hdistinct : Distinct node.db) :
    Apart primary user.cnodeUserUUID wallet node.db := by
  have hdistinct' := hgrows.distinct hdistinct
  have hne : ∀ {uuid}, node.db.ofWallet wallet uuid = false →
      (∀ i, uuid ≠ (ctxs i).newUUID) → uuid ≠ user'.cnodeUserUUID := by
    rintro uuid hother hold rfl
    rcases hsynced.local_or_new husers huser hwallet with ⟨i, hnew⟩ | ⟨hlocal, -⟩
    · exact hold i hnew
    · rw [hlocal] at hother
      cases hother
  constructor
  · intro other hmem hother file hfile huuid
    obtain ⟨new, hfiles, -⟩ := hgrows.files
    have hin : other ∈ node'.db.files := by
      rw [hfiles]
      exact mem_append_left _ hmem
    have hclash := fileColumns_keyed.apart hdistinct'.files hmirrors.files hin
      (hne hother fun i ↦ (hfresh i).files other hmem) hfile huuid (h.file_clock hfile huuid).2
    have hclash := of_decide_eq_false hclash
    exact fun heq ↦ hclash (.inl heq)
  · intro other hmem hother content hcontent huuid
    obtain ⟨new, hcontents⟩ := hgrows.digitalContents
    have hin : other ∈ node'.db.digitalContents := by
      rw [hcontents]
      exact mem_append_left _ hmem
    have hclash := digitalContentColumns_keyed.apart hdistinct'.digitalContents
      hmirrors.digitalContents hin (hne hother fun i ↦ (hfresh i).digitalContents other hmem)
      hcontent huuid (h.digitalContent_clock hcontent huuid).2
    have hclash := of_decide_eq_false hclash
    exact fun heq ↦ hclash ⟨.inr heq.1, heq.2⟩
  · intro other hmem hother colivingUser hcolivingUser huuid
    obtain ⟨new, hcolivingUsers⟩ := hgrows.colivingUsers
    have hin : other ∈ node'.db.colivingUsers := by
      rw [hcolivingUsers]
      exact mem_append_left _ hmem
    have hclash := colivingUserColumns_keyed.apart hdistinct'.colivingUsers
      hmirrors.colivingUsers hin (hne hother fun i ↦ (hfresh i).colivingUsers other hmem)
      hcolivingUser huuid (h.colivingUser_clock hcolivingUser huuid).2
    have hclash := of_decide_eq_false hclash
    exact fun heq ↦ hclash ⟨.inr heq.1, heq.2⟩

end Repeated

/-- The runs lead to the primary's rows exactly when ranges are not empty, the files that the
secondary lacks are of a type that it writes, and no other wallet has a key of the rows. -/
theorem syncFromExport_converges_iff (ctxs : ℕ → SyncContext) (primary : Database)
    (maxExportClockValueRange : ℕ) (wallet : Wallet) (user : CNodeUser) (n : ℕ) (node : Secondary)
    (lo : ℤ) (h : PrimaryWallet primary wallet user n) (hready : ∀ i, Ready (ctxs i))
    (hsynced : Synced primary user wallet node.db lo) (hlo : lo ≤ n) (hdistinct : Distinct node.db)
    (hfresh : ∀ i, Fresh node.db (ctxs i).newUUID) :
    Converges ctxs primary maxExportClockValueRange wallet user n node lo ↔
      (0 < maxExportClockValueRange ∨ lo = n) ∧ Replicable primary user.cnodeUserUUID lo ∧
        Apart primary user.cnodeUserUUID wallet node.db := by
  constructor
  · intro hconverges
    obtain ⟨k, hall⟩ := hconverges.repeated
    obtain ⟨hgrows, husers⟩ := syncRuns_grows h hready maxExportClockValueRange node k
    obtain ⟨user', huser, hwallet, hmirrors⟩ := hall.exists_user
    refine ⟨?_, replicable_of_mirrors h hsynced hfresh hgrows husers huser hwallet hmirrors,
      apart_of_mirrors h hsynced hfresh hgrows husers huser hwallet hmirrors hdistinct⟩
    rcases Nat.eq_zero_or_pos maxExportClockValueRange with rfl | hpos
    · rw [syncRuns_zero h hready hsynced hlo] at hall
      exact .inr (hsynced.localMaxClockVal.symm.trans hall.localMaxClockVal)
    · exact .inl hpos
  · rintro ⟨hrange, hwritten, hapart⟩
    have hruns := syncRuns_synced maxExportClockValueRange h hready hsynced hlo hapart hfresh
      hwritten
    have hone : Synced primary user wallet
        (syncFromExport (ctxs 0) primary maxExportClockValueRange wallet node).1.db
        (min n (lo + maxExportClockValueRange)) := by
      have := (hruns 1).1
      rwa [Int.natCast_one, Int.one_mul] at this
    refine ⟨hone, fun user' hfind ↦ hone.maxClock h (by omega) hfind, ?_⟩
    rcases hrange with hpos | rfl
    · refine ⟨n + 1, ?_⟩
      have hreach := le_of_runs (n := n) hsynced.neg_one_le hpos
      have hlast := (hruns (n + 1)).1
      rwa [Int.min_eq_left hreach] at hlast
    · exact ⟨0, hsynced⟩

/-! ### A wallet with one file -/

/-- The file is of no known type, as files are that had no use when types were introduced. -/
def orphanedFile : Database :=
  { oneFile with files := oneFile.files.map fun file ↦ { file with type := some (.other "null") } }

/-- A secondary without rows. -/
def noRows : Secondary := ⟨⟨[], [], [], [], [], [], []⟩, fun _ ↦ none⟩

/-- The user of the wallet. -/
def oneFileUser : CNodeUser := ⟨"u", "0xa", none, 7, 1, 100, 100⟩

theorem noRows_synced (primary : Database) :
    Synced primary oneFileUser "0xa" noRows.db (-1) :=
  .absent rfl

theorem noRows_distinct : Distinct noRows.db := by
  constructor
  · exact List.Pairwise.nil
  · exact List.Pairwise.nil
  · exact List.Pairwise.nil

theorem noRows_fresh (uuid : UUID) : Fresh noRows.db uuid := by
  constructor
  all_goals
    intro row hrow
    cases hrow

theorem allFetched_ready : Ready allFetched := ⟨rfl, fun _ ↦ rfl⟩

/-- One file with its clock record is a wallet of a primary, whatever type the file has. -/
theorem oneFile_primaryWallet (type : Option FileType) :
    PrimaryWallet { oneFile with files := oneFile.files.map fun file ↦ { file with type := type } }
      "0xa" oneFileUser 1 where
  users := by simp [oneFile, oneFileUser]
  clock := rfl
  clocks clock := by
    simp only [oneFile, oneFileUser, mem_singleton]
    constructor
    · rintro ⟨record, rfl, -, rfl⟩
      decide
    · intro hclock
      refine ⟨_, rfl, rfl, ?_⟩
      show (1 : ℤ) = clock
      omega
  clockRecords := by
    refine ⟨pairwise_singleton _ _, fun record hrecord ↦ ?_⟩
    obtain rfl := mem_singleton.mp hrecord
    rfl
  files := by
    refine ⟨pairwise_singleton _ _, fun file hfile ↦ ?_⟩
    obtain rfl := mem_singleton.mp hfile
    rfl
  digitalContents := ⟨List.Pairwise.nil, fun _ h ↦ nomatch h⟩
  colivingUsers := ⟨List.Pairwise.nil, fun _ h ↦ nomatch h⟩
  digitalContentFiles _ h := nomatch h
  colivingUserFiles _ h := nomatch h

/-- The secondary writes the clock record of the file, but not the file. -/
theorem orphanedFile_not_synced :
    PrimaryWallet orphanedFile "0xa" oneFileUser 1 ∧ Ready allFetched ∧
      Synced orphanedFile oneFileUser "0xa" noRows.db (-1) ∧ Distinct noRows.db ∧
      Fresh noRows.db allFetched.newUUID ∧
      ¬ Converges (fun _ ↦ allFetched) orphanedFile 10 "0xa" oneFileUser 1 noRows (-1) := by
  refine ⟨oneFile_primaryWallet _, allFetched_ready, noRows_synced _, noRows_distinct,
    noRows_fresh _, fun hconverges ↦ ?_⟩
  have hfiles : (syncFromExport allFetched orphanedFile 10 "0xa" noRows).1.db.files = [] := by
    decide +kernel
  have hsynced : Synced orphanedFile oneFileUser "0xa" _ (1 : ℕ) := hconverges.synced
  obtain ⟨user', -, -, hmirrors⟩ := hsynced.exists_user
  have hcopy := hmirrors.files.mem_iff.mpr
    ⟨_, List.mem_singleton_self _, rfl, by decide, rfl⟩
  rw [hfiles] at hcopy
  exact nomatch hcopy.1

/-- A metadata file is synced. -/
theorem metadataFile_synced :
    Converges (fun _ ↦ allFetched) oneFile 10 "0xa" oneFileUser 1 noRows (-1) := by
  apply (syncFromExport_converges_iff (fun _ ↦ allFetched) oneFile 10 "0xa" oneFileUser 1 noRows
    (-1) (oneFile_primaryWallet (some .metadata)) (fun _ ↦ allFetched_ready) (noRows_synced _)
    (by decide) noRows_distinct (fun _ ↦ noRows_fresh _)).mpr
  refine ⟨.inl (by decide), ?_, ?_⟩
  · intro file hfile _ _
    obtain rfl := List.mem_singleton.mp hfile
    exact .inr ⟨by decide, rfl⟩
  · constructor
    all_goals
      intro row hrow
      cases hrow

end ColivingSpec
