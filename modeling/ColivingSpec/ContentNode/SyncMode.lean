import ColivingSpec.ContentNode.SyncRequests
import Mathlib.Data.List.Basic

/-!
# The sync mode of a secondary

A node tells a user's clock and a hash over the user's files in clock order. The primary compares
them with its own, asks its database for the hash of its files up to the secondary's clock where
it is ahead, and picks the mode of the sync. The module puts the histories behind the hashes and
says which mode is right for them.
-/

namespace ColivingSpec

open Option

namespace SyncRequests

/-- What a node holds of a user: the clock, -1 without a row in `CNodeUsers`, and the rows of
`Files` in clock order, of which no two have one clock. Multihashes are in base 58. -/
structure History where
  clock : ℤ
  files : List File
  ordered : files.Pairwise (·.clock < ·.clock)
  unrecorded : clock = -1 → files = []
  plain : ∀ file ∈ files, ',' ∉ file.multihash.toList

/-- `string_agg("multihash", ',' order by "clock" asc)`, null without rows. -/
def string_agg (files : List File) : Option String :=
  match files.mergeSort fun first second ↦ decide (first.clock ≤ second.clock) with
  | [] => none
  | first :: rest => some (",".intercalate ((first :: rest).map (·.multihash)))

/-- A bound that is given and not 0, which a test of the bound takes for none. -/
def truthy (bound : Option ℤ) : Option ℤ := bound.filter (· ≠ 0)

variable (md5 : String → String)

/-- `fetchFilesHashFromDB` over the rows of the user: `dbManager.js:215–261`. -/
def fetchFilesHashFromDB (files : List File) (clockMin clockMax : Option ℤ) : Option String :=
  let aboveMin (file : File) : Bool := ((truthy clockMin).map (decide <| · ≤ file.clock)).getD true
  let belowMax (file : File) : Bool := ((truthy clockMax).map (decide <| file.clock < ·)).getD true
  (string_agg (files.filter fun file ↦ aboveMin file && belowMax file)).map md5

/-- What the node says about the user: `users.js:270–350`. -/
def History.userInfo (history : History) : UserInfo :=
  ⟨some history.clock, some (fetchFilesHashFromDB md5 history.files none none)⟩

/-- The mode for a primary and a secondary; the primary's database answers from its history. -/
def syncMode (primary secondary : History) : Except String SyncMode :=
  computeSyncModeForUserAndReplica (primary.userInfo md5) (secondary.userInfo md5)
    (.ok (fetchFilesHashFromDB md5 primary.files (some 0) (some (secondary.clock + 1))))

/-! ### Hashes and files -/

/-- The files of a history, as their multihashes in clock order. -/
def History.sequence (history : History) : List CID := history.files.map (·.multihash)

/-- The files up to a clock. -/
def History.upTo (history : History) (clock : ℤ) : List CID :=
  (history.files.filter fun file ↦ decide (file.clock ≤ clock)).map (·.multihash)

/-- The hash of a list of multihashes. -/
def hashOf (multihashes : List CID) : Option String :=
  if multihashes = [] then none else some (md5 (",".intercalate multihashes))

theorem string_agg_of_ordered {files : List File} (h : files.Pairwise (·.clock < ·.clock))
    (md5 : String → String) :
    (string_agg files).map md5 = hashOf md5 (files.map (·.multihash)) := by
  have hsorted : files.mergeSort (fun first second ↦ decide (first.clock ≤ second.clock)) =
      files := by
    apply List.mergeSort_of_pairwise
    exact h.imp fun hlt ↦ decide_eq_true (Int.le_of_lt hlt)
  unfold string_agg hashOf
  rw [hsorted]
  cases files with
  | nil => rfl
  | cons first rest => rfl

/-- The hash a node tells is over all files of the history. -/
theorem History.userInfo_eq (history : History) :
    history.userInfo md5 = ⟨some history.clock, some (hashOf md5 history.sequence)⟩ := by
  have hall : history.files.filter (fun _ ↦ true) = history.files :=
    List.filter_eq_self.mpr fun _ _ ↦ rfl
  unfold userInfo fetchFilesHashFromDB sequence
  simp only [truthy, filter_none, map_none, getD_none, Bool.and_self, hall]
  rw [string_agg_of_ordered history.ordered]

/-- The hash of the range is over the files up to the secondary's clock; a clock of -1 is no
bound. -/
theorem fetchFilesHashFromDB_upTo (history : History) {clock : ℤ} (hclock : clock ≠ -1) :
    fetchFilesHashFromDB md5 history.files (some 0) (some (clock + 1)) =
      hashOf md5 (history.upTo clock) := by
  have hbound : clock + 1 ≠ 0 := by omega
  have hmin : truthy (some 0) = none := rfl
  have hmax : truthy (some (clock + 1)) = some (clock + 1) := by
    rw [truthy, filter_some, if_pos (decide_eq_true hbound)]
  unfold fetchFilesHashFromDB History.upTo
  simp only [hmin, hmax, map_none, getD_none, map_some, getD_some,
    Bool.true_and, Int.lt_add_one_iff]
  exact string_agg_of_ordered (history.ordered.filter _) md5

theorem intercalate_injective {first second : List CID} (hfirst : ∀ cid ∈ first, ',' ∉ cid.toList)
    (hsecond : ∀ cid ∈ second, ',' ∉ cid.toList) (hne : first ≠ []) (hne' : second ≠ [])
    (h : ",".intercalate first = ",".intercalate second) : first = second := by
  have hsplit : ∀ cids : List CID, (∀ cid ∈ cids, ',' ∉ cid.toList) → cids ≠ [] →
      List.splitOn ',' (",".intercalate cids).toList = cids.map String.toList := by
    intro cids hplain hcids
    rw [String.toList_intercalate]
    apply List.splitOn_intercalate
    · intro cid hcid
      obtain ⟨text, htext, rfl⟩ := List.mem_map.mp hcid
      exact hplain text htext
    · intro hnil
      exact hcids (List.map_eq_nil_iff.mp hnil)
  have hlists : first.map String.toList = second.map String.toList := by
    rw [← hsplit first hfirst hne, ← hsplit second hsecond hne', h]
  exact List.map_injective_iff.mpr (fun _ _ ↦ String.toList_inj.mp) hlists

/-- Equal hashes are of equal files. -/
theorem hashOf_injective {md5 : String → String} (hmd5 : Function.Injective md5)
    {first second : List CID} (hfirst : ∀ cid ∈ first, ',' ∉ cid.toList)
    (hsecond : ∀ cid ∈ second, ',' ∉ cid.toList) :
    hashOf md5 first = hashOf md5 second ↔ first = second := by
  refine ⟨?_, fun h ↦ congrArg (hashOf md5) h⟩
  intro h
  unfold hashOf at h
  split at h
  · next hnil =>
    split at h
    · next hnil' => rw [hnil, hnil']
    · cases h
  · next hne =>
    split at h
    · cases h
    · next hne' =>
      exact intercalate_injective hfirst hsecond hne hne' (hmd5 (some.inj h))

theorem History.plain_sequence (history : History) :
    ∀ cid ∈ history.sequence, ',' ∉ cid.toList := by
  intro cid hcid
  obtain ⟨file, hfile, rfl⟩ := List.mem_map.mp hcid
  exact history.plain file hfile

theorem History.plain_upTo (history : History) (clock : ℤ) :
    ∀ cid ∈ history.upTo clock, ',' ∉ cid.toList := by
  intro cid hcid
  obtain ⟨file, hfile, rfl⟩ := List.mem_map.mp hcid
  exact history.plain file (List.mem_filter.mp hfile).1

/-! ### The right mode -/

/-- The mode that is right for two histories: none where clocks and hashes are equal, forward only
where the secondary's files are those of the primary up to its clock, a merge everywhere else. -/
structure RightMode (md5 : String → String) (primary secondary : History) (mode : SyncMode) :
    Prop where
  none : mode = .None ↔
    primary.clock = secondary.clock ∧
      (primary.userInfo md5).filesHash = (secondary.userInfo md5).filesHash
  forward : mode = .SyncSecondaryFromPrimary →
    primary.clock > secondary.clock ∧ secondary.sequence = primary.upTo secondary.clock
  merge : ¬ (primary.clock = secondary.clock ∧
      (primary.userInfo md5).filesHash = (secondary.userInfo md5).filesHash) →
    ¬ (primary.clock > secondary.clock ∧ secondary.sequence = primary.upTo secondary.clock) →
    mode = .MergePrimaryAndSecondary

/-- The mode by the histories alone. -/
theorem syncMode_eq {md5 : String → String} (hmd5 : Function.Injective md5)
    (primary secondary : History) :
    syncMode md5 primary secondary = .ok
      (if primary.clock = secondary.clock ∧ primary.sequence = secondary.sequence then .None
      else if primary.clock > secondary.clock ∧
          (secondary.sequence = [] ∨ secondary.sequence = primary.upTo secondary.clock) then
        .SyncSecondaryFromPrimary
      else .MergePrimaryAndSecondary) := by
  have hhash := hashOf_injective hmd5 primary.plain_sequence secondary.plain_sequence
  have hnull : hashOf md5 secondary.sequence = none ↔ secondary.sequence = [] := by
    unfold hashOf
    split
    · next hnil => simp [hnil]
    · next hne => simp [hne]
  unfold syncMode computeSyncModeForUserAndReplica
  rw [primary.userInfo_eq, secondary.userInfo_eq]
  simp only [ne_eq, hhash, hnull]
  by_cases heq : primary.clock = secondary.clock
  · by_cases hfiles : primary.sequence = secondary.sequence
    · simp [heq, hfiles]
    · simp [heq, hfiles]
  · by_cases hlt : primary.clock < secondary.clock
    · have hle : ¬ secondary.clock < primary.clock := by omega
      simp [heq, hlt, hle]
    · have hgt : primary.clock > secondary.clock := by omega
      by_cases hnil : secondary.sequence = []
      · simp [heq, hlt, hgt, hnil]
      · have hrecorded : secondary.clock ≠ -1 := by
          intro hclock
          exact hnil (List.map_eq_nil_iff.mpr (secondary.unrecorded hclock))
        have hrange := hashOf_injective hmd5 (primary.plain_upTo secondary.clock)
          secondary.plain_sequence
        simp only [fetchFilesHashFromDB_upTo md5 primary hrecorded, hrange]
        simp only [heq, hlt, hgt, hnil, false_and, and_false, true_and, false_or, if_false, if_true,
          eq_comm (a := primary.upTo secondary.clock)]
        split <;> rfl

/-- **The sync mode** is right exactly where the primary is not ahead of a secondary without files
while it has files itself up to the secondary's clock. -/
theorem syncMode_right_iff {md5 : String → String} (hmd5 : Function.Injective md5)
    (primary secondary : History) :
    (∃ mode, syncMode md5 primary secondary = .ok mode ∧
        RightMode md5 primary secondary mode) ↔
      ¬ (primary.clock > secondary.clock ∧ secondary.files = [] ∧
        ∃ file ∈ primary.files, file.clock ≤ secondary.clock) := by
  have hhash : (primary.userInfo md5).filesHash = (secondary.userInfo md5).filesHash ↔
      primary.sequence = secondary.sequence := by
    rw [primary.userInfo_eq, secondary.userInfo_eq, Option.some.injEq]
    exact hashOf_injective hmd5 primary.plain_sequence secondary.plain_sequence
  have hempty : secondary.sequence = [] ↔ secondary.files = [] := List.map_eq_nil_iff
  have hnone : primary.upTo secondary.clock = [] ↔
      ¬ ∃ file ∈ primary.files, file.clock ≤ secondary.clock := by
    unfold History.upTo
    simp
  rw [← hempty, ← not_not (a := ∃ file ∈ primary.files, _), ← hnone, syncMode_eq hmd5]
  constructor
  · rintro ⟨mode, hmode, hright⟩ ⟨hgt, hnil, hfiles⟩
    have hsync : mode = .SyncSecondaryFromPrimary := by
      have hne : primary.clock ≠ secondary.clock := by omega
      rw [if_neg fun h ↦ hne h.1, if_pos ⟨hgt, .inl hnil⟩] at hmode
      exact (Except.ok.inj hmode).symm
    exact hfiles ((hright.forward hsync).2.symm.trans hnil)
  · intro hcovered
    refine ⟨_, rfl, ?_⟩
    by_cases heq : primary.clock = secondary.clock ∧ primary.sequence = secondary.sequence
    · rw [if_pos heq]
      refine ⟨?_, nofun, ?_⟩
      · rw [hhash]
        simp [heq]
      · rw [hhash]
        intro hne
        exact absurd heq hne
    · rw [if_neg heq]
      split
      · next hforward =>
        have hseq : secondary.sequence = primary.upTo secondary.clock := by
          rcases hforward.2 with hnil | hseq
          · rw [hnil]
            by_contra hne
            exact hcovered ⟨hforward.1, hnil, Ne.symm hne⟩
          · exact hseq
        refine ⟨?_, fun _ ↦ ⟨hforward.1, hseq⟩, ?_⟩
        · rw [hhash]
          simp [heq]
        · intro _ hnot
          exact absurd ⟨hforward.1, hseq⟩ hnot
      · refine ⟨?_, nofun, fun _ _ ↦ rfl⟩
        rw [hhash]
        simp [heq]

/-- A file of a user at a clock. -/
def fileAt (clock : ℤ) (multihash : CID) : File :=
  ⟨"f", "u", none, multihash, none, none, none, "/file_storage/f", none, clock, false⟩

/-- A primary ahead of a secondary that has the first of its two files. -/
theorem syncMode_right_ahead :
    let primary : History := ⟨2, [fileAt 1 "Qm1", fileAt 2 "Qm2"], by decide, by decide, by decide⟩
    let secondary : History := ⟨1, [fileAt 1 "Qm1"], by decide, by decide, by decide⟩
    ∃ mode, syncMode id primary secondary = .ok mode ∧ RightMode id primary secondary mode :=
  (syncMode_right_iff Function.injective_id _ _).mpr (by decide)

/-- A secondary that holds a record but no file, where the primary holds a file. -/
theorem syncMode_forwards_diverged :
    ¬ ∀ md5 : String → String, Function.Injective md5 → ∀ primary secondary : History,
      ∃ mode, syncMode md5 primary secondary = .ok mode ∧
        RightMode md5 primary secondary mode := by
  intro hright
  let primary : History := ⟨2, [fileAt 1 "Qm1"], by decide, by decide, by decide⟩
  let secondary : History := ⟨1, [], by decide, by decide, by decide⟩
  obtain ⟨mode, hmode, hmodes⟩ := hright id Function.injective_id primary secondary
  have hsync : syncMode id primary secondary = .ok .SyncSecondaryFromPrimary := by
    rw [syncMode_eq Function.injective_id]
    rfl
  rw [hsync] at hmode
  have hforward := (hmodes.forward (Except.ok.inj hmode).symm).2
  revert hforward
  decide

end SyncRequests

end ColivingSpec
