import ColivingSpec.Identity.SolanaRelay

/-!
# What the Solana relay lets through

The filter and the programs read the same instruction when the data is the JSON form of a buffer and
its first number is a key of the program's table. Any other data passes unchecked.
-/

namespace ColivingSpec

open Lib List

namespace SolanaRelay

variable {κ : Type} {config : Config}

/-- A table of account indices and the account that is expected there. -/
structure Rule where
  enumMap : List ℤ
  expectedAccount : String

/-- The rule for an instruction, by its program. -/
def Header.rule (config : Config) (h : Header) : Option Rule :=
  if h.programId = some config.solanaRewardsManagerProgramId then
    some ⟨rewardManagerBaseAccountIndices, config.solanaRewardsManager⟩
  else if h.programId = some config.solanaClaimableTokenProgramAddress then
    some ⟨claimableTokenAuthorityIndices, config.claimableTokenAuthority⟩
  else none

/-- Some keys let the instruction pass: its program is allowed, and its table does not forbid it. -/
def Header.Acceptable (config : Config) (h : Header) : Prop :=
  isRelayAllowedProgram config h = true ∧
    ∀ rule, h.rule config = some rule → getAccountIndex h rule.enumMap ≠ some (-1)

/-- The filter reads what is relayed: if the data of an instruction with a rule becomes bytes, the
first number that the filter reads is a key of the table. -/
def Header.ReadAsRelayed (config : Config) (h : Header) : Prop :=
  ∀ rule data, h.rule config = some rule → h.data = some data → Succeeds (bufferFrom data) →
    ∃ n < rule.enumMap.length, getInstructionEnum h = some (.finite n)

/-- Where a table has an account; a negative entry is none. -/
def accountOf (enumMap : List ℤ) (byte : ℕ) : Option ℕ :=
  (enumMap[byte]?.filter fun index ↦ 0 ≤ index).map Int.toNat

/-! ### The tables and the instructions of the programs -/

theorem rewardManager_accountOf (byte : ℕ) :
    (RewardManagerInstruction.ofByte byte).bind (·.baseAccount) =
      accountOf rewardManagerBaseAccountIndices byte := by
  match byte with
  | 0 | 1 | 2 | 3 | 4 | 5 | 6 | 7 => rfl
  | _ + 8 => rfl

theorem claimableToken_accountOf (byte : ℕ) :
    (ClaimableTokenInstruction.ofByte byte).map (·.authority) =
      accountOf claimableTokenAuthorityIndices byte := by
  match byte with
  | 0 | 1 => rfl
  | _ + 2 => rfl

variable {publicKeys : PublicKeys κ config} {instruction : TransactionInstruction κ} {h : Header}
  {rule : Rule} {index : ℤ} {instr : Instruction}

/-- The account that the rule of an instruction asks for is the one that the program uses. -/
theorem hasAccount_of_rule
    (hprogram : ∀ id, h.programId = some id → publicKeys.publicKey id = .ok instruction.programId)
    (hallowed : isRelayAllowedProgram config h = true)
    (hrule : ∀ rule, h.rule config = some rule → HasAccount (accountOf rule.enumMap)
      (publicKeys.publicKey rule.expectedAccount) instruction) :
    Judged publicKeys instruction := by
  obtain ⟨id, hid⟩ : ∃ id, h.programId = some id := by
    cases hid : h.programId with
    | none => simp [isRelayAllowedProgram, hid] at hallowed
    | some id => exact ⟨id, rfl⟩
  have hmem : id ∈ config.allowedProgramIds := by
    simpa [isRelayAllowedProgram, hid] using hallowed
  constructor
  · exact ⟨id, hmem, hprogram id hid⟩
  · intro hkey
    cases publicKeys.injective hkey (hprogram id hid)
    simp only [rewardManager_accountOf]
    exact hrule ⟨_, _⟩ (if_pos hid)
  · intro hkey
    cases publicKeys.injective hkey (hprogram id hid)
    simp only [claimableToken_accountOf]
    have hother : h.programId ≠ some config.solanaRewardsManagerProgramId := by
      rw [hid]
      exact fun heq ↦ config.distinct (Option.some.inj heq).symm
    exact hrule ⟨_, _⟩ ((if_neg hother).trans (if_pos hid))

/-- A judged instruction has the account that the rule asks for. -/
theorem Judged.hasAccount (hjudged : Judged publicKeys instruction)
    (hprogram : ∀ id, h.programId = some id → publicKeys.publicKey id = .ok instruction.programId)
    (hrule : h.rule config = some rule) :
    HasAccount (accountOf rule.enumMap) (publicKeys.publicKey rule.expectedAccount)
      instruction := by
  unfold Header.rule at hrule
  split at hrule
  · next hid =>
    cases hrule
    have hhas := hjudged.rewardManager (hprogram _ hid)
    simpa only [rewardManager_accountOf] using hhas
  · split at hrule
    · next hid =>
      cases hrule
      have hhas := hjudged.claimableToken (hprogram _ hid)
      simpa only [claimableToken_accountOf] using hhas
    · cases hrule

/-! ### The filter -/

theorem isRelayAllowedInstruction_ne_false_iff (instruction : Instruction) :
    isRelayAllowedInstruction config instruction ≠ some false ↔
      isRelayAllowedProgram config instruction.toHeader = true ∧
        ∀ rule, instruction.rule config = some rule →
          checkAccountKey instruction (getAccountIndex instruction.toHeader rule.enumMap)
            rule.expectedAccount = true := by
  unfold isRelayAllowedInstruction Header.rule
  split
  · next hid =>
    have hallowed : isRelayAllowedProgram config instruction.toHeader = true := by
      simp [isRelayAllowedProgram, hid, Config.allowedProgramIds]
    simp [hallowed]
  · split
    · next hid =>
      have hallowed : isRelayAllowedProgram config instruction.toHeader = true := by
        simp [isRelayAllowedProgram, hid, Config.allowedProgramIds]
      simp [hallowed]
    · cases isRelayAllowedProgram config instruction.toHeader <;> simp

theorem areRelayAllowedInstructions_iff (instructions : List Instruction) :
    areRelayAllowedInstructions config instructions = true ↔
      ∀ instruction ∈ instructions, isRelayAllowedInstruction config instruction ≠ some false := by
  simp [areRelayAllowedInstructions]

/-- A table gives an index just for a number that is one of its keys. -/
theorem getAccountIndex_eq_some_iff {enumMap : List ℤ} :
    getAccountIndex h enumMap = some index ↔
      ∃ n : ℕ, getInstructionEnum h = some (.finite n) ∧ enumMap[n]? = some index := by
  unfold getAccountIndex
  constructor
  · intro hindex
    split at hindex
    · next value hvalue =>
      split at hindex
      · next hrange =>
        split at hindex
        · next hden =>
          refine ⟨value.num.toNat, ?_, hindex⟩
          have hnum : ((value.num.toNat : ℤ) : ℚ) = value := by
            rw [Int.toNat_of_nonneg (Rat.num_nonneg.mpr hrange.1)]
            exact Rat.ext rfl hden.symm
          rw [hvalue]
          exact congrArg (some ∘ JsonNumber.finite) hnum.symm
        · cases hindex
      · cases hindex
    · cases hindex
  · rintro ⟨n, hn, hindex⟩
    have hlt : n < enumMap.length := (List.getElem?_eq_some_iff.mp hindex).1
    rw [hn]
    dsimp only
    rw [if_pos, if_pos]
    · exact hindex
    · exact Rat.den_natCast n
    · exact ⟨Rat.natCast_nonneg, by exact_mod_cast hlt⟩

/-- An account that is checked is there. -/
theorem checkAccountKey_some {instruction : Instruction} {expected : String}
    (h : checkAccountKey instruction (some index) expected = true) :
    0 ≤ index ∧ ∃ keys key, instruction.keys = some keys ∧ keys[index.toNat]? = some key ∧
      key.pubkey = some expected := by
  unfold checkAccountKey at h
  cases hkeys : instruction.keys with
  | none => simp [hkeys] at h
  | some keys =>
    simp only [hkeys] at h
    split at h
    · next hrange =>
      have hkey := eq_of_beq h
      rw [Option.bind_eq_some_iff] at hkey
      obtain ⟨key, hget, hpubkey⟩ := hkey
      exact ⟨hrange.1, keys, key, rfl, hget, hpubkey⟩
    · cases h

/-- A list of non-negative keys starts with a byte. -/
theorem toByte_natCast {n : ℕ} (h : n < 256) : JsonNumber.toByte (.finite n) = n := by
  show (((n : ℤ).tdiv 1) % 256).toNat = n
  rw [Int.tdiv_one]
  omega

/-- The first byte of data that the filter reads a key from. -/
theorem head_bufferFrom {data : InstructionData} {bytes : List ℕ} {n : ℕ}
    (hdata : h.data = some data) (hbytes : bufferFrom data = .ok bytes)
    (hread : getInstructionEnum h = some (.finite n)) (hn : n < 256) : bytes.head? = some n := by
  unfold getInstructionEnum at hread
  rw [hdata] at hread
  cases data with
  | array data => cases hread
  | object type data =>
    cases data with
    | nil => cases hread
    | cons first rest =>
      cases hread
      rw [bufferFrom] at hbytes
      split at hbytes
      · cases hbytes
        rw [map_cons, head?_cons, toByte_natCast hn]
      · cases hbytes

/-- The tables have no more keys than there are bytes. -/
theorem Header.length_enumMap_lt (hrule : h.rule config = some rule) :
    rule.enumMap.length < 256 := by
  unfold Header.rule at hrule
  split at hrule
  · cases hrule
    show rewardManagerBaseAccountIndices.length < 256
    decide
  · split at hrule
    · cases hrule
      show claimableTokenAuthorityIndices.length < 256
      decide
    · cases hrule

/-! ### What is rebuilt -/

variable {publicKeys : PublicKeys κ config}

@[simp] theorem field_eq_ok {α : Type} {value : Option α} {a : α} :
    field value = .ok a ↔ value = some a := by
  cases value <;> simp [field]

/-- What a rebuilt instruction has of the one of the request. -/
theorem rebuild_eq_ok (h : rebuild publicKeys instr = .ok instruction) :
    ∃ keys id data, instr.keys = some keys ∧ instr.programId = some id ∧ instr.data = some data ∧
      keys.mapM (rebuildKey publicKeys) = .ok instruction.keys ∧
      publicKeys.publicKey id = .ok instruction.programId ∧
      bufferFrom data = .ok instruction.data := by
  simp only [rebuild, bind_eq_ok, field_eq_ok] at h
  obtain ⟨keys, hkeys, metas, hmetas, id, hid, programId, hprogramId, data, hdata, bytes, hbytes,
    heq⟩ := h
  cases heq
  exact ⟨keys, id, data, hkeys, hid, hdata, hmetas, hprogramId, hbytes⟩

/-- A rebuilt key has its public key. -/
theorem rebuildKey_eq_ok {key : Key} {account : AccountMeta κ} {pubkey : String}
    (h : rebuildKey publicKeys key = .ok account) (hkey : key.pubkey = some pubkey) :
    publicKeys.publicKey pubkey = .ok account.pubkey := by
  simp only [rebuildKey, bind_eq_ok, field_eq_ok] at h
  obtain ⟨text, htext, k, hk, heq⟩ := h
  cases heq
  rw [hkey] at htext
  cases htext
  exact hk

/-- An instruction that passes and is read as it is relayed is judged. -/
theorem judged_of_readAsRelayed (hpasses : isRelayAllowedInstruction config instr ≠ some false)
    (hread : instr.ReadAsRelayed config) (h : rebuild publicKeys instr = .ok instruction) :
    Judged publicKeys instruction := by
  obtain ⟨keys, id, data, hkeys, hid, hdata, hmetas, hprogramId, hbytes⟩ := rebuild_eq_ok h
  obtain ⟨hallowed, hcheck⟩ := (isRelayAllowedInstruction_ne_false_iff instr).mp hpasses
  apply hasAccount_of_rule (h := instr.toHeader) ?_ hallowed
  · intro rule hrule
    obtain ⟨n, hn, henum⟩ := hread rule data hrule hdata ⟨_, hbytes⟩
    have hentry : rule.enumMap[n]? = some rule.enumMap[n] := getElem?_eq_getElem hn
    have hindex := getAccountIndex_eq_some_iff.mpr ⟨n, henum, hentry⟩
    have hchecked := hcheck rule hrule
    rw [hindex] at hchecked
    obtain ⟨hnonneg, keys', key, hkeys', hkey, hpubkey⟩ := checkAccountKey_some hchecked
    rw [hkeys] at hkeys'
    cases hkeys'
    have hhead := head_bufferFrom hdata hbytes henum (hn.trans (Header.length_enumMap_lt hrule))
    have haccount : accountOf rule.enumMap n = some rule.enumMap[n].toNat := by
      rw [accountOf, hentry, Option.filter_some, if_pos (decide_eq_true hnonneg)]
      rfl
    obtain ⟨account, haccount', hrebuilt⟩ := getElem?_of_mapM_eq_ok hmetas hkey
    exact ⟨n, _, account, hhead, haccount, haccount', rebuildKey_eq_ok hrebuilt hpubkey⟩
  · intro id' hid'
    rw [hid] at hid'
    cases hid'
    exact hprogramId

/-! ### What passes unread -/

/-- Keys with which an acceptable instruction passes but is not relayed, since one has no public
key. -/
def Header.passingKeys (config : Config) (h : Header) : Option (List Key) := do
  let rule ← h.rule config
  let index ← getAccountIndex h rule.enumMap
  return List.replicate (index.toNat + 1) ⟨some rule.expectedAccount, false, false⟩ ++
    [⟨none, false, false⟩]

theorem Header.neg_one_le (hrule : h.rule config = some rule)
    (hindex : getAccountIndex h rule.enumMap = some index) :
    -1 ≤ index := by
  obtain ⟨n, -, hentry⟩ := getAccountIndex_eq_some_iff.mp hindex
  have hmem := mem_of_getElem? hentry
  unfold Header.rule at hrule
  split at hrule
  · cases hrule
    revert hmem
    simp only [rewardManagerBaseAccountIndices, mem_cons, not_mem_nil, or_false]
    omega
  · split at hrule
    · cases hrule
      revert hmem
      simp only [claimableTokenAuthorityIndices, mem_cons, not_mem_nil, or_false]
      omega
    · cases hrule

theorem Header.Acceptable.passes (hacc : h.Acceptable config) :
    isRelayAllowedInstruction config ⟨h, h.passingKeys config⟩ ≠ some false := by
  rw [isRelayAllowedInstruction_ne_false_iff]
  refine ⟨hacc.1, fun rule hrule ↦ ?_⟩
  cases hindex : getAccountIndex h rule.enumMap with
  | none => rfl
  | some index =>
    have hge := Header.neg_one_le hrule hindex
    have hne : index ≠ -1 := fun heq ↦ hacc.2 rule hrule (heq ▸ hindex)
    have hkeys : h.passingKeys config = some (replicate (index.toNat + 1)
        ⟨some rule.expectedAccount, false, false⟩ ++ [⟨none, false, false⟩]) := by
      simp [Header.passingKeys, hrule, hindex]
    simp only [checkAccountKey, hkeys]
    rw [if_pos]
    · rw [getElem?_append_left (by simp), getElem?_replicate, if_pos (by omega)]
      exact beq_self_eq_true _
    · simp only [length_append, length_replicate, length_singleton]
      omega

theorem Header.not_isValidInstruction (h : Header) :
    isValidInstruction ⟨h, h.passingKeys config⟩ = false := by
  unfold isValidInstruction
  cases hkeys : h.passingKeys config with
  | none => rfl
  | some keys =>
    simp only [Header.passingKeys, Option.bind_eq_bind, Option.bind_eq_some_iff,
      Option.pure_def, Option.some.injEq] at hkeys
    obtain ⟨rule, -, index, -, rfl⟩ := hkeys
    simp [present]

theorem Header.acceptable_of_passes (h : isRelayAllowedInstruction config instr ≠ some false) :
    instr.Acceptable config := by
  obtain ⟨hallowed, hcheck⟩ := (isRelayAllowedInstruction_ne_false_iff instr).mp h
  refine ⟨hallowed, fun rule hrule hindex ↦ ?_⟩
  have hchecked := hcheck rule hrule
  rw [hindex] at hchecked
  have hnonneg := (checkAccountKey_some hchecked).1
  omega

variable (publicKeys) in
/-- Without keys, an instruction that is not read as it is relayed passes, is relayed, and does not
have its account. -/
theorem relayed_unread (hallowed : isRelayAllowedProgram config h = true)
    (hunread : ¬ h.ReadAsRelayed config) :
    isRelayAllowedInstruction config ⟨h, some []⟩ ≠ some false ∧
      isValidInstruction ⟨h, some []⟩ = true ∧
      ∃ instruction, rebuild publicKeys ⟨h, some []⟩ = .ok instruction ∧
        ¬ Judged publicKeys instruction := by
  simp only [Header.ReadAsRelayed, not_forall] at hunread
  obtain ⟨rule, data, hrule, hdata, ⟨bytes, hbytes⟩, hno⟩ := hunread
  obtain ⟨id, hid⟩ : ∃ id, h.programId = some id := by
    cases hid : h.programId with
    | none => simp [isRelayAllowedProgram, hid] at hallowed
    | some id => exact ⟨id, rfl⟩
  have hmem : id ∈ config.allowedProgramIds := by
    simpa [isRelayAllowedProgram, hid] using hallowed
  obtain ⟨programId, hprogramId⟩ := publicKeys.programs id hmem
  refine ⟨?_, ?_, ⟨[], programId, bytes⟩, ?_, ?_⟩
  · rw [isRelayAllowedInstruction_ne_false_iff]
    refine ⟨hallowed, fun rule' hrule' ↦ ?_⟩
    cases hrule.symm.trans hrule'
    have hindex : getAccountIndex h rule.enumMap = none := by
      apply Option.eq_none_iff_forall_not_mem.mpr
      intro index hindex
      obtain ⟨n, henum, hentry⟩ := getAccountIndex_eq_some_iff.mp hindex
      exact hno ⟨n, (List.getElem?_eq_some_iff.mp hentry).1, henum⟩
    rw [hindex]
    rfl
  · have hid' : id ≠ "" := by
      rintro rfl
      exact publicKeys.empty ⟨programId, hprogramId⟩
    simp [isValidInstruction, present, hid, hdata, hid']
  · simp [rebuild, field, hid, hdata, hprogramId, hbytes]
  · intro hjudged
    obtain ⟨_, index, key, -, -, hkey, -⟩ := hjudged.hasAccount (h := h) (fun id' hid' ↦ by
      rw [hid] at hid'
      cases hid'
      exact hprogramId) hrule
    simp at hkey

end SolanaRelay

open SolanaRelay in
/-- Whatever keys the instructions have, what the relay lets through is judged just when, in a list
that some keys let through, each instruction is read as it is relayed. -/
theorem relayed_judged_iff {κ : Type} {config : Config} (publicKeys : PublicKeys κ config)
    (headers : List Header) :
    (∀ instructions : List Instruction, instructions.map Instruction.toHeader = headers →
      areRelayAllowedInstructions config instructions = true →
      ∀ sent, relayed publicKeys instructions = .ok sent →
        ∀ instruction ∈ sent, Judged publicKeys instruction) ↔
      ((∀ h ∈ headers, h.Acceptable config) → ∀ h ∈ headers, h.ReadAsRelayed config) := by
  constructor
  · intro hall hacc h hmem
    by_contra hunread
    obtain ⟨hpass, hvalid, instruction, hrebuild, hnot⟩ :=
      relayed_unread publicKeys (hacc h hmem).1 hunread
    -- the other instructions pass and are dropped
    let f : Header → Instruction := fun other ↦
      ⟨other, if other = h then some [] else other.passingKeys config⟩
    have hself : f h = ⟨h, some []⟩ := by simp [f]
    have hother : ∀ other, other ≠ h → f other = ⟨other, other.passingKeys config⟩ :=
      fun other hne ↦ by simp [f, hne]
    have hmap : (headers.map f).map Instruction.toHeader = headers := by simp [f, Function.comp_def]
    have hpasses : areRelayAllowedInstructions config (headers.map f) = true := by
      rw [areRelayAllowedInstructions_iff, List.forall_mem_map]
      intro other hother'
      by_cases heq : other = h
      · rw [heq, hself]
        exact hpass
      · rw [hother other heq]
        exact (hacc other hother').passes
    have hsend : Succeeds (relayed publicKeys (headers.map f)) := by
      rw [relayed, succeeds_mapM_iff]
      intro instr hinstr
      obtain ⟨hinstr, hvalid'⟩ := List.mem_filter.mp hinstr
      obtain ⟨other, -, rfl⟩ := List.mem_map.mp hinstr
      by_cases heq : other = h
      · rw [heq, hself]
        exact ⟨instruction, hrebuild⟩
      · rw [hother other heq, other.not_isValidInstruction] at hvalid'
        cases hvalid'
    obtain ⟨sent, hsent⟩ := hsend
    apply hnot
    apply hall _ hmap hpasses sent hsent
    rw [mem_iff_of_mapM_eq_ok hsent]
    refine ⟨⟨h, some []⟩, List.mem_filter.mpr ⟨?_, hvalid⟩, hrebuild⟩
    rw [← hself]
    exact List.mem_map_of_mem hmem
  · rintro hread instructions rfl hpasses sent hsent instruction hinstruction
    rw [areRelayAllowedInstructions_iff] at hpasses
    have hacc : ∀ h ∈ instructions.map Instruction.toHeader, h.Acceptable config := by
      rw [List.forall_mem_map]
      exact fun instr hinstr ↦ Header.acceptable_of_passes (hpasses instr hinstr)
    obtain ⟨instr, hmem, hrebuild⟩ := (mem_iff_of_mapM_eq_ok hsent instruction).mp hinstruction
    have hinstr := (List.mem_filter.mp hmem).1
    have hthis := hread hacc instr.toHeader (List.mem_map_of_mem hinstr)
    exact judged_of_readAsRelayed (hpasses instr hinstr) hthis hrebuild

namespace SolanaRelay

/-- A configuration with short texts for the programs and accounts. -/
def sampleConfig : Config where
  solanaRewardsManagerProgramId := "rewards"
  solanaRewardsManager := "manager"
  solanaClaimableTokenProgramAddress := "claimable"
  claimableTokenAuthority := "authority"
  solanaColivingAnchorDataProgramId := none
  distinct := by decide

/-- Every text but the empty one is its public key. -/
def textKeys : PublicKeys String sampleConfig where
  publicKey text := if text = "" then .error "Invalid public key input" else .ok text
  injective := by
    intro a b k ha hb
    split at ha
    · cases ha
    · split at hb
      · cases hb
      · cases ha
        cases hb
        rfl
  empty := by
    rintro ⟨k, hk⟩
    cases hk
  programs id hid := by
    have hne : id ≠ "" := by
      rintro rfl
      revert hid
      decide
    exact ⟨id, if_neg hne⟩

/-- An instruction of the rewards manager without accounts, whose first number is 256. -/
def initUnread : Instruction where
  programId := some "rewards"
  data := some (.object "Buffer" [.finite 256])
  keys := some []

end SolanaRelay

open SolanaRelay in
/-- The relay lets through an instruction of the rewards manager whose first byte is that of the
forbidden `InitRewardManager`. -/
theorem relayed_not_judged :
    areRelayAllowedInstructions sampleConfig [initUnread] = true ∧
    relayed textKeys [initUnread] = .ok [⟨[], "rewards", [0]⟩] ∧
    ¬ Judged textKeys (⟨[], "rewards", [0]⟩ : TransactionInstruction String) := by
  refine ⟨by decide +kernel, rfl, fun hjudged ↦ ?_⟩
  obtain ⟨byte, index, key, -, -, hkey, -⟩ := hjudged.rewardManager rfl
  cases hkey

end ColivingSpec
