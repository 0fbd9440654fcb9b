import ColivingSpec.Lib.Checked
import Mathlib.Data.Rat.Cast.Defs

/-!
# The filter of the Solana relay

The relay of the identity service looks at instructions as JSON (relayHelpers.js) and then rebuilds
those that have all they need for the chain (routes/solana.js). The filter reads the first number of
the data; the chain gets the byte that `Buffer.from` makes of it.
-/

namespace ColivingSpec

open Lib

namespace SolanaRelay

/-- A JSON number as it is read; one that is out of range is infinite. -/
inductive JsonNumber where
  | finite (value : ℚ)
  | infinite (negative : Bool)
deriving DecidableEq

/-- The byte that an array of bytes stores for a number: its integer part modulo 256. -/
def JsonNumber.toByte : JsonNumber → ℕ
  | .finite value => ((value.num.tdiv value.den) % 256).toNat
  | .infinite _ => 0

/-- The `data` of an instruction, an object with a type and an array or an array itself. -/
inductive InstructionData where
  | object (type : String) (data : List JsonNumber)
  | array (data : List JsonNumber)
deriving DecidableEq

/-- An entry of `keys`, in which the public key may be missing. -/
structure Key where
  pubkey : Option String
  isSigner : Bool
  isWritable : Bool

/-- An instruction without its keys. -/
structure Header where
  programId : Option String
  data : Option InstructionData
deriving DecidableEq

/-- An instruction of the request (relayHelpers.js, lines 22–27), in which any field may be
missing. -/
structure Instruction extends Header where
  keys : Option (List Key)

/-- `rewardManagerBaseAccountIndices` (lines 37–46), the values of the keys from 0 on. -/
def rewardManagerBaseAccountIndices : List ℤ := [-1, -1, -1, -1, 0, 0, 1, 1]

/-- `claimableTokenAuthorityIndices` (lines 54–57), the values of the keys from 0 on. -/
def claimableTokenAuthorityIndices : List ℤ := [2, 4]

/-- The program of secp256k1 signatures (line 15). -/
def secpProgramId : String := "KeccakSecp256k11111111111111111111111111111"

/-- The configured programs and accounts, with the authority that `getClaimableTokenAuthority`
derives. -/
structure Config where
  solanaRewardsManagerProgramId : String
  solanaRewardsManager : String
  solanaClaimableTokenProgramAddress : String
  claimableTokenAuthority : String
  solanaColivingAnchorDataProgramId : Option String
  distinct : solanaRewardsManagerProgramId ≠ solanaClaimableTokenProgramAddress

variable (config : Config)

/-- `allowedProgramIds` (lines 12–20). -/
def Config.allowedProgramIds : List String :=
  [config.solanaClaimableTokenProgramAddress, config.solanaRewardsManagerProgramId,
    secpProgramId] ++ config.solanaColivingAnchorDataProgramId.toList

/-- `isRelayAllowedProgram` (lines 59–66), on one instruction. -/
def isRelayAllowedProgram (instruction : Header) : Bool :=
  instruction.programId.any config.allowedProgramIds.contains

/-- `getInstructionEnum` (lines 112–121). -/
def getInstructionEnum (instruction : Header) : Option JsonNumber :=
  match instruction.data with
  | some (.object _ (first :: _)) => some first
  | _ => none

/-- `getAccountIndex` (lines 129–139). A fraction is no key of a table. -/
def getAccountIndex (instruction : Header) (enumMap : List ℤ) : Option ℤ :=
  match getInstructionEnum instruction with
  | some (.finite instructionEnum) =>
    if 0 ≤ instructionEnum ∧ instructionEnum < enumMap.length then
      if instructionEnum.den = 1 then enumMap[instructionEnum.num.toNat]? else none
    else none
  | _ => none

/-- `checkAccountKey` (lines 150–165). -/
def checkAccountKey (instruction : Instruction) (accountIndex : Option ℤ)
    (expectedAccount : String) : Bool :=
  match accountIndex, instruction.keys with
  | none, _ => true
  | some accountIndex, some keys =>
    if 0 ≤ accountIndex ∧ accountIndex < keys.length then
      keys[accountIndex.toNat]?.bind Key.pubkey == some expectedAccount
    else false
  | some _, none => false

/-- `isRelayAllowedInstruction` (lines 174–198). -/
def isRelayAllowedInstruction (instruction : Instruction) : Option Bool :=
  if instruction.programId = some config.solanaRewardsManagerProgramId then
    some (checkAccountKey instruction
      (getAccountIndex instruction.toHeader rewardManagerBaseAccountIndices)
      config.solanaRewardsManager)
  else if instruction.programId = some config.solanaClaimableTokenProgramAddress then
    some (checkAccountKey instruction
      (getAccountIndex instruction.toHeader claimableTokenAuthorityIndices)
      config.claimableTokenAuthority)
  else if isRelayAllowedProgram config instruction.toHeader then none
  else some false

/-- `areRelayAllowedInstructions` (lines 205–214). -/
def areRelayAllowedInstructions (instructions : List Instruction) : Bool :=
  let results := instructions.map (isRelayAllowedInstruction config)
  !results.any (· == some false)

/-! ### What is relayed -/

/-- `new PublicKey`, which throws for a text that is no public key, such as the empty one. The
configured programs are ones, and no two texts are the same one. -/
structure PublicKeys (κ : Type) (config : Config) where
  publicKey : String → Except String κ
  injective : ∀ {a b k}, publicKey a = .ok k → publicKey b = .ok k → a = b
  empty : ¬ Succeeds (publicKey "")
  programs : ∀ id ∈ config.allowedProgramIds, Succeeds (publicKey id)

/-- An account of a transaction's instruction. -/
structure AccountMeta (κ : Type) where
  pubkey : κ
  isSigner : Bool
  isWritable : Bool

/-- An instruction of a transaction. -/
structure TransactionInstruction (κ : Type) where
  keys : List (AccountMeta κ)
  programId : κ
  data : List ℕ

/-- `Buffer.from`, which throws for an object that is not the JSON form of a buffer. -/
def bufferFrom : InstructionData → Except String (List ℕ)
  | .object type data =>
    if type = "Buffer" then .ok (data.map JsonNumber.toByte) else .error "ERR_INVALID_ARG_TYPE"
  | .array data => .ok (data.map JsonNumber.toByte)

/-- A text that is there and not empty. -/
def present (text : Option String) : Bool := text.any fun text ↦ text ≠ ""

/-- `isValidInstruction` (routes/solana.js, lines 18–22). -/
def isValidInstruction (instr : Instruction) : Bool :=
  match instr.keys with
  | none => false
  | some keys =>
    present instr.programId && instr.data.isSome && keys.all fun key ↦ present key.pubkey

/-- A field that `isValidInstruction` has seen. -/
def field {α : Type} (value : Option α) : Except String α := value.elim (.error "undefined") .ok

variable {κ : Type} {config : Config}

variable (publicKeys : PublicKeys κ config)

/-- The account of a key (lines 76–80). -/
def rebuildKey (key : Key) : Except String (AccountMeta κ) := do
  let pubkey ← publicKeys.publicKey (← field key.pubkey)
  return ⟨pubkey, key.isSigner, key.isWritable⟩

/-- The instruction that is relayed for one of the request (lines 75–86). -/
def rebuild (instr : Instruction) : Except String (TransactionInstruction κ) := do
  let keys ← (← field instr.keys).mapM (rebuildKey publicKeys)
  let programId ← publicKeys.publicKey (← field instr.programId)
  let data ← bufferFrom (← field instr.data)
  return ⟨keys, programId, data⟩

/-- The instructions that the route relays for those of the request. -/
def relayed (instructions : List Instruction) : Except String (List (TransactionInstruction κ)) :=
  (instructions.filter isValidInstruction).mapM (rebuild publicKeys)

/-! ### The instructions of the programs -/

/-- The instructions of the rewards manager, by the comments of its table. -/
inductive RewardManagerInstruction where
  | InitRewardManager
  | ChangeManagerAccount
  | CreateSender
  | DeleteSender
  | CreateSenderPublic
  | DeleteSenderPublic
  | SubmitAttestations
  | EvaluateAttestations

/-- The instruction that a first byte stands for. -/
def RewardManagerInstruction.ofByte : ℕ → Option RewardManagerInstruction
  | 0 => some InitRewardManager
  | 1 => some ChangeManagerAccount
  | 2 => some CreateSender
  | 3 => some DeleteSender
  | 4 => some CreateSenderPublic
  | 5 => some DeleteSenderPublic
  | 6 => some SubmitAttestations
  | 7 => some EvaluateAttestations
  | _ => none

/-- Where an allowed instruction has the rewards manager account. -/
def RewardManagerInstruction.baseAccount : RewardManagerInstruction → Option ℕ
  | CreateSenderPublic | DeleteSenderPublic => some 0
  | SubmitAttestations | EvaluateAttestations => some 1
  | _ => none

/-- The instructions of the claimable token program, by the comments of its table. -/
inductive ClaimableTokenInstruction where
  | CreateTokenAccount
  | Transfer

/-- The instruction that a first byte stands for. -/
def ClaimableTokenInstruction.ofByte : ℕ → Option ClaimableTokenInstruction
  | 0 => some CreateTokenAccount
  | 1 => some Transfer
  | _ => none

/-- Where an instruction has the authority. -/
def ClaimableTokenInstruction.authority : ClaimableTokenInstruction → ℕ
  | CreateTokenAccount => 2
  | Transfer => 4

/-- The first byte stands for an allowed instruction, which has the account where it has it. -/
def HasAccount (account : ℕ → Option ℕ) (expected : Except String κ)
    (instruction : TransactionInstruction κ) : Prop :=
  ∃ byte index key, instruction.data.head? = some byte ∧ account byte = some index ∧
    instruction.keys[index]? = some key ∧ expected = .ok key.pubkey

/-- A relayed instruction is one of an allowed program; one of the two programs with authorities is
allowed and has the authority. -/
structure Judged (publicKeys : PublicKeys κ config) (instruction : TransactionInstruction κ) :
    Prop where
  program : ∃ id ∈ config.allowedProgramIds, publicKeys.publicKey id = .ok instruction.programId
  rewardManager :
    publicKeys.publicKey config.solanaRewardsManagerProgramId = .ok instruction.programId →
    HasAccount (fun byte ↦ (RewardManagerInstruction.ofByte byte).bind (·.baseAccount))
      (publicKeys.publicKey config.solanaRewardsManager) instruction
  claimableToken :
    publicKeys.publicKey config.solanaClaimableTokenProgramAddress = .ok instruction.programId →
    HasAccount (fun byte ↦ (ClaimableTokenInstruction.ofByte byte).map (·.authority))
      (publicKeys.publicKey config.claimableTokenAuthority) instruction

end SolanaRelay

end ColivingSpec
