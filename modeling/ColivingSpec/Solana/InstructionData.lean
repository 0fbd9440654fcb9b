import ColivingSpec.Lib.Base58
import ColivingSpec.Lib.Checked
import ColivingSpec.Lib.Dict

/-!
# Instruction data

The data of a Solana instruction is a byte that selects the instruction and then its fields, as
Borsh lays them out. The parser walks over the fields of a format with an offset. It reads a time
without its sign, so that what it returns is what was encoded as long as no time is negative.
-/

namespace ColivingSpec.Solana

open Lib Lib.Bytes Lib.Base58 List

/-- `solana_parser.py:10–14`. -/
inductive SolanaInstructionType where
  | u64
  | string
  | ethereumAddress
  | unixTimestamp
  deriving DecidableEq, Repr

/-- `solana_parser.py:17–22`. -/
def solanaInstructionSpace : SolanaInstructionType → ℕ
  | .u64 => 8
  | .string => 4
  | .ethereumAddress => 20
  | .unixTimestamp => 8

/-- `solana_parser.py:25–27`. -/
structure InstructionFormat where
  name : String
  type : SolanaInstructionType
  deriving DecidableEq, Repr

/-- A value as the parser returns it. -/
inductive ParsedValue where
  | int (value : ℤ)
  | str (value : String)
  deriving DecidableEq, Repr

/-- The text of an address: 20 bytes read as a number, in at least 40 hexadecimal digits. -/
def addressText (n : ℕ) : String := String.ofList ('0' :: 'x' :: hexPadded 40 n)

/-- One field from an offset on, and the offset behind it (`solana_parser.py:39–67`). -/
def parseField (decoded : List UInt8) (lastEnd : ℕ) (type : SolanaInstructionType) :
    Except String (ParsedValue × ℕ) :=
  let typeLen := solanaInstructionSpace type
  let content := slice decoded lastEnd (lastEnd + typeLen)
  match type with
  | .u64 => .ok (.int (little content), lastEnd + typeLen)
  | .string =>
    let instrLen := little content
    let start := lastEnd + typeLen
    let stop := lastEnd + typeLen + instrLen
    match utf8? (slice decoded start stop) with
    | some text => .ok (.str text, stop)
    | none => .error "UnicodeDecodeError"
  | .ethereumAddress => .ok (.str (addressText (big content)), lastEnd + typeLen)
  | .unixTimestamp => .ok (.int (little content), lastEnd + typeLen)

/-- The loop over the fields of the format. -/
def parseFields (decoded : List UInt8) (lastEnd : ℕ) (decodedParams : Dict String ParsedValue) :
    List InstructionFormat → Except String (Dict String ParsedValue)
  | [] => .ok decodedParams
  | intr :: rest => do
    let (value, stop) ← parseField decoded lastEnd intr.type
    parseFields decoded stop (decodedParams.set intr.name value) rest

/-- `solana_parser.py:30–69`. -/
def parseInstructionData (data : String) (instructionFormat : List InstructionFormat) :
    Except String (Dict String ParsedValue) :=
  match b58decode data with
  | none => .error "ValueError"
  | some bytes => parseFields (bytes.drop 1) 0 Dict.empty instructionFormat

/-! ### What a program encodes -/

/-- The value of a field, in the range of its type. -/
inductive FieldValue where
  | u64 (value : UInt64)
  | string (text : String) (fits : (utf8 text).length < 256 ^ 4)
  | ethereumAddress (bytes : List UInt8) (fits : bytes.length = 20)
  | unixTimestamp (time : Int64)

namespace FieldValue

/-- The type that the format gives the field. -/
def type : FieldValue → SolanaInstructionType
  | u64 _ => .u64
  | string _ _ => .string
  | ethereumAddress _ _ => .ethereumAddress
  | unixTimestamp _ => .unixTimestamp

/-- The bytes of the field. -/
def encode : FieldValue → List UInt8
  | u64 value => ofLittle 8 value.toNat
  | string text _ => ofLittle 4 (utf8 text).length ++ utf8 text
  | ethereumAddress bytes _ => bytes
  | unixTimestamp time => ofLittle 8 time.toUInt64.toNat

/-- The value that was encoded, an address as the hexadecimal text of its bytes. -/
def value : FieldValue → ParsedValue
  | u64 value => .int value.toNat
  | string text _ => .str text
  | ethereumAddress bytes _ => .str (String.ofList ('0' :: 'x' :: bytes.flatMap hexByte))
  | unixTimestamp time => .int time.toInt

/-- The value as it is read, a time without its sign. -/
def unsigned : FieldValue → ParsedValue
  | unixTimestamp time => .int time.toUInt64.toNat
  | field => field.value

/-- The field is no time before 1970. -/
def NonNegative : FieldValue → Prop
  | unixTimestamp time => 0 ≤ time.toInt
  | _ => True

instance : DecidablePred NonNegative
  | unixTimestamp time => inferInstanceAs (Decidable (0 ≤ time.toInt))
  | u64 _ | string _ _ | ethereumAddress _ _ => inferInstanceAs (Decidable True)

end FieldValue

/-- An instruction: the byte that selects it, and its fields, whose names differ. -/
structure Instruction where
  selector : UInt8
  fields : List (String × FieldValue)
  nodup : (fields.map Prod.fst).Nodup

namespace Instruction

variable (instruction : Instruction)

/-- The format of the instruction. -/
def format : List InstructionFormat :=
  instruction.fields.map fun field ↦ ⟨field.1, field.2.type⟩

/-- The bytes of the instruction. -/
def encode (instruction : Instruction) : List UInt8 :=
  instruction.selector :: instruction.fields.flatMap fun field ↦ field.2.encode

/-- The encoded values under the names of their fields. -/
def values : Dict String ParsedValue :=
  ⟨instruction.fields.map fun field ↦ (field.1, field.2.value), by
    rw [List.map_map]
    exact instruction.nodup⟩

end Instruction

/-! ### The walk over the fields -/

/-- A signed integer, read without its sign. -/
theorem toUInt64_toNat (time : Int64) :
    (time.toUInt64.toNat : ℤ) = if 0 ≤ time.toInt then time.toInt else time.toInt + 2 ^ 64 := by
  have hcond := BitVec.toInt_eq_toNat_cond time.toBitVec
  have hlt : time.toUInt64.toNat < 2 ^ 64 := time.toUInt64.toNat_lt
  rw [Int64.toInt_toBitVec, Int64.toNat_toBitVec] at hcond
  rw [hcond]
  split <;> split <;> omega

/-- A signed integer is read as it is exactly if it is not negative. -/
theorem toUInt64_toNat_eq_iff (time : Int64) :
    (time.toUInt64.toNat : ℤ) = time.toInt ↔ 0 ≤ time.toInt := by
  rw [toUInt64_toNat]
  split
  case isTrue hle => exact iff_of_true rfl hle
  case isFalse hlt =>
    refine iff_of_false ?_ hlt
    omega

/-- A field is read as what it was encoded from unless it is a negative time. -/
theorem unsigned_eq_value_iff (field : FieldValue) :
    field.unsigned = field.value ↔ field.NonNegative := by
  cases field with
  | unixTimestamp time =>
    show ParsedValue.int time.toUInt64.toNat = .int time.toInt ↔ 0 ≤ time.toInt
    rw [ParsedValue.int.injEq]
    exact toUInt64_toNat_eq_iff time
  | u64 | string | ethereumAddress => exact iff_of_true rfl trivial

variable (before : List UInt8) (instruction : Instruction)

/-- One field is read from its own bytes, whatever stands around them. -/
theorem parseField_encode (after : List UInt8) (field : FieldValue) :
    parseField (before ++ (field.encode ++ after)) before.length field.type =
      .ok (field.unsigned, before.length + field.encode.length) := by
  cases field with
  | u64 value =>
    have hcontent : slice (before ++ (ofLittle 8 value.toNat ++ after)) before.length
        (before.length + 8) = ofLittle 8 value.toNat :=
      slice_append _ _ _ _ _ rfl (by rw [length_ofLittle])
    simp only [parseField, FieldValue.type, FieldValue.encode, solanaInstructionSpace, hcontent,
      little_ofLittle (toNat_lt_pow value),
      length_ofLittle, FieldValue.unsigned, FieldValue.value]
  | string text fits =>
    have hcontent : slice (before ++ (ofLittle 4 (utf8 text).length ++ utf8 text ++ after))
        before.length (before.length + 4) = ofLittle 4 (utf8 text).length := by
      rw [append_assoc]
      exact slice_append _ _ _ _ _ rfl (by rw [length_ofLittle])
    have htext : slice (before ++ (ofLittle 4 (utf8 text).length ++ utf8 text ++ after))
        (before.length + 4) (before.length + 4 + (utf8 text).length) = utf8 text := by
      rw [append_assoc, ← append_assoc before]
      exact slice_append _ _ _ _ _ (by rw [length_append, length_ofLittle])
        (by rw [length_append, length_ofLittle])
    simp only [parseField, FieldValue.type, FieldValue.encode, solanaInstructionSpace, hcontent,
      little_ofLittle fits, htext, utf8?_utf8, FieldValue.unsigned, FieldValue.value,
      length_append, length_ofLittle]
    rw [Nat.add_assoc]
  | ethereumAddress bytes fits =>
    have hcontent : slice (before ++ (bytes ++ after)) before.length (before.length + 20) =
        bytes := slice_append _ _ _ _ _ rfl (by rw [fits])
    have hdigits : hexPadded 40 (big bytes) = bytes.flatMap hexByte := by
      have hne : bytes ≠ [] := by
        rintro rfl
        cases fits
      have hpadded := hexPadded_big hne
      rw [fits] at hpadded
      exact hpadded
    simp only [parseField, FieldValue.type, FieldValue.encode, solanaInstructionSpace, hcontent,
      addressText, hdigits, fits, FieldValue.unsigned, FieldValue.value]
  | unixTimestamp time =>
    have hcontent : slice (before ++ (ofLittle 8 time.toUInt64.toNat ++ after)) before.length
        (before.length + 8) = ofLittle 8 time.toUInt64.toNat :=
      slice_append _ _ _ _ _ rfl (by rw [length_ofLittle])
    simp only [parseField, FieldValue.type, FieldValue.encode, solanaInstructionSpace, hcontent,
      little_ofLittle (toNat_lt_pow time.toUInt64),
      length_ofLittle, FieldValue.unsigned]

/-- The fields that are left are read behind those before them, and set in the dictionary. -/
theorem parseFields_encode (fields : List (String × FieldValue))
    (decodedParams : Dict String ParsedValue) :
    parseFields (before ++ fields.flatMap fun field ↦ field.2.encode) before.length decodedParams
        (fields.map fun field ↦ ⟨field.1, field.2.type⟩) =
      .ok (fields.foldl (fun d field ↦ d.set field.1 field.2.unsigned) decodedParams) := by
  induction fields generalizing before decodedParams with
  | nil => rfl
  | cons field rest ih =>
    rw [map_cons, flatMap_cons, parseFields, parseField_encode, ok_bind, foldl_cons,
      ← ih (before ++ field.2.encode), length_append, append_assoc]

/-- Setting keys that differ lists them in their order. -/
theorem items_foldl_set (entries : List (String × ParsedValue))
    (hnodup : (entries.map Prod.fst).Nodup) (d : Dict String ParsedValue)
    (hnew : ∀ entry ∈ entries, entry.1 ∉ d.items.map Prod.fst) :
    (entries.foldl (fun d entry ↦ d.set entry.1 entry.2) d).items = d.items ++ entries := by
  induction entries generalizing d with
  | nil => exact (append_nil d.items).symm
  | cons entry rest ih =>
    obtain ⟨hnot, hrest⟩ := nodup_cons.mp hnodup
    have hset : (d.set entry.1 entry.2).items = d.items ++ [entry] :=
      Entries.set_of_not_mem (hnew entry mem_cons_self)
    have hfresh : ∀ other ∈ rest, other.1 ∉ (d.set entry.1 entry.2).items.map Prod.fst := by
      intro other hother hmem
      rw [hset, map_append, map_singleton] at hmem
      rcases mem_append.mp hmem with hin | hin
      · exact hnew other (mem_cons_of_mem entry hother) hin
      · apply hnot
        rw [← mem_singleton.mp hin]
        exact mem_map_of_mem hother
    rw [foldl_cons, ih hrest _ hfresh, hset, append_assoc, singleton_append]

/-- What the parser returns of an instruction: every value, the times without their signs. -/
theorem parseInstructionData_encode :
    ∃ d : Dict String ParsedValue,
      parseInstructionData (b58encode instruction.encode) instruction.format = .ok d ∧
        d.items = instruction.fields.map fun field ↦ (field.1, field.2.unsigned) := by
  have hparsed := parseFields_encode [] instruction.fields Dict.empty
  refine ⟨instruction.fields.foldl (fun d field ↦ d.set field.1 field.2.unsigned) Dict.empty,
    ?_, ?_⟩
  · rw [parseInstructionData, b58decode_b58encode]
    exact hparsed
  · have hitems := items_foldl_set
      (instruction.fields.map fun field ↦ (field.1, field.2.unsigned))
      (by rw [map_map]; exact instruction.nodup) Dict.empty
      (fun _ _ hmem ↦ by cases hmem)
    rw [foldl_map] at hitems
    exact hitems

/-- The parser gives back the encoded values exactly if none of them is a negative time. -/
theorem parseInstructionData_eq_values_iff :
    parseInstructionData (b58encode instruction.encode) instruction.format =
        .ok instruction.values ↔
      ∀ field ∈ instruction.fields, field.2.NonNegative := by
  obtain ⟨d, hparsed, hitems⟩ := parseInstructionData_encode instruction
  have hvalues : instruction.values.items =
      instruction.fields.map fun field ↦ (field.1, field.2.value) := rfl
  rw [hparsed, Except.ok.injEq]
  constructor
  · intro heq field hfield
    rw [heq, hvalues] at hitems
    have hsame := map_inj_left.mp hitems field hfield
    exact (unsigned_eq_value_iff field.2).mp (Prod.mk.inj hsame).2.symm
  · intro hall
    have hsame : d.items = instruction.values.items := by
      rw [hitems, hvalues]
      apply map_congr_left
      intro field hfield
      rw [(unsigned_eq_value_iff field.2).mpr (hall field hfield)]
    cases d
    exact Dict.mk.injEq .. ▸ hsame

end ColivingSpec.Solana
