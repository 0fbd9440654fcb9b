import ColivingSpec.Lib.Json
import ColivingSpec.Solana.InstructionData

/-!
# The data of a listen

The instruction of the listen-count program carries the identifiers of the user and of the content
as texts, the source, which may be a JSON object with the location beside it, and the time. Its
parser lets a user be anonymous, but no content; it reads the time without its sign.
-/

namespace ColivingSpec.Solana

open Lib Lib.Bytes Lib.Base58 List

namespace PlayData

/-- What the parser returns; `None` is null. -/
structure ParsedPlay where
  userId : Option ℤ
  digitalContentId : ℤ
  source : Json
  location : Json
  timestamp : ℕ

variable (loads : List UInt8 → Option Json)

variable (decodedSource : List UInt8) (selector : UInt8) (text : String)

/-- The members of a JSON source, the second of which may be missing
(`index_solana_plays.py:92–101`). -/
def jsonSource : Json × Json :=
  match loads decodedSource with
  | none => (.null, .object [])
  | some sourceDict =>
    match sourceDict.getItem "source", sourceDict.getItem "location" with
    | .ok source, .ok location => (source, location)
    | .ok source, .error _ => (source, .object [])
    | .error _, _ => (.null, .object [])

/-- The source, which is the text as a whole if there is none in it
(`index_solana_plays.py:103–118`). -/
def sourceOf : Json :=
  let source := (jsonSource loads decodedSource).1
  if source.truthy then source
  else
    match utf8? decodedSource with
    | some text => .str text
    | none => source

/-- `index_solana_plays.py:64–122`; `loads` is `json.loads`, without a value if it raises. -/
def parseInstructionData (data : String) : Except String ParsedPlay := do
  let bytes ← match b58decode data with
    | none => .error "ValueError"
    | some bytes => .ok bytes
  let decoded := bytes.drop 1
  let userIdLength := little (slice decoded 0 4)
  let userIdEnd := 4 + userIdLength
  let userId := int? (slice decoded 4 userIdEnd)
  let digitalContentIdLength := little (slice decoded userIdEnd (userIdEnd + 4))
  let digitalContentIdStart := userIdEnd + 4
  let digitalContentIdEnd := userIdEnd + 4 + digitalContentIdLength
  match int? (slice decoded digitalContentIdStart digitalContentIdEnd) with
  | none => .error "ValueError"
  | some digitalContentId =>
    let sourceLength := little (slice decoded digitalContentIdEnd (digitalContentIdEnd + 4))
    let sourceStart := digitalContentIdEnd + 4
    let sourceEnd := digitalContentIdEnd + 4 + sourceLength
    let decodedSource := slice decoded sourceStart sourceEnd
    let timestamp := little (slice decoded sourceEnd (sourceEnd + 8))
    .ok ⟨userId, digitalContentId, sourceOf loads decodedSource,
      (jsonSource loads decodedSource).2, timestamp⟩

/-- A string as Borsh lays it out, which need not be text. -/
structure ByteString where
  bytes : List UInt8
  fits : bytes.length < 256 ^ 4

/-- The length and the bytes. -/
def ByteString.encode (s : ByteString) : List UInt8 := ofLittle 4 s.bytes.length ++ s.bytes

/-- `DigitalContentData` as any bytes that the program takes, behind the byte that selects the
instruction. -/
structure RawData where
  selector : UInt8
  userId : ByteString
  digitalContentId : ByteString
  source : ByteString
  timestamp : Int64

/-- The bytes of the instruction. -/
def RawData.encode (data : RawData) : List UInt8 :=
  data.selector :: (data.userId.encode ++ (data.digitalContentId.encode ++ (data.source.encode ++
    ofLittle 8 data.timestamp.toUInt64.toNat)))

/-- A string is read behind whatever stands before it. -/
theorem slice_encode (before after : List UInt8) (s : ByteString) (start stop : ℕ)
    (hstart : start = before.length) (hstop : stop = start + 4 + s.bytes.length) :
    little (slice (before ++ (s.encode ++ after)) start (start + 4)) = s.bytes.length ∧
      slice (before ++ (s.encode ++ after)) (start + 4) stop = s.bytes := by
  have hlength := length_ofLittle 4 s.bytes.length
  constructor
  · rw [ByteString.encode, append_assoc, slice_append _ _ _ _ _ hstart (by omega),
      little_ofLittle s.fits]
  · rw [ByteString.encode, append_assoc, ← append_assoc before]
    apply slice_append
    · rw [length_append]
      omega
    · rw [length_append]
      omega

/-- What the parser makes of the data: it fails exactly if the content has no number. -/
theorem parseInstructionData_encode (data : RawData) :
    parseInstructionData loads (b58encode data.encode) =
      match int? data.digitalContentId.bytes with
      | none => .error "ValueError"
      | some digitalContentId => .ok ⟨int? data.userId.bytes, digitalContentId,
          sourceOf loads data.source.bytes, (jsonSource loads data.source.bytes).2,
          data.timestamp.toUInt64.toNat⟩ := by
  obtain ⟨selector, userId, digitalContentId, source, timestamp⟩ := data
  have hencoded : ∀ s : ByteString, s.encode.length = 4 + s.bytes.length := by
    intro s
    rw [ByteString.encode, length_append, length_ofLittle]
  have hdecoded : (RawData.encode ⟨selector, userId, digitalContentId, source, timestamp⟩).drop 1 =
      userId.encode ++ (digitalContentId.encode ++ (source.encode ++
        ofLittle 8 timestamp.toUInt64.toNat)) := rfl
  obtain ⟨huserLength, huser⟩ := slice_encode [] (digitalContentId.encode ++ (source.encode ++
    ofLittle 8 timestamp.toUInt64.toNat)) userId 0 (4 + userId.bytes.length) rfl (by omega)
  obtain ⟨hcontentLength, hcontent⟩ := slice_encode userId.encode (source.encode ++
    ofLittle 8 timestamp.toUInt64.toNat) digitalContentId (4 + userId.bytes.length) _
    (hencoded userId).symm rfl
  obtain ⟨hsourceLength, hsource⟩ := slice_encode (userId.encode ++ digitalContentId.encode)
    (ofLittle 8 timestamp.toUInt64.toNat) source
    (4 + userId.bytes.length + 4 + digitalContentId.bytes.length) _
    (by rw [length_append, hencoded, hencoded]; omega) rfl
  have htime : slice (userId.encode ++ (digitalContentId.encode ++ (source.encode ++
      ofLittle 8 timestamp.toUInt64.toNat)))
      (4 + userId.bytes.length + 4 + digitalContentId.bytes.length + 4 + source.bytes.length)
      (4 + userId.bytes.length + 4 + digitalContentId.bytes.length + 4 + source.bytes.length + 8) =
      ofLittle 8 timestamp.toUInt64.toNat := by
    have hslice := slice_append (userId.encode ++ (digitalContentId.encode ++ source.encode))
      (ofLittle 8 timestamp.toUInt64.toNat) []
      (4 + userId.bytes.length + 4 + digitalContentId.bytes.length + 4 + source.bytes.length)
      (4 + userId.bytes.length + 4 + digitalContentId.bytes.length + 4 + source.bytes.length + 8)
      (by simp only [length_append, hencoded]; omega)
      (by simp only [length_append, hencoded, length_ofLittle]; omega)
    simpa only [append_assoc, append_nil] using hslice
  rw [append_assoc] at hsourceLength hsource
  rw [nil_append] at huserLength huser
  simp only [parseInstructionData, b58decode_b58encode, ok_bind, hdecoded, huserLength, huser, hcontentLength, hcontent,
    hsourceLength, hsource, htime, little_ofLittle (toNat_lt_pow timestamp.toUInt64)]

/-! ### What a listen was encoded from -/

/-- A text whose bytes fit their length. -/
structure Text where
  text : String
  fits : (utf8 text).length < 256 ^ 4

/-- `DigitalContentData` of the program: the identifiers and the source as texts, and the time. -/
structure DigitalContentData where
  userId : Text
  digitalContentId : Text
  source : Text
  timestamp : Int64

/-- The bytes of the data. -/
def DigitalContentData.raw (data : DigitalContentData) : RawData where
  selector := selector
  userId := ⟨utf8 data.userId.text, data.userId.fits⟩
  digitalContentId := ⟨utf8 data.digitalContentId.text, data.digitalContentId.fits⟩
  source := ⟨utf8 data.source.text, data.source.fits⟩
  timestamp := data.timestamp

/-- The source that a text stands for: that of an object with a source and a location, as
`createDigitalContentListenTransaction` writes it, or else the text itself. -/
def encodedSource : String :=
  match loads (utf8 text) with
  | none => text
  | some value =>
    match value.getItem "source", value.getItem "location" with
    | .ok (.str source), .ok _ => source
    | _, _ => text

/-- The parser returns what was encoded: the user, who is `None` exactly if the text is not a decimal
integer, the content, the source and the time. -/
def ReturnsEncoded (data : DigitalContentData) (parsed : Except String ParsedPlay) : Prop :=
  ∃ digitalContentId location, decimal? (utf8 data.digitalContentId.text) = some digitalContentId ∧
    ∃ timestamp : ℕ, (timestamp : ℤ) = data.timestamp.toInt ∧
      parsed = .ok ⟨decimal? (utf8 data.userId.text), digitalContentId,
        .str (encodedSource loads data.source.text), location, timestamp⟩

/-- The source text is no object with a source in it, unless that is a string which is not empty and
there is a location too. -/
def PlainOrWrapped : Prop :=
  ∀ value source, loads (utf8 text) = some value → value.getItem "source" = .ok source →
    match value.getItem "location", source with
    | .ok _, .str inner => inner ≠ "" ∨ text = ""
    | _, _ => source.truthy = false ∨ source = .str text

/-- The data that is read as it was encoded: the content has a decimal number, the user none that only
`int` reads, the source is plain or wrapped, and the time is not before 1970. -/
structure ReadsBack (data : DigitalContentData) : Prop where
  digitalContentId : (decimal? (utf8 data.digitalContentId.text)).isSome
  userId : decimal? (utf8 data.userId.text) = none → int? (utf8 data.userId.text) = none
  source : PlainOrWrapped loads data.source.text
  timestamp : 0 ≤ data.timestamp.toInt

/-- A member that is a value, or else the text, is the text exactly if it counts for nothing. -/
theorem ite_truthy_eq_iff (source : Json) (text : String) :
    (if source.truthy = true then source else .str text) = .str text ↔
      source.truthy = false ∨ source = .str text := by
  by_cases htruthy : source.truthy = true
  · rw [if_pos htruthy, htruthy]
    exact (or_iff_right (by decide)).symm
  · rw [if_neg htruthy]
    exact iff_of_true rfl (.inl (Bool.eq_false_iff.mpr htruthy))

/-- The source is the encoded one exactly if it is plain or wrapped. -/
theorem sourceOf_eq_iff :
    sourceOf loads (utf8 text) = .str (encodedSource loads text) ↔ PlainOrWrapped loads text := by
  unfold sourceOf jsonSource encodedSource PlainOrWrapped
  simp only [utf8?_utf8]
  cases hloads : loads (utf8 text) with
  | none => exact iff_of_true rfl fun _ _ hsome ↦ by cases hsome
  | some value =>
    cases hsource : value.getItem "source" with
    | error e =>
      refine iff_of_true (by simp only [Json.truthy, hsource]; rfl) ?_
      intro value' source hsome hget
      rw [← Option.some.inj hsome, hsource] at hget
      cases hget
    | ok source =>
      have hall : ∀ P : Json → Json → Prop, (∀ value' source', some value = some value' →
          value'.getItem "source" = .ok source' → P value' source') ↔ P value source := by
        intro P
        constructor
        · intro h
          exact h value source rfl hsource
        · intro h value' source' hsome hget
          obtain rfl := Option.some.inj hsome
          rw [hsource] at hget
          obtain rfl := Except.ok.inj hget
          exact h
      rw [hall fun value source ↦ match value.getItem "location", source with
        | .ok _, .str inner => inner ≠ "" ∨ text = ""
        | _, _ => source.truthy = false ∨ source = .str text]
      simp only [hsource]
      cases value.getItem "location" with
      | error e => cases source <;> exact ite_truthy_eq_iff _ text
      | ok location =>
        cases source with
        | str inner =>
          show (if (Json.str inner).truthy = true then Json.str inner else .str text) =
            .str inner ↔ inner ≠ "" ∨ text = ""
          by_cases hempty : inner = ""
          · subst hempty
            rw [if_neg (by decide), Json.str.injEq]
            exact (or_iff_right (by decide)).symm
          · have htruthy : (Json.str inner).truthy = true := decide_eq_true hempty
            rw [if_pos htruthy]
            exact iff_of_true rfl (.inl hempty)
        | null => exact ite_truthy_eq_iff .null text
        | bool value => exact ite_truthy_eq_iff (.bool value) text
        | int value => exact ite_truthy_eq_iff (.int value) text
        | float value => exact ite_truthy_eq_iff (.float value) text
        | list items => exact ite_truthy_eq_iff (.list items) text
        | object members => exact ite_truthy_eq_iff (.object members) text

/-- Data is read as it was encoded exactly in these cases. -/
theorem returnsEncoded_iff (data : DigitalContentData) :
    ReturnsEncoded loads data
        (parseInstructionData loads (b58encode (data.raw selector).encode)) ↔
      ReadsBack loads data := by
  rw [parseInstructionData_encode]
  have hraw : (data.raw selector).digitalContentId.bytes = utf8 data.digitalContentId.text := rfl
  rw [hraw]
  constructor
  · rintro ⟨digitalContentId, location, hcontent, timestamp, htime, hparsed⟩
    rw [int?_of_decimal? hcontent, Except.ok.injEq, ParsedPlay.mk.injEq] at hparsed
    obtain ⟨huser, -, hsource, -, htimestamp⟩ := hparsed
    refine ⟨by rw [hcontent]; rfl, ?_, (sourceOf_eq_iff loads data.source.text).mp hsource, ?_⟩
    · intro hnone
      rw [← hnone]
      exact huser
    · apply (toUInt64_toNat_eq_iff data.timestamp).mp
      rw [← htime, ← htimestamp]
      rfl
  · intro h
    obtain ⟨digitalContentId, hcontent⟩ := Option.isSome_iff_exists.mp h.digitalContentId
    have huser : int? (utf8 data.userId.text) = decimal? (utf8 data.userId.text) := by
      cases hdecimal : decimal? (utf8 data.userId.text) with
      | none => exact h.userId hdecimal
      | some userId => exact int?_of_decimal? hdecimal
    rw [int?_of_decimal? hcontent]
    refine ⟨digitalContentId, (jsonSource loads (utf8 data.source.text)).2, hcontent,
      data.timestamp.toUInt64.toNat, (toUInt64_toNat_eq_iff data.timestamp).mpr h.timestamp, ?_⟩
    show Except.ok (ParsedPlay.mk (int? (utf8 data.userId.text)) _
      (sourceOf loads (utf8 data.source.text)) _ _) = _
    rw [huser, (sourceOf_eq_iff loads data.source.text).mpr h.source]
    rfl

end PlayData

/-- Encoded instructions are read back exactly if no time in them is negative; and encoded listens
exactly if, besides, the content has a decimal number, the user none that only `int` reads, and the
source is plain or wrapped. -/
theorem instructionData_roundTrip_iff (loads : List UInt8 → Option Json) :
    (∀ instruction : Instruction,
      parseInstructionData (b58encode instruction.encode) instruction.format =
          .ok instruction.values ↔
        ∀ field ∈ instruction.fields, field.2.NonNegative) ∧
    ∀ (selector : UInt8) (data : PlayData.DigitalContentData),
      PlayData.ReturnsEncoded loads data (PlayData.parseInstructionData loads
          (b58encode (data.raw selector).encode)) ↔
        PlayData.ReadsBack loads data :=
  ⟨parseInstructionData_eq_values_iff, PlayData.returnsEncoded_iff loads⟩

/-- An instruction with one field, a second before 1970. -/
def beforeEpoch : Instruction where
  selector := 1
  fields := [("timestamp", .unixTimestamp (-1))]
  nodup := List.nodup_singleton _

/-- A second before 1970 is read as a second before 2 to the power of 64. -/
theorem parseInstructionData_beforeEpoch :
    parseInstructionData (b58encode beforeEpoch.encode) beforeEpoch.format ≠
      .ok beforeEpoch.values := by
  intro heq
  have hnonneg := (parseInstructionData_eq_values_iff beforeEpoch).mp heq _ List.mem_cons_self
  exact absurd hnonneg (by decide)

end ColivingSpec.Solana
