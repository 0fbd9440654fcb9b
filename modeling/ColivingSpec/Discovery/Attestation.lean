import ColivingSpec.Lib.Bytes
import ColivingSpec.Lib.Checked
import Mathlib.Data.List.TakeDrop

/-!
# Attestations

`get_attestation.py`: the bytes a discovery node signs for a completed challenge.
`index_rewards_manager.py`: the reading of the id that a transfer carries. Decoding of
hexadecimal texts and of amounts is a parameter.
-/

namespace ColivingSpec.Discovery

open Lib Lib.Bytes

/-- `WDGC_DECIMALS`: `constants.py:1`. -/
def WDGC_DECIMALS : ℕ := 8

/-- `Attestation`: `get_attestation.py:29–46`. -/
structure Attestation where
  amount : String
  oracle_address : String
  user_address : String
  challenge_id : String
  challenge_specifier : String

namespace Attestation

/-- `to_bytes(hexstr=…)` and `int(…)`. -/
structure Functions where
  to_bytes : String → Except String (List UInt8)
  int : String → Except String ℤ

variable (functions : Functions) (a : Attestation)

/-- `get_attestation.py:60–61`. -/
def _get_combined_id : String := a.challenge_id ++ ":" ++ a.challenge_specifier

/-- `get_attestation.py:63–65`. -/
def _get_encoded_amount : Except String (List UInt8) := do
  let amount ← functions.int a.amount
  let amt := amount * 10 ^ WDGC_DECIMALS
  require (0 ≤ amt) "can't convert negative int to unsigned"
  require (amt < 2 ^ 64) "int too big to convert"
  return ofLittle 8 amt.toNat

/-- `get_attestation.py:67–74`; the separator is `_`. -/
def get_attestation_bytes : Except String (List UInt8) := do
  let user_bytes ← functions.to_bytes a.user_address
  let oracle_bytes ← functions.to_bytes a.oracle_address
  let combined_id_bytes := utf8 a._get_combined_id
  let amount_bytes ← a._get_encoded_amount functions
  return user_bytes ++ 95 :: (amount_bytes ++ 95 :: (combined_id_bytes ++ 95 :: oracle_bytes))

/-- `str.split(":", 1)`. -/
def splitOnce (text : String) : List String :=
  match text.toList.span (· ≠ ':') with
  | (_, []) => [text]
  | (before, _ :: after) => [String.ofList before, String.ofList after]

/-- `index_rewards_manager.py:121–132`. -/
def parse_transfer_instruction_id (transfer_id : String) : Option (List String) :=
  let id_parts := splitOnce transfer_id
  if id_parts.length ≠ 2 then none else some id_parts

variable {functions a} {a' : Attestation} {bytes : List UInt8}

/-- The id of a transfer is read as the challenge and the specifier it was built from. -/
theorem parse_transfer_instruction_id_combined (h : ':' ∉ a.challenge_id.toList) :
    parse_transfer_instruction_id a._get_combined_id
      = some [a.challenge_id, a.challenge_specifier] := by
  have hall : ∀ c ∈ a.challenge_id.toList, decide (c ≠ ':') = true := by
    intro c hc
    rw [decide_eq_true_eq]
    rintro rfl
    exact h hc
  have hspan : a._get_combined_id.toList.span (· ≠ ':')
      = (a.challenge_id.toList, ':' :: a.challenge_specifier.toList) := by
    rw [_get_combined_id, String.toList_append, String.toList_append, List.append_assoc,
      List.span_eq_takeWhile_dropWhile, List.takeWhile_append_of_pos hall,
      List.dropWhile_append_of_pos hall]
    simp
  rw [parse_transfer_instruction_id, splitOnce, hspan]
  simp

/-- What an attestation says, with the addresses as bytes. -/
@[ext] structure Fields where
  user_bytes : List UInt8
  amount : ℤ
  challenge_id : String
  challenge_specifier : String
  oracle_bytes : List UInt8
  deriving DecidableEq

/-- The fields of an attestation whose texts can be read. -/
def fields (functions : Functions) (a : Attestation) : Except String Fields := do
  let user_bytes ← functions.to_bytes a.user_address
  let amount ← functions.int a.amount
  let oracle_bytes ← functions.to_bytes a.oracle_address
  return ⟨user_bytes, amount, a.challenge_id, a.challenge_specifier, oracle_bytes⟩

/-- Addresses of 20 bytes, and a challenge without the separator of ids. -/
structure Fields.Proper (f : Fields) : Prop where
  user_bytes : f.user_bytes.length = 20
  oracle_bytes : f.oracle_bytes.length = 20
  challenge_id : ':' ∉ f.challenge_id.toList

/-- The parts of the signed bytes. -/
theorem get_attestation_bytes_eq_ok {f : Fields} (hf : a.fields functions = .ok f)
    (h : a.get_attestation_bytes functions = .ok bytes) :
    0 ≤ f.amount ∧ f.amount * 10 ^ WDGC_DECIMALS < 2 ^ 64 ∧
      f.challenge_id = a.challenge_id ∧ f.challenge_specifier = a.challenge_specifier ∧
      bytes = f.user_bytes ++ 95 :: (ofLittle 8 (f.amount * 10 ^ WDGC_DECIMALS).toNat ++
        95 :: (utf8 a._get_combined_id ++ 95 :: f.oracle_bytes)) := by
  obtain ⟨user, huser, hf⟩ := bind_eq_ok.mp hf
  obtain ⟨amount, hamount, hf⟩ := bind_eq_ok.mp hf
  obtain ⟨oracle, horacle, hf⟩ := bind_eq_ok.mp hf
  cases hf
  rw [get_attestation_bytes, huser, horacle, ok_bind, ok_bind] at h
  obtain ⟨encoded, hencoded, h⟩ := bind_eq_ok.mp h
  rw [_get_encoded_amount, hamount] at hencoded
  simp only [ok_bind, ↓require_bind_eq_ok, pure_eq_ok] at hencoded h
  obtain ⟨hpos, hlt, rfl⟩ := hencoded
  exact ⟨Int.nonneg_of_mul_nonneg_left hpos (by decide), hlt, rfl, rfl, h.symm⟩

/-- The signed bytes determine all fields, and the id they contain is read as the challenge and the
specifier it was built from. -/
theorem attestation_unambiguous {f f' : Fields} (hf : a.fields functions = .ok f)
    (hf' : a'.fields functions = .ok f') (hproper : f.Proper) (hproper' : f'.Proper)
    (h : a.get_attestation_bytes functions = .ok bytes)
    (h' : a'.get_attestation_bytes functions = .ok bytes) :
    f = f' ∧ parse_transfer_instruction_id a._get_combined_id
      = some [f.challenge_id, f.challenge_specifier] := by
  obtain ⟨hpos, hlt, hid, hspecifier, hbytes⟩ := get_attestation_bytes_eq_ok hf h
  obtain ⟨hpos', hlt', hid', hspecifier', hbytes'⟩ := get_attestation_bytes_eq_ok hf' h'
  have hparse := parse_transfer_instruction_id_combined (hid ▸ hproper.challenge_id)
  have hparse' := parse_transfer_instruction_id_combined (hid' ▸ hproper'.challenge_id)
  rw [hbytes] at hbytes'
  -- The parts whose lengths are known are cut off from both ends.
  obtain ⟨huser, hrest⟩ := List.append_inj hbytes'
    (hproper.user_bytes.trans hproper'.user_bytes.symm)
  obtain ⟨hamount, hrest⟩ := List.append_inj (List.cons.inj hrest).2 (by simp)
  obtain ⟨hcombined, hrest⟩ := List.append_inj' (List.cons.inj hrest).2
    (by simp [hproper.oracle_bytes, hproper'.oracle_bytes])
  rw [utf8_injective hcombined, hparse', ← hid, ← hid', ← hspecifier, ← hspecifier'] at hparse
  rw [utf8_injective hcombined, hparse', ← hid', ← hspecifier', hparse]
  simp only [Option.some.injEq, List.cons.injEq, and_true] at hparse
  have hread := congrArg little hamount
  have hten : (10 : ℤ) ^ WDGC_DECIMALS = 100000000 := rfl
  rw [hten] at hlt hlt' hread
  rw [little_ofLittle (by omega), little_ofLittle (by omega)] at hread
  refine ⟨Fields.ext huser ?_ hparse.1.symm hparse.2.symm (List.cons.inj hrest).2, rfl⟩
  omega

/-- Texts whose characters are the bytes, and decimal amounts. -/
def exampleFunctions : Functions where
  to_bytes text := .ok (text.toList.map fun c ↦ UInt8.ofNat c.toNat)
  int text := ((int? (utf8 text)).elim (.error "invalid literal for int() with base 10") .ok)

/-- A referral, with the text of its amount. -/
def referral (amount : String) : Attestation :=
  ⟨amount, "oracle-of-20-letters", "wallet-of-20-letters", "referrals", "1=>2:3"⟩

/-- What the referral says. -/
def referralFields (amount : String) (h : ((referral amount).fields exampleFunctions).isOk) :
    Fields :=
  valueOf _ h

theorem attestation_unambiguous_referral :
    referralFields "5" (by decide) = referralFields "05" (by decide) ∧
      parse_transfer_instruction_id (referral "5")._get_combined_id
        = some [(referralFields "5" (by decide)).challenge_id,
          (referralFields "5" (by decide)).challenge_specifier] :=
  attestation_unambiguous (eq_ok_valueOf _ _) (eq_ok_valueOf _ _)
    ⟨by decide +kernel, by decide +kernel, by decide +kernel⟩
    ⟨by decide +kernel, by decide +kernel, by decide +kernel⟩
    (eq_ok_valueOf ((referral "5").get_attestation_bytes exampleFunctions) (by decide +kernel))
    (by decide +kernel)

end Attestation

end ColivingSpec.Discovery
