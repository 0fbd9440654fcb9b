import ColivingSpec.Lib.Bytes
import Mathlib.Data.List.TakeWhile
import Mathlib.Data.Nat.Digits.Lemmas

/-!
# Base 58

A byte string as a number in base 58, whose leading zero bytes are written as leading ones. Decoding
gives the bytes back.
-/

namespace ColivingSpec.Lib

namespace Base58

open Bytes List

/-- The digits, in the order of their values. -/
def alphabet : List Char := "123456789ABCDEFGHJKLMNPQRSTUVWXYZabcdefghijkmnopqrstuvwxyz".toList

/-- The character of a digit. -/
def charOf (d : ℕ) : Char := alphabet.getD d '1'

/-- The digits of a number, the highest first. -/
def digits (b n : ℕ) : List ℕ := (Nat.digits b n).reverse

/-- The number that has the digits. -/
def ofDigits (b : ℕ) (ds : List ℕ) : ℕ := ds.foldl (fun n d ↦ b * n + d) 0

/-- `base58.b58encode`. -/
def b58encode (bytes : List UInt8) : String :=
  String.ofList ((bytes.takeWhile (· = 0)).map (fun _ ↦ '1') ++
    (digits 58 (big bytes)).map charOf)

/-- `base58.b58decode` of a text without white space. -/
def b58decode (text : String) : Option (List UInt8) :=
  if text.toList.all (· ∈ alphabet) then
    some ((text.toList.takeWhile (· = '1')).map (fun _ ↦ 0) ++
      (digits 256 (ofDigits 58 (text.toList.map alphabet.idxOf))).map UInt8.ofNat)
  else none

variable (b : ℕ) (bytes : List UInt8)

theorem ofDigits_eq (ds : List ℕ) : ofDigits b ds = Nat.ofDigits b ds.reverse := by
  induction ds using reverseRecOn with
  | nil => rfl
  | append_singleton ds d ih =>
    rw [reverse_append, reverse_singleton, singleton_append, Nat.ofDigits_cons, ← ih,
      ofDigits, foldl_append]
    show b * ofDigits b ds + d = d + b * ofDigits b ds
    omega

theorem ofDigits_digits (n : ℕ) : ofDigits b (digits b n) = n := by
  rw [ofDigits_eq, digits, reverse_reverse, Nat.ofDigits_digits]

/-- Leading zeros do not count. -/
theorem ofDigits_zeros (k : ℕ) (ds : List ℕ) :
    ofDigits b (replicate k 0 ++ ds) = ofDigits b ds := by
  rw [ofDigits_eq, ofDigits_eq, reverse_append, reverse_replicate,
    Nat.ofDigits_append_replicate_zero]

/-- Digits that do not begin with a zero are the digits of their number. -/
theorem digits_ofDigits {b : ℕ} (hb : 1 < b) {ds : List ℕ} (hlt : ∀ d ∈ ds, d < b)
    (hhead : ∀ d ∈ ds.head?, d ≠ 0) : digits b (ofDigits b ds) = ds := by
  rw [ofDigits_eq, digits, Nat.digits_ofDigits b hb, reverse_reverse]
  · intro d hd
    exact hlt d (mem_reverse.mp hd)
  · intro hne
    rw [getLast_reverse]
    exact hhead _ (head?_eq_some_head _)

/-- The digits of a number do not begin with a zero. -/
theorem head?_digits {b n d : ℕ} (hd : d ∈ (digits b n).head?) : d ≠ 0 := by
  rw [digits, head?_reverse] at hd
  have hne : Nat.digits b n ≠ [] := by
    intro hnil
    rw [hnil] at hd
    cases hd
  rw [getLast?_eq_some_getLast hne] at hd
  rw [← Option.some.inj hd]
  apply Nat.getLast_digit_ne_zero
  rintro rfl
  exact hne (Nat.digits_zero b)

theorem big_eq_ofDigits : big bytes = ofDigits 256 (bytes.map UInt8.toNat) := by
  rw [big, ofDigits, foldl_map]

theorem charOf_digit : ∀ d < 58, charOf d ∈ alphabet ∧ alphabet.idxOf (charOf d) = d ∧
    (charOf d = '1' ↔ d = 0) := by
  decide +kernel

/-- Leading elements of one kind, and then no more at once. -/
theorem takeWhile_map_append {α β : Type} [DecidableEq β] (b : β) (l : List α) {rest : List β}
    (hhead : ∀ b' ∈ rest.head?, b' ≠ b) :
    (l.map (fun _ ↦ b) ++ rest).takeWhile (fun b' ↦ decide (b' = b)) = l.map fun _ ↦ b := by
  induction l with
  | nil =>
    cases rest with
    | nil => rfl
    | cons first rest =>
      have hne : first ≠ b := hhead first rfl
      rw [map_nil, nil_append, takeWhile_cons_of_neg (by simpa using hne)]
  | cons a l ih =>
    rw [map_cons, cons_append, takeWhile_cons, if_pos (decide_eq_true rfl), ih]

/-- A byte string is its leading zeros and the rest. -/
theorem zeros_append_dropWhile :
    replicate (bytes.takeWhile (· = 0)).length 0 ++ bytes.dropWhile (· = 0) = bytes := by
  have hzeros : bytes.takeWhile (· = 0) =
      replicate (bytes.takeWhile (· = 0)).length 0 := by
    rw [eq_replicate_iff]
    refine ⟨rfl, ?_⟩
    intro byte hbyte
    have hzero := mem_takeWhile_imp hbyte
    exact of_decide_eq_true hzero
  rw [← hzeros, takeWhile_append_dropWhile]

/-- The digits of a byte string in base 256 are what follows its leading zeros. -/
theorem digits_big :
    (digits 256 (big bytes)).map UInt8.ofNat = bytes.dropWhile (· = 0) := by
  have hnumber : big bytes = ofDigits 256 ((bytes.dropWhile (· = 0)).map UInt8.toNat) := by
    conv_lhs => rw [← zeros_append_dropWhile bytes]
    rw [big_eq_ofDigits, map_append, map_replicate]
    exact ofDigits_zeros 256 _ _
  rw [hnumber, digits_ofDigits (by decide), map_map]
  · exact (map_congr_left fun byte _ ↦ UInt8.ofNat_toNat).trans (map_id _)
  · intro d hd
    obtain ⟨byte, _, rfl⟩ := mem_map.mp hd
    exact byte.toNat_lt
  · intro d hd hzero
    rw [head?_map] at hd
    obtain ⟨byte, hbyte, rfl⟩ := Option.map_eq_some_iff.mp hd
    have hne := head?_dropWhile_not (fun byte : UInt8 ↦ decide (byte = 0)) bytes
    have hbyte0 : byte = 0 := UInt8.toNat_inj.mp hzero
    rw [hbyte, hbyte0] at hne
    exact absurd hne (by decide)

/-- What is the same for every element is a repetition. -/
theorem map_const_of_length {α β γ : Type} (f : β → γ) (b : β) (c : γ) (hf : f b = c)
    (l : List α) : (l.map fun _ ↦ b).map f = replicate l.length c := by
  rw [map_const', map_replicate, hf]

/-- Decoding gives back the bytes that were encoded. -/
theorem b58decode_b58encode : b58decode (b58encode bytes) = some bytes := by
  have hdigit : ∀ d ∈ digits 58 (big bytes), d < 58 := by
    intro d hd
    exact Nat.digits_lt_base (by decide) (mem_reverse.mp hd)
  have hchars : ((digits 58 (big bytes)).map charOf).map alphabet.idxOf =
      digits 58 (big bytes) := by
    rw [map_map]
    exact (map_congr_left fun d hd ↦ (charOf_digit d (hdigit d hd)).2.1).trans (map_id _)
  have hhead : ∀ c ∈ ((digits 58 (big bytes)).map charOf).head?, c ≠ '1' := by
    intro c hc hone
    rw [head?_map] at hc
    obtain ⟨d, hd, rfl⟩ := Option.map_eq_some_iff.mp hc
    exact head?_digits hd ((charOf_digit d (hdigit d (mem_of_head? hd))).2.2.mp hone)
  have hall : ((bytes.takeWhile (· = 0)).map (fun _ ↦ '1') ++
      (digits 58 (big bytes)).map charOf).all (· ∈ alphabet) = true := by
    rw [all_eq_true]
    intro c hc
    rcases mem_append.mp hc with hin | hin
    · obtain ⟨_, _, rfl⟩ := mem_map.mp hin
      decide
    · obtain ⟨d, hd, rfl⟩ := mem_map.mp hin
      exact decide_eq_true (charOf_digit d (hdigit d hd)).1
  rw [b58decode, b58encode, String.toList_ofList, if_pos hall, takeWhile_map_append '1' _ hhead,
    map_append, hchars, map_const_of_length alphabet.idxOf '1' 0 (by decide),
    map_const_of_length (fun _ ↦ (0 : UInt8)) '1' 0 rfl, ofDigits_zeros, ofDigits_digits,
    digits_big, zeros_append_dropWhile]

end Base58

end ColivingSpec.Lib
