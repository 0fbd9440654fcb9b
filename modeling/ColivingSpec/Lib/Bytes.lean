import Mathlib.Data.List.Induction
import Mathlib.Tactic.Ring

/-!
# Numbers and texts in byte strings

Byte strings as Python reads them: slices by offsets, integers of a fixed width in either byte
order, UTF-8 text, and the text of an integer.
-/

namespace ColivingSpec.Lib

open List Option

namespace Bytes

variable (bytes : List UInt8) (byte : UInt8)

/-- `bytes[start:stop]`, as far as there are bytes. -/
def slice (start stop : ℕ) : List UInt8 := (bytes.drop start).take (stop - start)

/-- What stands between two offsets of a byte string. -/
theorem slice_append (before content after : List UInt8) (start stop : ℕ)
    (hstart : start = before.length) (hstop : stop = before.length + content.length) :
    slice (before ++ (content ++ after)) start stop = content := by
  have hlength : stop - start = content.length := by omega
  rw [slice, hstart, drop_left, ← hstart, hlength, take_left]

/-! ### Integers of a fixed width -/

/-- `int.from_bytes(bytes, "little")`. -/
def little : List UInt8 → ℕ
  | [] => 0
  | byte :: rest => byte.toNat + 256 * little rest

/-- `int.from_bytes(bytes, "big")`. -/
def big : ℕ := bytes.foldl (fun n byte ↦ 256 * n + byte.toNat) 0

/-- An integer in so many bytes, the lowest first. -/
def ofLittle : ℕ → ℕ → List UInt8
  | 0, _ => []
  | width + 1, n => UInt8.ofNat (n % 256) :: ofLittle width (n / 256)

@[simp] theorem length_ofLittle (width n : ℕ) : (ofLittle width n).length = width := by
  induction width generalizing n with
  | zero => rfl
  | succ width ih => rw [ofLittle, length_cons, ih]

theorem toNat_lt_pow (n : UInt64) : n.toNat < 256 ^ 8 := n.toNat_lt

variable {n : ℕ} {bytes : List UInt8} {m : ℕ} {more : ℕ → List UInt8 → Option ℕ}

/-- A number that fits its width is read as it was written. -/
theorem little_ofLittle {width : ℕ} (h : n < 256 ^ width) : little (ofLittle width n) = n := by
  induction width generalizing n with
  | zero =>
    show 0 = n
    omega
  | succ width ih =>
    have hrest : n / 256 < 256 ^ width := by
      apply Nat.div_lt_of_lt_mul
      rw [Nat.mul_comm, ← Nat.pow_succ]
      exact h
    have hbyte : (UInt8.ofNat (n % 256)).toNat = n % 256 := by
      exact Nat.mod_mod n 256
    rw [ofLittle, little, ih hrest, hbyte]
    exact Nat.mod_add_div n 256

theorem big_concat (bytes : List UInt8) (byte : UInt8) :
    big (bytes ++ [byte]) = 256 * big bytes + byte.toNat := by
  rw [big, foldl_append]
  rfl

/-! ### Hexadecimal text -/

/-- The digits of a number in base 16, with zeros before them up to a width. -/
def hexPadded (width n : ℕ) : List Char :=
  List.replicate (width - (Nat.toDigits 16 n).length) '0' ++ Nat.toDigits 16 n

/-- The two hexadecimal digits of a byte. -/
def hexByte : List Char :=
  [(byte.toNat / 16).digitChar, (byte.toNat % 16).digitChar]

/-- A digit more, behind the others. -/
theorem hexPadded_succ {width : ℕ} (hwidth : 0 < width) (n : ℕ) {d : ℕ} (hd : d < 16) :
    hexPadded (width + 1) (16 * n + d) = hexPadded width n ++ [d.digitChar] := by
  have hone : (Nat.toDigits 16 d) = [d.digitChar] := Nat.toDigits_of_lt_base hd
  rcases Nat.eq_zero_or_pos n with rfl | hn
  · have hzeros : width = (width - 1) + 1 := by omega
    rw [Nat.mul_zero, Nat.zero_add, hexPadded, hexPadded, hone, Nat.toDigits_zero,
      length_singleton, length_singleton, Nat.add_sub_cancel]
    conv_lhs => rw [hzeros, replicate_succ']
  · have happend := Nat.toDigits_append_toDigits (b := 16) (by decide) hn hd
    have hlength : (Nat.toDigits 16 (16 * n + d)).length = (Nat.toDigits 16 n).length + 1 := by
      rw [← happend, hone, length_append, length_singleton]
    rw [hexPadded, hexPadded, hlength, ← happend, hone, Nat.add_sub_add_right, append_assoc]

/-- The padded digits of a number are those of its bytes, one byte after the other. -/
theorem hexPadded_big (hne : bytes ≠ []) :
    hexPadded (2 * bytes.length) (big bytes) = bytes.flatMap hexByte := by
  induction bytes using reverseRecOn with
  | nil => exact absurd rfl hne
  | append_singleton bytes byte ih =>
    have hhigh : byte.toNat / 16 < 16 := by
      have := byte.toNat_lt
      omega
    have hsplit : big (bytes ++ [byte]) =
        16 * (16 * big bytes + byte.toNat / 16) + byte.toNat % 16 := by
      rw [big_concat]
      omega
    have hlength : 2 * (bytes ++ [byte]).length = 2 * bytes.length + 1 + 1 := by
      rw [length_append, length_singleton]
      omega
    rw [hlength, hsplit, hexPadded_succ (by omega) _ (Nat.mod_lt _ (by decide)), flatMap_append,
      flatMap_singleton]
    by_cases hnil : bytes = []
    · subst hnil
      show hexPadded 1 (16 * 0 + byte.toNat / 16) ++ _ = hexByte byte
      rw [Nat.mul_zero, Nat.zero_add, hexPadded, Nat.toDigits_of_lt_base hhigh]
      rfl
    · have hpos := length_pos_iff.mpr hnil
      rw [hexPadded_succ (by omega) _ hhigh, ih hnil, append_assoc]
      rfl

/-! ### UTF-8 -/

/-- The bytes of a text. -/
def utf8 (text : String) : List UInt8 := text.toByteArray.data.toList

/-- `str(bytes, "utf-8")`. -/
def utf8? (bytes : List UInt8) : Option String := String.fromUTF8? ⟨⟨bytes⟩⟩

theorem utf8?_utf8 (text : String) : utf8? (utf8 text) = some text := by
  have hbytes : (⟨⟨utf8 text⟩⟩ : ByteArray) = text.toByteArray := rfl
  rw [utf8?, hbytes, String.fromUTF8?, dif_pos text.isValidUTF8]
  rfl

theorem utf8_injective : Function.Injective utf8 := by
  intro text text' heq
  have hread := congrArg utf8? heq
  rw [utf8?_utf8, utf8?_utf8] at hread
  exact some.inj hread

/-! ### The text of an integer -/

/-- White space around a number. -/
def isSpace : Bool := byte = 32 || (9 ≤ byte && byte ≤ 13)

/-- The value of a decimal digit. -/
def digit? : Option ℕ :=
  if 48 ≤ byte ∧ byte ≤ 57 then some (byte.toNat - 48) else none

/-- Digits to the end, after what has been read. -/
def digits? (n : ℕ) : List UInt8 → Option ℕ
  | [] => some n
  | byte :: rest => (digit? byte).bind fun d ↦ digits? (10 * n + d) rest

/-- Digits to the end, each of which may have one underscore before it. -/
def grouped? (n : ℕ) : List UInt8 → Option ℕ
  | [] => some n
  | 95 :: byte :: rest => (digit? byte).bind fun d ↦ grouped? (10 * n + d) rest
  | byte :: rest => (digit? byte).bind fun d ↦ grouped? (10 * n + d) rest

/-- At least one digit. -/
def natural? (more : ℕ → List UInt8 → Option ℕ) : List UInt8 → Option ℕ
  | [] => none
  | byte :: rest => (digit? byte).bind fun d ↦ more d rest

/-- A sign, if there is one, and a number. -/
def signed? (more : ℕ → List UInt8 → Option ℕ) : List UInt8 → Option ℤ
  | 45 :: rest => (natural? more rest).map fun n : ℕ ↦ -(n : ℤ)
  | 43 :: rest => (natural? more rest).map fun n : ℕ ↦ (n : ℤ)
  | bytes => (natural? more bytes).map fun n : ℕ ↦ (n : ℤ)

/-- A decimal integer: a sign, if there is one, and digits. -/
def decimal? (bytes : List UInt8) : Option ℤ := signed? digits? bytes

/-- `int(bytes)`: white space around the number and underscores between its digits are let pass. -/
def int? (bytes : List UInt8) : Option ℤ :=
  signed? grouped? ((bytes.dropWhile isSpace).reverse.dropWhile isSpace).reverse

/-- A byte that is a digit is no white space. -/
theorem isSpace_eq_false {byte : UInt8} {d : ℕ} (h : digit? byte = some d) :
    isSpace byte = false := by
  unfold digit? at h
  split at h
  case isTrue hrange =>
    have hlow : ¬ byte ≤ 13 := by
      intro hle
      have hle' := UInt8.le_trans hrange.1 hle
      exact absurd hle' (by decide)
    have hne : byte ≠ 32 := by
      rintro rfl
      exact absurd hrange.1 (by decide)
    simp only [isSpace, hlow, hne, decide_false, Bool.and_false, Bool.or_self]
  case isFalse => cases h

theorem not_isSpace_of_digits? (h : digits? n bytes = some m) :
    ∀ byte ∈ bytes, isSpace byte = false := by
  induction bytes generalizing n with
  | nil =>
    intro byte hbyte
    cases hbyte
  | cons first rest ih =>
    obtain ⟨d, hdigit, hrest⟩ := bind_eq_some_iff.mp h
    intro byte hbyte
    rcases mem_cons.mp hbyte with rfl | hbyte
    · exact isSpace_eq_false hdigit
    · exact ih hrest byte hbyte

theorem grouped?_of_digits? (h : digits? n bytes = some m) :
    grouped? n bytes = some m := by
  induction bytes generalizing n with
  | nil => exact h
  | cons first rest ih =>
    obtain ⟨d, hdigit, hrest⟩ := bind_eq_some_iff.mp h
    have hne : first ≠ 95 := by
      rintro rfl
      cases hdigit
    unfold grouped?
    split
    case h_1 heq => exact absurd heq (by simp)
    case h_2 heq => exact absurd (cons.inj heq).1 hne
    case h_3 heq =>
      obtain ⟨rfl, rfl⟩ := cons.inj heq
      rw [hdigit]
      exact ih hrest

theorem natural?_imp {more' : ℕ → List UInt8 → Option ℕ}
    (himp : ∀ n m bytes, more n bytes = some m → more' n bytes = some m)
    (h : natural? more bytes = some m) : natural? more' bytes = some m := by
  cases bytes with
  | nil => cases h
  | cons first rest =>
    obtain ⟨d, hdigit, hrest⟩ := bind_eq_some_iff.mp h
    exact bind_eq_some_iff.mpr ⟨d, hdigit, himp _ _ _ hrest⟩

/-- The digits behind the sign, if there is one. -/
theorem exists_natural?_of_signed? {n : ℤ} (h : signed? more bytes = some n) :
    ∃ sign rest m, bytes = sign ++ rest ∧ (sign = [] ∨ sign = [45] ∨ sign = [43]) ∧
      natural? more rest = some m ∧
        ∀ more', natural? more' rest = some m → signed? more' bytes = some n := by
  unfold signed? at h
  split at h
  case h_1 rest =>
    obtain ⟨m, hm, rfl⟩ := map_eq_some_iff.mp h
    refine ⟨[45], rest, m, rfl, .inr (.inl rfl), hm, ?_⟩
    intro more' hmore
    exact map_eq_some_iff.mpr ⟨m, hmore, rfl⟩
  case h_2 rest =>
    obtain ⟨m, hm, rfl⟩ := map_eq_some_iff.mp h
    refine ⟨[43], rest, m, rfl, .inr (.inr rfl), hm, ?_⟩
    intro more' hmore
    exact map_eq_some_iff.mpr ⟨m, hmore, rfl⟩
  case h_3 hminus hplus =>
    obtain ⟨m, hm, rfl⟩ := map_eq_some_iff.mp h
    refine ⟨[], bytes, m, rfl, .inl rfl, hm, ?_⟩
    intro more' hmore
    unfold signed?
    split
    · exact absurd rfl (hminus _)
    · exact absurd rfl (hplus _)
    · exact map_eq_some_iff.mpr ⟨m, hmore, rfl⟩

/-- A decimal integer is read as the integer it is. -/
theorem int?_of_decimal? {n : ℤ} (h : decimal? bytes = some n) :
    int? bytes = some n := by
  obtain ⟨sign, rest, m, hbytes, hsign, hdigits, hread⟩ := exists_natural?_of_signed? h
  have hrest : ∀ byte ∈ rest, isSpace byte = false := by
    cases rest with
    | nil => cases hdigits
    | cons first rest =>
      obtain ⟨d, hdigit, hmore⟩ := bind_eq_some_iff.mp hdigits
      intro byte hbyte
      rcases mem_cons.mp hbyte with rfl | hbyte
      · exact isSpace_eq_false hdigit
      · exact not_isSpace_of_digits? hmore byte hbyte
  have hall : ∀ byte ∈ bytes, isSpace byte = false := by
    intro byte hbyte
    rw [hbytes] at hbyte
    rcases mem_append.mp hbyte with hin | hin
    · rcases hsign with rfl | rfl | rfl
      · cases hin
      · rw [mem_singleton.mp hin]
        decide
      · rw [mem_singleton.mp hin]
        decide
    · exact hrest byte hin
  have hkeep : ∀ l : List UInt8, (∀ byte ∈ l, isSpace byte = false) → l.dropWhile isSpace = l := by
    intro l hl
    cases l with
    | nil => rfl
    | cons first l => rw [dropWhile_cons_of_neg (by simp [hl first mem_cons_self])]
  rw [int?, hkeep bytes hall,
    hkeep _ fun byte hbyte ↦ hall byte (mem_reverse.mp hbyte), reverse_reverse]
  exact hread grouped? (natural?_imp (fun _ _ _ ↦ grouped?_of_digits?) hdigits)

end Bytes

end ColivingSpec.Lib
