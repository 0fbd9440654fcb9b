import Mathlib.Algebra.Ring.Nat
import Mathlib.Data.Fintype.Basic
import ColivingSpec.Lib.Checked

/-!
# Addresses, words and digests

The values the contracts compute with. A `uint256` is a natural number whose
arithmetic is checked at `2 ^ 256`, as in `SafeMath` and in the compiler's own
operators from version 0.8. `keccak256` is a parameter: the contracts use it
only to compare endpoints and to index by them.
-/

namespace ColivingSpec

open Lib

/-- An account address, `address` of the language. -/
structure Address where
  val : Fin (2 ^ 160)
  deriving DecidableEq

namespace Address

/-- There are finitely many addresses, so a mapping over them has a total. -/
instance : Fintype Address :=
  Fintype.ofEquiv (Fin (2 ^ 160)) ⟨Address.mk, Address.val, fun _ ↦ rfl, fun _ ↦ rfl⟩

/-- Address literals; `0` is `address(0x00)`. -/
instance (n : ℕ) : OfNat Address n := ⟨⟨Fin.ofNat (2 ^ 160) n⟩⟩

instance : Inhabited Address := ⟨0⟩

end Address

/-- A `bytes32` key: a service type, a registry key or a code hash. -/
abbrev Bytes32 := ℕ

/-- One more than the largest `uint256`. -/
def uint256Bound : ℕ := 2 ^ 256

/-- One more than the largest `uint192`. -/
def uint192Bound : ℕ := 2 ^ 192

/-- One more than the largest `uint64`. -/
def uint64Bound : ℕ := 2 ^ 64

namespace SafeMath

/-- Addition of `uint256` values. -/
abbrev add (a b : ℕ) : Except String ℕ := Checked.add uint256Bound a b

/-- Subtraction of `uint256` values. -/
abbrev sub (a b : ℕ) : Except String ℕ := Checked.sub a b

/-- Multiplication of `uint256` values. -/
abbrev mul (a b : ℕ) : Except String ℕ := Checked.mul uint256Bound a b

/-- Floor division of `uint256` values. -/
abbrev div (a b : ℕ) : Except String ℕ := Checked.div a b

end SafeMath

/-- `Uint256Helpers.sol:20–23`. -/
def toUint64 (a : ℕ) : Except String ℕ := do
  require (a < uint64Bound) "UINT64_NUMBER_TOO_BIG"
  return a

/-- A narrowed value is the value, below the bound. -/
@[simp] theorem toUint64_bind_eq_ok {β : Type} (a : ℕ) (f : ℕ → Except String β) (r : β) :
    (toUint64 a >>= f) = .ok r ↔ a < uint64Bound ∧ f a = .ok r := by
  unfold toUint64 require
  split <;> simp [*]

/-- The hash the contracts index endpoints by, with its digest type. -/
class Keccak256 where
  Digest : Type
  decEq : DecidableEq Digest
  keccak256 : String → Digest

export Keccak256 (keccak256)

instance [Keccak256] : DecidableEq Keccak256.Digest := Keccak256.decEq

/-- Who calls, and in which block. -/
structure Msg where
  sender : Address
  blockNumber : ℕ

/-- The call a contract at `caller` makes while serving `msg`. -/
def Msg.calledBy (msg : Msg) (caller : Address) : Msg := { msg with sender := caller }

end ColivingSpec
