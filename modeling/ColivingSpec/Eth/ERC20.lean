import ColivingSpec.Eth.Word

/-!
# The staking token

A standard ERC20 with the minter role of `MinterRole.sol` and the burn functions
of `ERC20Burnable`: balances, allowances, supply, and the calls that change them.
No call hands control to another contract.
-/

namespace ColivingSpec

open Lib

/-- Token storage. An approval by signature is the owner's approval, it needs no event of
its own. -/
structure ERC20 where
  balances : Address → ℕ
  allowances : Address → Address → ℕ
  totalSupply : ℕ
  minters : Address → Bool

namespace ERC20

/-- Move `amount` between two accounts. -/
def _transfer (source target : Address) (amount : ℕ) (t : ERC20) : Except String ERC20 := do
  require (source ≠ 0) "ERC20: transfer from the zero address"
  require (target ≠ 0) "ERC20: transfer to the zero address"
  require (amount ≤ t.balances source) "ERC20: transfer amount exceeds balance"
  let debited := Function.update t.balances source (t.balances source - amount)
  let credit ← SafeMath.add (debited target) amount
  return { t with balances := Function.update debited target credit }

variable (owner spender : Address)

/-- Set the allowance `owner` gives to `spender`. -/
def _approve (amount : ℕ) (t : ERC20) : Except String ERC20 := do
  require (owner ≠ 0) "ERC20: approve from the zero address"
  require (spender ≠ 0) "ERC20: approve to the zero address"
  return { t with allowances :=
    Function.update t.allowances owner (Function.update (t.allowances owner) spender amount) }

/-- Use up an allowance; the largest `uint256` stands for an unlimited one. -/
def _spendAllowance (amount : ℕ) (t : ERC20) : Except String ERC20 :=
  if t.allowances owner spender = uint256Bound - 1 then
    .ok t
  else do
    require (amount ≤ t.allowances owner spender) "ERC20: insufficient allowance"
    _approve owner spender (t.allowances owner spender - amount) t

variable (account : Address) (msg : Msg)

variable (amount : ℕ) (spender : Address)

/-- Create `amount` tokens for `account`. -/
def _mint (t : ERC20) : Except String ERC20 := do
  require (account ≠ 0) "ERC20: mint to the zero address"
  let totalSupply ← SafeMath.add t.totalSupply amount
  let credit ← SafeMath.add (t.balances account) amount
  return { t with totalSupply, balances := Function.update t.balances account credit }

/-- Destroy `amount` tokens of `account`. -/
def _burn (t : ERC20) : Except String ERC20 := do
  require (account ≠ 0) "ERC20: burn from the zero address"
  require (amount ≤ t.balances account) "ERC20: burn amount exceeds balance"
  let totalSupply ← SafeMath.sub t.totalSupply amount
  return { t with
    totalSupply
    balances := Function.update t.balances account (t.balances account - amount) }

/-- Transfer by the owner. -/
def transfer (target : Address) (amount : ℕ) (t : ERC20) : Except String ERC20 :=
  t._transfer msg.sender target amount

/-- Approval by the owner. -/
def approve (amount : ℕ) (t : ERC20) : Except String ERC20 :=
  t._approve msg.sender spender amount

/-- Approval of more, by the owner. -/
def increaseAllowance (amount : ℕ) (t : ERC20) : Except String ERC20 := do
  let allowance ← SafeMath.add (t.allowances msg.sender spender) amount
  t._approve msg.sender spender allowance

/-- Approval of less, by the owner. -/
def decreaseAllowance (amount : ℕ) (t : ERC20) : Except String ERC20 := do
  require (amount ≤ t.allowances msg.sender spender)
    "ERC20: decreased allowance below zero"
  t._approve msg.sender spender (t.allowances msg.sender spender - amount)

/-- Transfer by an approved spender. -/
def transferFrom (source target : Address) (amount : ℕ) (t : ERC20) : Except String ERC20 := do
  let t ← t._spendAllowance source msg.sender amount
  t._transfer source target amount

/-- `ERC20Mintable.sol:20–23`. -/
def mint (account : Address) (amount : ℕ) (t : ERC20) : Except String ERC20 := do
  require (msg.sender ≠ 0) "Roles: account is the zero address"
  require (t.minters msg.sender) "MinterRole: caller does not have the Minter role"
  t._mint account amount

/-- Destruction by the owner. -/
def burn (t : ERC20) : Except String ERC20 :=
  t._burn msg.sender amount

/-- Destruction by an approved spender. -/
def burnFrom (account : Address) (amount : ℕ) (t : ERC20) : Except String ERC20 := do
  let t ← t._spendAllowance account msg.sender amount
  t._burn account amount

/-- `Roles.sol:15–18` on the minter role. -/
def _addMinter (t : ERC20) : Except String ERC20 := do
  require (account ≠ 0) "Roles: account is the zero address"
  require (!t.minters account) "Roles: account already has role"
  return { t with minters := Function.update t.minters account true }

/-- `MinterRole.sol:28–30`. -/
def addMinter (account : Address) (t : ERC20) : Except String ERC20 := do
  require (msg.sender ≠ 0) "Roles: account is the zero address"
  require (t.minters msg.sender) "MinterRole: caller does not have the Minter role"
  t._addMinter account

/-- `MinterRole.sol:32–34`. -/
def renounceMinter (t : ERC20) : Except String ERC20 := do
  require (msg.sender ≠ 0) "Roles: account is the zero address"
  require (t.minters msg.sender) "Roles: account does not have role"
  return { t with minters := Function.update t.minters msg.sender false }

/-- The token before anything is minted; `deployer` holds the minter role
(`MinterRole.sol:15–17`). -/
def genesis (deployer : Address) : ERC20 where
  balances := fun _ ↦ 0
  allowances := fun _ _ ↦ 0
  totalSupply := 0
  minters := Function.update (fun _ ↦ false) deployer true

end ERC20

end ColivingSpec
