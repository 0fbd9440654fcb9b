import ColivingSpec.Contracts.Storage

/-!
# Staking

`Staking.sol`: staked balances by account and in total, each with its history by
block, and the claim history of each account. Tokens enter through an allowance and
leave by transfer or burning.
-/

namespace ColivingSpec

open Lib

namespace Staking

variable (st : Staking) (account : Address) (blockNumber : ℕ)

/-- `Staking.sol:408–413`. -/
def totalStakedFor : ℕ :=
  (st.accounts account).stakedHistory.getLast

/-- `Staking.sol:419–424`. -/
def totalStaked : ℕ := st.totalStakedHistory.getLast

/-- `Staking.sol:325–333`. -/
def lastClaimedFor : ℕ :=
  (st.accounts account).claimHistory.lastTime

/-- `Staking.sol:341–348`. -/
def totalStakedForAt : Except String ℕ := do
  let time ← toUint64 blockNumber
  return (st.accounts account).stakedHistory.get time

/-- `Staking.sol:355–359`. -/
def totalStakedAt : Except String ℕ := do
  let time ← toUint64 blockNumber
  return st.totalStakedHistory.get time

/-- Replace the record of one account. -/
def setAccount (a : Account) : Staking :=
  { st with accounts := Function.update st.accounts account a }

/-- `Staking.sol:520–527`, also `Staking.sol:541–546`: the balance after the change. -/
def modified (current amount : ℕ) (increase : Bool) : Except String ℕ :=
  if increase then SafeMath.add current amount else SafeMath.sub current amount

/-- `Staking.sol:516–531`. -/
def _modifyStakeBalance (account : Address) (amount : ℕ) (increase : Bool) (st : Staking) :
    Except String Staking := do
  let currentInternalStake := st.totalStakedFor account
  require (increase ∨ amount ≤ currentInternalStake)
    "Staking: Cannot decrease greater than current balance"
  let newStake ← modified currentInternalStake amount increase
  let time ← toUint64 blockNumber
  let stakedHistory ← (st.accounts account).stakedHistory.add time newStake
  return st.setAccount account { st.accounts account with stakedHistory }

/-- `Staking.sol:538–550`. -/
def _modifyTotalStaked (amount : ℕ) (increase : Bool) (st : Staking) : Except String Staking := do
  let newStake ← modified st.totalStaked amount increase
  let time ← toUint64 blockNumber
  let totalStakedHistory ← st.totalStakedHistory.add time newStake
  return { st with totalStakedHistory }

/-- The two checkpoints every movement of stake writes. -/
def moveStake (account : Address) (amount : ℕ) (increase : Bool) (st : Staking) :
    Except String Staking := do
  let st ← st._modifyStakeBalance blockNumber account amount increase
  st._modifyTotalStaked blockNumber amount increase

/-- Body of `updateClaimHistory`, `Staking.sol:154–155`. -/
def addClaim (account : Address) (amount : ℕ) (st : Staking) : Except String Staking := do
  let time ← toUint64 blockNumber
  let claimHistory ← (st.accounts account).claimHistory.add time amount
  return st.setAccount account { st.accounts account with claimHistory }

/-- Storage after deployment. -/
def initialStorage : Staking := ⟨fun _ ↦ ⟨[], []⟩, []⟩

variable [Keccak256] (w : Wiring) (msg : Msg)

variable (stakeAccount : Address) (amount : ℕ) (accountAddress : Address)

variable (transferAccount stakerAccount delegatorAddress : Address)

/-- `Staking.sol:434–456`. -/
def _stakeFor (amount : ℕ) (s : System) : Except String System := do
  require (0 < amount) "Staking: Zero amount not allowed"
  let staking ← s.staking.moveStake msg.blockNumber stakeAccount amount true
  let token ← s.token.transferFrom (msg.calledBy w.staking) transferAccount w.staking amount
  return { s with staking, token }

/-- `Staking.sol:464–486`. -/
def _unstakeFor (amount : ℕ) (s : System) : Except String System := do
  require (0 < amount) "Staking: Zero amount not allowed"
  let staking ← s.staking.moveStake msg.blockNumber stakeAccount amount false
  let token ← s.token.transfer (msg.calledBy w.staking) transferAccount amount
  return { s with staking, token }

/-- `Staking.sol:494–508`. -/
def _burnFor (s : System) : Except String System := do
  require (0 < amount) "Staking: Zero amount not allowed"
  let staking ← s.staking.moveStake msg.blockNumber stakeAccount amount false
  let token ← s.token.burn (msg.calledBy w.staking) amount
  return { s with staking, token }

/-- `Staking.sol:145–156`. -/
def updateClaimHistory (s : System) : Except String System := do
  require (msg.sender = w.claimsManager ∨ msg.sender = w.staking)
    "Staking: Only callable from ClaimsManager or Staking.sol"
  let staking ← s.staking.addClaim msg.blockNumber stakerAccount amount
  return { s with staking }

/-- `Staking.sol:127–138`. -/
def stakeRewards (s : System) : Except String System := do
  require (msg.sender = w.claimsManager) "Staking: Only callable from ClaimsManager"
  let s ← _stakeFor w msg stakerAccount msg.sender amount s
  updateClaimHistory w (msg.calledBy w.staking) amount stakerAccount s

/-- `Staking.sol:164–185`. -/
def slash (slashAddress : Address) (s : System) : Except String System := do
  require (msg.sender = w.delegateManager) "Staking: Only callable from DelegateManager"
  _burnFor w msg slashAddress amount s

/-- `Staking.sol:192–209`. -/
def stakeFor (amount : ℕ) (s : System) : Except String System := do
  require (msg.sender = w.serviceProviderFactory)
    "Staking: Only callable from ServiceProviderFactory"
  _stakeFor w msg accountAddress accountAddress amount s

/-- `Staking.sol:216–233`. -/
def unstakeFor (amount : ℕ) (s : System) : Except String System := do
  require (msg.sender = w.serviceProviderFactory)
    "Staking: Only callable from ServiceProviderFactory"
  _unstakeFor w msg accountAddress accountAddress amount s

/-- `Staking.sol:242–258`. -/
def delegateStakeFor (amount : ℕ) (s : System) :
    Except String System := do
  require (msg.sender = w.delegateManager) "Staking: Only callable from DelegateManager"
  _stakeFor w msg accountAddress delegatorAddress amount s

/-- `Staking.sol:267–283`. -/
def undelegateStakeFor (amount : ℕ) (s : System) :
    Except String System := do
  require (msg.sender = w.delegateManager) "Staking: Only callable from DelegateManager"
  _unstakeFor w msg accountAddress delegatorAddress amount s

end Staking

end ColivingSpec
