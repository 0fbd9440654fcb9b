import ColivingSpec.Contracts.ServiceProviderFactory

/-!
# Delegation

`DelegateManagerV2.sol`: who delegates how much to whom, the withdrawal and removal
requests with their lockups, and the two loops that spread a reward or a slash over
the delegators of a provider.
-/

namespace ColivingSpec

open Lib

namespace DelegateManagerV2

/-! ### Storage helpers -/

variable (d : DelegateManagerV2) (sp delegator : Address) (g : GovernanceV2)

/-- Replace the delegation record of one provider. -/
def setSpInfo (i : ServiceProviderDelegateInfo) : DelegateManagerV2 :=
  { d with spDelegateInfo := Function.update d.spDelegateInfo sp i }

/-- Write `spDelegateInfo[sp].totalDelegatedStake`. -/
def setTotalDelegatedStake (totalDelegatedStake : ℕ) : DelegateManagerV2 :=
  d.setSpInfo sp { d.spDelegateInfo sp with totalDelegatedStake }

/-- Write `spDelegateInfo[sp].delegators`. -/
def setDelegators (delegators : List Address) : DelegateManagerV2 :=
  d.setSpInfo sp { d.spDelegateInfo sp with delegators }

/-- `DelegateManagerV2.sol:1201–1207`. -/
def _updateServiceProviderLockupAmount (totalLockedUpStake : ℕ) (d : DelegateManagerV2) :
    DelegateManagerV2 :=
  d.setSpInfo sp { d.spDelegateInfo sp with totalLockedUpStake }

/-- Write `delegateInfo[delegator][sp]`. -/
def setDelegateInfo (sp : Address) (amount : ℕ) : DelegateManagerV2 :=
  { d with
    delegateInfo := Function.update d.delegateInfo delegator
      (Function.update (d.delegateInfo delegator) sp amount) }

/-- `DelegateManagerV2.sol:1191–1194`. -/
def _updateDelegatorTotalStake (amount : ℕ) (d : DelegateManagerV2) : DelegateManagerV2 :=
  { d with delegatorTotalStake := Function.update d.delegatorTotalStake delegator amount }

/-- `DelegateManagerV2.sol:1137–1153`. -/
def _updateDelegatorStake (sp : Address) (totalServiceProviderDelegatedStake
    totalStakedForSpFromDelegator totalDelegatorStake : ℕ) (d : DelegateManagerV2) :
    DelegateManagerV2 :=
  let d := d.setTotalDelegatedStake sp totalServiceProviderDelegatedStake
  let d := d.setDelegateInfo delegator sp totalStakedForSpFromDelegator
  d._updateDelegatorTotalStake delegator totalDelegatorStake

/-- `DelegateManagerV2.sol:1171–1184`. -/
def _updateUndelegateStakeRequest (request : UndelegateStakeRequest) (d : DelegateManagerV2) :
    DelegateManagerV2 :=
  { d with undelegateRequests := Function.update d.undelegateRequests delegator request }

/-- `DelegateManagerV2.sol:1159–1162`. -/
def _resetUndelegateStakeRequest (d : DelegateManagerV2) : DelegateManagerV2 :=
  d._updateUndelegateStakeRequest delegator ⟨0, 0, 0⟩

/-- Write `removeDelegatorRequests[sp][delegator]`. -/
def setRemoveDelegatorRequest (lockupExpiryBlock : ℕ) : DelegateManagerV2 :=
  { d with
    removeDelegatorRequests := Function.update d.removeDelegatorRequests sp
      (Function.update (d.removeDelegatorRequests sp) delegator lockupExpiryBlock) }

/-- `DelegateManagerV2.sol:1209–1220`. -/
def _removeFromDelegatorsList (d : DelegateManagerV2) : DelegateManagerV2 :=
  d.setDelegators sp (deleteSlot 0 delegator (d.spDelegateInfo sp).delegators)

/-- `DelegateManagerV2.sol:1331–1343`. -/
def _delegatorExistsForSP (sp : Address) (d : DelegateManagerV2) : Bool :=
  delegator ∈ (d.spDelegateInfo sp).delegators

/-- `DelegateManagerV2.sol:1360–1367`. -/
def _undelegateRequestIsPending (d : DelegateManagerV2) : Bool :=
  (d.undelegateRequests delegator).lockupExpiryBlock ≠ 0 ∧
    (d.undelegateRequests delegator).amount ≠ 0 ∧
    (d.undelegateRequests delegator).serviceProvider ≠ 0

/-- The two minimums of `DelegateManagerV2.sol:265–270`. -/
def meetsMinimum (sp : Address) (d : DelegateManagerV2) : Bool :=
  d.minDelegationAmount ≤ d.delegateInfo delegator sp ∧
    d.spMinDelegationAmounts sp ≤ d.delegateInfo delegator sp

/-- `DelegateManagerV2.sol:1303–1310`. -/
def _updateRemoveDelegatorLockupDuration (duration : ℕ) (d : DelegateManagerV2) :
    Except String DelegateManagerV2 := do
  let total ← SafeMath.add g.votingPeriod g.executionDelay
  require (total < duration)
    "DelegateManager: removeDelegatorLockupDuration duration must be greater than governance votingPeriod + executionDelay"
  return { d with removeDelegatorLockupDuration := duration }

/-- `DelegateManagerV2.sol:1316–1323`. -/
def _updateUndelegateLockupDuration (duration : ℕ) (d : DelegateManagerV2) :
    Except String DelegateManagerV2 := do
  let total ← SafeMath.add g.votingPeriod g.executionDelay
  require (total < duration)
    "DelegateManager: undelegateLockupDuration duration must be greater than governance votingPeriod + executionDelay"
  return { d with undelegateLockupDuration := duration }

/-- Storage nothing was written to. -/
def empty : DelegateManagerV2 where
  undelegateLockupDuration := 0
  maxDelegators := 0
  minDelegationAmount := 0
  removeDelegatorLockupDuration := 0
  removeDelegatorEvalDuration := 0
  spDelegateInfo := fun _ ↦ ⟨0, 0, []⟩
  delegateInfo := fun _ _ ↦ 0
  delegatorTotalStake := fun _ ↦ 0
  undelegateRequests := fun _ ↦ ⟨0, 0, 0⟩
  removeDelegatorRequests := fun _ _ ↦ 0
  spMinDelegationAmounts := fun _ ↦ 0

/-- `DelegateManagerV2.sol:189–209`. -/
def initialStorage (undelegateLockupDuration : ℕ) : Except String DelegateManagerV2 := do
  let d := { empty with
    maxDelegators := 175
    minDelegationAmount := 100 * 10 ^ 18 }
  let d ← d._updateUndelegateLockupDuration g undelegateLockupDuration
  let d ← d._updateRemoveDelegatorLockupDuration g 46523
  return { d with removeDelegatorEvalDuration := 6646 }

/-! ### Delegating and undelegating -/

variable [Keccak256] (w : Wiring) (msg : Msg)

variable (sp delegator : Address) (s : System) (duration : ℕ)

/-- Enter a new delegator in the list, `DelegateManagerV2.sol:243–250`. -/
def enlist (sp : Address) (d : DelegateManagerV2) : Except String DelegateManagerV2 :=
  if d._delegatorExistsForSP delegator sp then
    .ok d
  else do
    let d := d.setDelegators sp ((d.spDelegateInfo sp).delegators ++ [delegator])
    require ((d.spDelegateInfo sp).delegators.length ≤ d.maxDelegators)
      "DelegateManager: Maximum delegators exceeded"
    return d

/-- `DelegateManagerV2.sol:217–285`. -/
def delegateStake (targetSP : Address) (amount : ℕ) (s : System) : Except String (System × ℕ) := do
  require (!ClaimsManager.claimPending targetSP s)
    "DelegateManager: Delegation not permitted for SP pending claim"
  let delegator := msg.sender
  let s ← Staking.delegateStakeFor w (msg.calledBy w.delegateManager) targetSP delegator amount s
  let d ← s.delegateManager.enlist delegator targetSP
  let totalDelegated ← SafeMath.add (d.spDelegateInfo targetSP).totalDelegatedStake amount
  let fromDelegator ← SafeMath.add (d.delegateInfo delegator targetSP) amount
  let delegatorTotal ← SafeMath.add (d.delegatorTotalStake delegator) amount
  let d := d._updateDelegatorStake delegator targetSP totalDelegated fromDelegator delegatorTotal
  require (d.meetsMinimum delegator targetSP) "DelegateManager: Minimum delegation amount required"
  let s := { s with delegateManager := d }
  ServiceProviderFactory.validateAccountStakeBalance targetSP s
  return (s, d.delegateInfo delegator targetSP)

/-- `DelegateManagerV2.sol:293–344`. -/
def requestUndelegateStake (target : Address) (amount : ℕ) (s : System) :
    Except String (System × ℕ) := do
  require (0 < amount)
    "DelegateManager: Requested undelegate stake amount must be greater than zero"
  require (!ClaimsManager.claimPending target s)
    "DelegateManager: Undelegate request not permitted for SP pending claim"
  let delegator := msg.sender
  let d := s.delegateManager
  require (d._delegatorExistsForSP delegator target)
    "DelegateManager: Delegator must be staked for SP"
  require (!d._undelegateRequestIsPending delegator) "DelegateManager: No pending lockup expected"
  let currentlyDelegatedToSP := d.delegateInfo delegator target
  require (amount ≤ currentlyDelegatedToSP)
    "DelegateManager: Cannot decrease greater than currently staked for this ServiceProvider"
  let lockupExpiryBlock ← SafeMath.add msg.blockNumber d.undelegateLockupDuration
  let d := d._updateUndelegateStakeRequest delegator ⟨target, amount, lockupExpiryBlock⟩
  let locked ← SafeMath.add (d.spDelegateInfo target).totalLockedUpStake amount
  let d := d._updateServiceProviderLockupAmount target locked
  let remaining ← SafeMath.sub (d.delegateInfo delegator target) amount
  return ({ s with delegateManager := d }, remaining)

/-- `DelegateManagerV2.sol:349–368`. -/
def cancelUndelegateStakeRequest : Except String System := do
  let delegator := msg.sender
  let d := s.delegateManager
  require (d._undelegateRequestIsPending delegator) "DelegateManager: Pending lockup expected"
  let request := d.undelegateRequests delegator
  let locked ← SafeMath.sub (d.spDelegateInfo request.serviceProvider).totalLockedUpStake
    request.amount
  let d := d._updateServiceProviderLockupAmount request.serviceProvider locked
  return { s with delegateManager := d._resetUndelegateStakeRequest delegator }

/-- Take `amount` out of the three delegation totals, `DelegateManagerV2.sol:416–422`
and `DelegateManagerV2.sol:724–730`. -/
def withdraw (sp : Address) (amount : ℕ) (d : DelegateManagerV2) :
    Except String DelegateManagerV2 := do
  let totalDelegated ← SafeMath.sub (d.spDelegateInfo sp).totalDelegatedStake amount
  let fromDelegator ← SafeMath.sub (d.delegateInfo delegator sp) amount
  let delegatorTotal ← SafeMath.sub (d.delegatorTotalStake delegator) amount
  return d._updateDelegatorStake delegator sp totalDelegated fromDelegator delegatorTotal

/-- Strike a delegator without stake off the list, `DelegateManagerV2.sol:435–438`. -/
def delist (sp : Address) (d : DelegateManagerV2) : DelegateManagerV2 :=
  if d.delegateInfo delegator sp = 0 then d._removeFromDelegatorsList sp delegator else d

/-- `DelegateManagerV2.sol:374–463`. -/
def undelegateStake : Except String (System × ℕ) := do
  let delegator := msg.sender
  require (s.delegateManager._undelegateRequestIsPending delegator)
    "DelegateManager: Pending lockup expected"
  let request := s.delegateManager.undelegateRequests delegator
  require (request.lockupExpiryBlock ≤ msg.blockNumber) "DelegateManager: Lockup must be expired"
  require (!ClaimsManager.claimPending request.serviceProvider s)
    "DelegateManager: Undelegate not permitted for SP pending claim"
  let sp := request.serviceProvider
  let s ← Staking.undelegateStakeFor w (msg.calledBy w.delegateManager) sp delegator
    request.amount s
  let d ← s.delegateManager.withdraw delegator sp request.amount
  require (d.meetsMinimum delegator sp ∨ d.delegateInfo delegator sp = 0)
    "DelegateManager: Minimum delegation amount required"
  let d := d.delist delegator sp
  let locked ← SafeMath.sub (d.spDelegateInfo sp).totalLockedUpStake request.amount
  let d := d._updateServiceProviderLockupAmount sp locked
  let d := d._resetUndelegateStakeRequest delegator
  let spDeployerStake := (s.spFactory.spDetails sp).deployerStake
  let s ← ServiceProviderFactory.updateServiceProviderStake w (msg.calledBy w.delegateManager)
    sp spDeployerStake { s with delegateManager := d }
  return (s, d.delegateInfo delegator sp)

/-! ### Rewards -/

/-- Stake of a delegator that is not locked, `DelegateManagerV2.sol:1245–1249`. -/
def activeStake (sp : Address) (d : DelegateManagerV2) : Except String ℕ :=
  let delegateStakeToSP := d.delegateInfo delegator sp
  if (d.undelegateRequests delegator).serviceProvider = sp then
    SafeMath.sub delegateStakeToSP (d.undelegateRequests delegator).amount
  else
    .ok delegateStakeToSP

/-- Reward of one delegator, `DelegateManagerV2.sol:1252–1268`. -/
def delegateReward (delegateStakeToSP totalActiveFunds totalRewards deployerCut : ℕ) :
    Except String ℕ := do
  let funds ← SafeMath.mul delegateStakeToSP totalRewards
  let rewardsPriorToSPCut ← SafeMath.div funds totalActiveFunds
  let cut ← SafeMath.mul funds deployerCut
  let base ← SafeMath.mul totalActiveFunds ServiceProviderFactory.deployerCutBase
  let spDeployerCut ← SafeMath.div cut base
  SafeMath.sub rewardsPriorToSPCut spDeployerCut

/-- Credit one delegator, `DelegateManagerV2.sol:1269–1278`. -/
def creditDelegator (sp : Address) (reward : ℕ) (d : DelegateManagerV2) :
    Except String DelegateManagerV2 := do
  let fromDelegator ← SafeMath.add (d.delegateInfo delegator sp) reward
  let d := d.setDelegateInfo delegator sp fromDelegator
  let delegatorTotal ← SafeMath.add (d.delegatorTotalStake delegator) reward
  return d._updateDelegatorTotalStake delegator delegatorTotal

/-- `DelegateManagerV2.sol:1230–1285`, the loop over the delegators. -/
def _distributeDelegateRewards (sp : Address) (totalActiveFunds totalRewards deployerCut : ℕ) :
    List Address → ℕ → DelegateManagerV2 → Except String (DelegateManagerV2 × ℕ)
  | [], totalDelegatedStakeIncrease, d => .ok (d, totalDelegatedStakeIncrease)
  | delegator :: rest, totalDelegatedStakeIncrease, d => do
    let delegateStakeToSP ← d.activeStake delegator sp
    let reward ← delegateReward delegateStakeToSP totalActiveFunds totalRewards deployerCut
    let d ← d.creditDelegator delegator sp reward
    let totalDelegatedStakeIncrease ← SafeMath.add totalDelegatedStakeIncrease reward
    d._distributeDelegateRewards sp totalActiveFunds totalRewards deployerCut rest
      totalDelegatedStakeIncrease

/-- What `_validateClaimRewards` returns. -/
structure ClaimBalances where
  totalBalanceInStaking : ℕ
  totalBalanceInSPFactory : ℕ
  totalActiveFunds : ℕ
  totalRewards : ℕ
  deployerCut : ℕ

/-- Locked stake of a provider and its delegators, `DelegateManagerV2.sol:1083–1086`. -/
def totalLockedUpStake (sp : Address) (s : System) : Except String ℕ :=
  SafeMath.add (s.delegateManager.spDelegateInfo sp).totalLockedUpStake
    (s.spFactory.decreaseStakeRequests sp).decreaseAmount

/-- `DelegateManagerV2.sol:1072–1127`. -/
def _validateClaimRewards : Except String (System × ClaimBalances) := do
  let totalLockedUpStake ← totalLockedUpStake sp s
  let (s, mintedRewards) ← ClaimsManager.processClaim w (msg.calledBy w.delegateManager) sp
    totalLockedUpStake s
  let totalBalanceInStaking := s.staking.totalStakedFor sp
  let totalBalanceInSPFactory := (s.spFactory.spDetails sp).deployerStake
  let deployerCut := (s.spFactory.spDetails sp).deployerCut
  let totalBalanceOutsideStaking ← SafeMath.add totalBalanceInSPFactory
    (s.delegateManager.spDelegateInfo sp).totalDelegatedStake
  let totalActiveFunds ← SafeMath.sub totalBalanceOutsideStaking totalLockedUpStake
  let staked ← SafeMath.sub totalBalanceInStaking totalBalanceOutsideStaking
  require (mintedRewards = staked) "DelegateManager: Reward amount mismatch"
  return (s, ⟨totalBalanceInStaking, totalBalanceInSPFactory, totalActiveFunds, mintedRewards,
    deployerCut⟩)

/-- Spreading a nonzero reward, `DelegateManagerV2.sol:493–522`. -/
def payRewards (b : ClaimBalances) (s : System) : Except String System := do
  let (d, totalDelegatedStakeIncrease) ← s.delegateManager._distributeDelegateRewards sp
    b.totalActiveFunds b.totalRewards b.deployerCut
    (s.delegateManager.spDelegateInfo sp).delegators 0
  let totalDelegated ← SafeMath.add (d.spDelegateInfo sp).totalDelegatedStake
    totalDelegatedStakeIncrease
  let d := d.setTotalDelegatedStake sp totalDelegated
  let spRewardShare ← SafeMath.sub b.totalRewards totalDelegatedStakeIncrease
  let newSPFactoryBalance ← SafeMath.add b.totalBalanceInSPFactory spRewardShare
  let total ← SafeMath.add newSPFactoryBalance (d.spDelegateInfo sp).totalDelegatedStake
  require (b.totalBalanceInStaking = total) "DelegateManager: claimRewards amount mismatch"
  ServiceProviderFactory.updateServiceProviderStake w (msg.calledBy w.delegateManager) sp
    newSPFactoryBalance { s with delegateManager := d }

/-- `DelegateManagerV2.sol:470–523`. -/
def claimRewards : Except String System := do
  let (s, balances) ← _validateClaimRewards w msg sp s
  if balances.totalRewards = 0 then
    return s
  else
    payRewards w msg sp balances s

/-! ### Slashing -/

/-- Drop the pending request of a slashed delegator, whichever provider it is for,
`DelegateManagerV2.sol:597–606`. -/
def dropRequest (d : DelegateManagerV2) : Except String DelegateManagerV2 :=
  if (d.undelegateRequests delegator).amount ≠ 0 then do
    let unstakeSP := (d.undelegateRequests delegator).serviceProvider
    let unstakeAmount := (d.undelegateRequests delegator).amount
    let locked ← SafeMath.sub (d.spDelegateInfo unstakeSP).totalLockedUpStake unstakeAmount
    let d := d._updateServiceProviderLockupAmount unstakeSP locked
    return d._resetUndelegateStakeRequest delegator
  else
    .ok d

/-- Scale down one delegator, `DelegateManagerV2.sol:576–594`. -/
def slashDelegator (preSlash afterSlash totalDelegatedStakeDecrease : ℕ) (d : DelegateManagerV2) :
    Except String (DelegateManagerV2 × ℕ) := do
  let preSlashDelegateStake := d.delegateInfo delegator sp
  let scaled ← SafeMath.mul afterSlash preSlashDelegateStake
  let newDelegateStake ← SafeMath.div scaled preSlash
  let decrease ← SafeMath.sub preSlashDelegateStake newDelegateStake
  let fromDelegator ← SafeMath.sub (d.delegateInfo delegator sp) decrease
  let d := d.setDelegateInfo delegator sp fromDelegator
  let delegatorTotal ← SafeMath.sub (d.delegatorTotalStake delegator) decrease
  let d := d._updateDelegatorTotalStake delegator delegatorTotal
  let totalDelegatedStakeDecrease ← SafeMath.add totalDelegatedStakeDecrease decrease
  return (d, totalDelegatedStakeDecrease)

/-- The loop of `DelegateManagerV2.sol:574–607`. -/
def slashDelegators (sp : Address) (preSlash afterSlash : ℕ) :
    List Address → ℕ → DelegateManagerV2 → Except String (DelegateManagerV2 × ℕ)
  | [], totalDelegatedStakeDecrease, d => .ok (d, totalDelegatedStakeDecrease)
  | delegator :: rest, totalDelegatedStakeDecrease, d => do
    let (d, totalDelegatedStakeDecrease) ←
      d.slashDelegator sp delegator preSlash afterSlash totalDelegatedStakeDecrease
    let d ← d.dropRequest delegator
    d.slashDelegators sp preSlash afterSlash rest totalDelegatedStakeDecrease

/-- Cancel the pending withdrawal of a slashed provider, `DelegateManagerV2.sol:551–554`. -/
def cancelPendingDecrease : Except String System :=
  if 0 < (s.spFactory.decreaseStakeRequests sp).decreaseAmount then
    ServiceProviderFactory.cancelDecreaseStakeRequest w (msg.calledBy w.delegateManager) sp s
  else
    .ok s

/-- `DelegateManagerV2.sol:531–625`. -/
def slash (amount : ℕ) (slashAddress : Address) (s : System) : Except String System := do
  require (msg.sender = w.governance) "DelegateManager: Only callable by Governance contract"
  let preSlash := s.staking.totalStakedFor slashAddress
  require (amount ≤ preSlash) "DelegateManager: Cannot slash more than total currently staked"
  let s ← cancelPendingDecrease w msg slashAddress s
  let totalBalanceInSPFactory := (s.spFactory.spDetails slashAddress).deployerStake
  require (0 < totalBalanceInSPFactory) "DelegateManager: Service Provider stake required"
  let s ← Staking.slash w (msg.calledBy w.delegateManager) amount slashAddress s
  let afterSlash := s.staking.totalStakedFor slashAddress
  let (d, totalDelegatedStakeDecrease) ← s.delegateManager.slashDelegators slashAddress preSlash
    afterSlash (s.delegateManager.spDelegateInfo slashAddress).delegators 0
  let totalDelegated ← SafeMath.sub (d.spDelegateInfo slashAddress).totalDelegatedStake
    totalDelegatedStakeDecrease
  let d := d.setTotalDelegatedStake slashAddress totalDelegated
  let totalStakeDecrease ← SafeMath.sub preSlash afterSlash
  let totalSPFactoryBalanceDecrease ← SafeMath.sub totalStakeDecrease totalDelegatedStakeDecrease
  let newSPFactoryBalance ← SafeMath.sub totalBalanceInSPFactory totalSPFactoryBalanceDecrease
  ServiceProviderFactory.updateServiceProviderStake w (msg.calledBy w.delegateManager)
    slashAddress newSPFactoryBalance { s with delegateManager := d }

/-! ### Forced removal -/

/-- `DelegateManagerV2.sol:632–660`. -/
def requestRemoveDelegator : Except String System := do
  let d := s.delegateManager
  require (msg.sender = sp ∨ msg.sender = w.governance)
    "DelegateManager: Only callable by target SP or governance"
  require (d.removeDelegatorRequests sp delegator = 0)
    "DelegateManager: Pending remove delegator request"
  require (d._delegatorExistsForSP delegator sp) "DelegateManager: Delegator must be staked for SP"
  let lockupExpiryBlock ← SafeMath.add msg.blockNumber d.removeDelegatorLockupDuration
  return { s with delegateManager := d.setRemoveDelegatorRequest sp delegator lockupExpiryBlock }

/-- `DelegateManagerV2.sol:667–679`. -/
def cancelRemoveDelegatorRequest : Except String System := do
  let d := s.delegateManager
  require (msg.sender = sp ∨ msg.sender = w.governance)
    "DelegateManager: Only callable by target SP or governance"
  require (d.removeDelegatorRequests sp delegator ≠ 0) "DelegateManager: No pending request"
  return { s with delegateManager := d.setRemoveDelegatorRequest sp delegator 0 }

/-- Drop the request of a removed delegator when it is for this provider,
`DelegateManagerV2.sol:732–742`. -/
def dropRequestFor (sp : Address) (d : DelegateManagerV2) : Except String DelegateManagerV2 :=
  if d._undelegateRequestIsPending delegator ∧
      (d.undelegateRequests delegator).serviceProvider = sp then do
    let locked ← SafeMath.sub (d.spDelegateInfo sp).totalLockedUpStake
      (d.undelegateRequests delegator).amount
    let d := d._updateServiceProviderLockupAmount sp locked
    return d._resetUndelegateStakeRequest delegator
  else
    .ok d

/-- `DelegateManagerV2.sol:686–748`. -/
def removeDelegator : Except String System := do
  require (msg.sender = sp ∨ msg.sender = w.governance)
    "DelegateManager: Only callable by target SP or governance"
  let expiry := s.delegateManager.removeDelegatorRequests sp delegator
  require (expiry ≠ 0) "DelegateManager: No pending request"
  require (expiry ≤ msg.blockNumber) "DelegateManager: Lockup must be expired"
  let lastBlock ← SafeMath.add expiry s.delegateManager.removeDelegatorEvalDuration
  require (msg.blockNumber < lastBlock)
    "DelegateManager: RemoveDelegator evaluation window expired"
  let unstakeAmount := s.delegateManager.delegateInfo delegator sp
  let s ← Staking.undelegateStakeFor w (msg.calledBy w.delegateManager) sp delegator
    unstakeAmount s
  let d ← s.delegateManager.withdraw delegator sp unstakeAmount
  let d ← d.dropRequestFor delegator sp
  let d := d._removeFromDelegatorsList sp delegator
  return { s with delegateManager := d.setRemoveDelegatorRequest sp delegator 0 }

/-! ### Settings -/

/-- `DelegateManagerV2.sol:757–778`. -/
def updateSPMinDelegationAmount (spMinDelegationAmount : ℕ) (s : System) :
    Except String System := do
  require (msg.sender = sp) "DelegateManager: Only callable by valid Service Provider"
  require (0 < (s.spFactory.spDetails sp).numberOfEndpoints)
    "DelegateManager: Only callable by valid Service Provider"
  let d := s.delegateManager
  let amounts := Function.update d.spMinDelegationAmounts sp spMinDelegationAmount
  return { s with delegateManager := { d with spMinDelegationAmounts := amounts } }

/-- A setting only governance changes. -/
def configure (change : DelegateManagerV2 → Except String DelegateManagerV2) (s : System) :
    Except String System := do
  require (msg.sender = w.governance) "DelegateManager: Only callable by Governance contract"
  let delegateManager ← change s.delegateManager
  return { s with delegateManager }

/-- `DelegateManagerV2.sol:784–791`. -/
def updateUndelegateLockupDuration (s : System) : Except String System :=
  configure w msg (_updateUndelegateLockupDuration s.governance duration) s

/-- `DelegateManagerV2.sol:797–804`. -/
def updateMaxDelegators (maxDelegators : ℕ) (s : System) : Except String System :=
  configure w msg (fun d ↦ .ok { d with maxDelegators }) s

/-- `DelegateManagerV2.sol:810–817`. -/
def updateMinDelegationAmount (minDelegationAmount : ℕ) (s : System) : Except String System :=
  configure w msg (fun d ↦ .ok { d with minDelegationAmount }) s

/-- `DelegateManagerV2.sol:823–830`. -/
def updateRemoveDelegatorLockupDuration (s : System) : Except String System :=
  configure w msg (_updateRemoveDelegatorLockupDuration s.governance duration) s

/-- `DelegateManagerV2.sol:836–843`. -/
def updateRemoveDelegatorEvalDuration (s : System) : Except String System :=
  configure w msg (fun d ↦ .ok { d with removeDelegatorEvalDuration := duration }) s

end DelegateManagerV2

end ColivingSpec
