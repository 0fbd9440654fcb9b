import ColivingSpec.Contracts.ClaimsManager
import ColivingSpec.Contracts.ServiceTypeManager

/-!
# Service providers

`ServiceProviderFactory.sol`: endpoints by type and id with a reverse index by
endpoint hash, the direct stake of each provider with its bounds, and the requests
that change stake or cut after a lockup.
-/

namespace ColivingSpec

open Lib

namespace ServiceProviderFactory

/-- `ServiceProviderFactory.sol:16`. -/
def deployerCutBase : ℕ := 100

variable [Keccak256] (w : Wiring) (msg : Msg)

variable (f : ServiceProviderFactory) (sp : Address) (serviceType : Bytes32) (endpoint : String)
  (s : System)

/-- Replace the details of one provider. -/
def setDetails (d : ServiceProviderDetails) : ServiceProviderFactory :=
  { f with spDetails := Function.update f.spDetails sp d }

/-- Write `spDetails[sp].validBounds`. -/
def setValidBounds (validBounds : Bool) : ServiceProviderFactory :=
  f.setDetails sp { f.spDetails sp with validBounds }

/-- Write `spDetails[sp].deployerStake`. -/
def setDeployerStake (deployerStake : ℕ) : ServiceProviderFactory :=
  f.setDetails sp { f.spDetails sp with deployerStake }

/-- Write `decreaseStakeRequests[sp]`. -/
def setDecreaseStakeRequest (r : DecreaseStakeRequest) : ServiceProviderFactory :=
  { f with decreaseStakeRequests := Function.update f.decreaseStakeRequests sp r }

/-- Write `updateDeployerCutRequests[sp]`. -/
def setDeployerCutRequest (r : UpdateDeployerCutRequest) : ServiceProviderFactory :=
  { f with updateDeployerCutRequests := Function.update f.updateDeployerCutRequests sp r }

variable (id duration : ℕ) (g : GovernanceV2) (stakeAmount : ℕ)

/-- Write `serviceProviderTypeIDs[serviceType]`. -/
def setTypeID : ServiceProviderFactory :=
  { f with serviceProviderTypeIDs := Function.update f.serviceProviderTypeIDs serviceType id }

/-- Write `serviceProviderInfo[serviceType][id]`. -/
def setInfo (info : ServiceEndpoint) : ServiceProviderFactory :=
  { f with
    serviceProviderInfo := Function.update f.serviceProviderInfo serviceType
      (Function.update (f.serviceProviderInfo serviceType) id info) }

/-- Write `serviceProviderEndpointToId[keccak256(endpoint)]`. -/
def setEndpointId : ServiceProviderFactory :=
  { f with
    serviceProviderEndpointToId :=
      Function.update f.serviceProviderEndpointToId (keccak256 endpoint) id }

/-- Write `serviceProviderAddressToId[owner][serviceType]`. -/
def setIds (owner : Address) (serviceType : Bytes32) (ids : List ℕ) : ServiceProviderFactory :=
  { f with
    serviceProviderAddressToId := Function.update f.serviceProviderAddressToId owner
      (Function.update (f.serviceProviderAddressToId owner) serviceType ids) }

/-- `ServiceProviderFactory.sol:816–822`. -/
def getServiceProviderIdFromEndpoint : ℕ :=
  f.serviceProviderEndpointToId (keccak256 endpoint)

/-- `ServiceProviderFactory.sol:828–834`. -/
def getServiceProviderIdsFromAddress (ownerAddress : Address) (serviceType : Bytes32) : List ℕ :=
  f.serviceProviderAddressToId ownerAddress serviceType

/-- `ServiceProviderFactory.sol:1098–1108`. -/
def _validateBalanceInternal (amount : ℕ) (f : ServiceProviderFactory) : Except String Unit := do
  require (amount ≤ (f.spDetails sp).maxAccountStake)
    "ServiceProviderFactory: Maximum stake amount exceeded"
  require ((f.spDetails sp).minAccountStake ≤ (f.spDetails sp).deployerStake)
    "ServiceProviderFactory: Minimum stake requirement not met"

/-- `ServiceProviderFactory.sol:924–934`. -/
def validateAccountStakeBalance : Except String Unit :=
  s.spFactory._validateBalanceInternal sp (s.staking.totalStakedFor sp)

/-- The check skipped once the last endpoint is gone, `ServiceProviderFactory.sol:555–557`. -/
def validateWithEndpoints : Except String Unit :=
  if 0 < (s.spFactory.spDetails sp).numberOfEndpoints then
    validateAccountStakeBalance sp s
  else
    .ok ()

/-- `ServiceProviderFactory.sol:1115–1122`. -/
def _decreaseRequestIsPending (f : ServiceProviderFactory) : Bool :=
  0 < (f.decreaseStakeRequests sp).lockupExpiryBlock ∧
    0 < (f.decreaseStakeRequests sp).decreaseAmount

/-- `ServiceProviderFactory.sol:1041–1052`. -/
def _updateServiceProviderBoundStatus : System :=
  let totalSPStake := s.staking.totalStakedFor sp
  let details := s.spFactory.spDetails sp
  let outOfBounds := totalSPStake < details.minAccountStake ∨ details.maxAccountStake < totalSPStake
  { s with spFactory := s.spFactory.setValidBounds sp (¬ outOfBounds) }

/-- `ServiceProviderFactory.sol:1070–1077`. -/
def _updateDeployerCutLockupDuration (m : ClaimsManager) (duration : ℕ)
    (f : ServiceProviderFactory) : Except String ServiceProviderFactory := do
  require (m.fundingRoundBlockDiff < duration)
    "ServiceProviderFactory: Incoming duration must be greater than funding round block diff"
  return { f with deployerCutLockupDuration := duration }

/-- `ServiceProviderFactory.sol:1083–1091`. -/
def _updateDecreaseStakeLockupDuration (duration : ℕ) (f : ServiceProviderFactory) :
    Except String ServiceProviderFactory := do
  let total ← SafeMath.add g.votingPeriod g.executionDelay
  require (total < duration)
    "ServiceProviderFactory: decreaseStakeLockupDuration duration must be greater than governance votingPeriod + executionDelay"
  return { f with decreaseStakeLockupDuration := duration }

/-- Storage nothing was written to. -/
def empty : ServiceProviderFactory where
  decreaseStakeLockupDuration := 0
  deployerCutLockupDuration := 0
  spDetails := fun _ ↦ ⟨0, 0, false, 0, 0, 0⟩
  serviceProviderTypeIDs := fun _ ↦ 0
  serviceProviderInfo := fun _ _ ↦ ServiceEndpoint.empty
  serviceProviderEndpointToId := fun _ ↦ 0
  serviceProviderAddressToId := fun _ _ ↦ []
  decreaseStakeRequests := fun _ ↦ ⟨0, 0⟩
  updateDeployerCutRequests := fun _ ↦ ⟨0, 0⟩

/-- `ServiceProviderFactory.sol:193–205`. -/
def initialStorage (m : ClaimsManager) (decreaseStakeLockupDuration deployerCutLockupDuration : ℕ) :
    Except String ServiceProviderFactory := do
  let f ← empty._updateDecreaseStakeLockupDuration g decreaseStakeLockupDuration
  f._updateDeployerCutLockupDuration m deployerCutLockupDuration

/-- The stake `register` takes in, `ServiceProviderFactory.sol:232–238`. -/
def registerStake (s : System) : Except String System :=
  if 0 < stakeAmount then do
    require (!ClaimsManager.claimPending msg.sender s)
      "ServiceProviderFactory: No pending claim expected"
    Staking.stakeFor w (msg.calledBy w.serviceProviderFactory) msg.sender stakeAmount s
  else
    .ok s

/-- `ServiceProviderFactory.sol:216–294`. -/
def register (delegateOwnerWallet : Address) (s : System) :
    Except String (System × ℕ) := do
  require (s.serviceTypeManager.serviceTypeIsValid serviceType)
    "ServiceProviderFactory: Valid service type required"
  let s ← registerStake w msg stakeAmount s
  let f := s.spFactory
  require (f.serviceProviderEndpointToId (keccak256 endpoint) = 0)
    "ServiceProviderFactory: Endpoint already registered"
  let newServiceProviderID ← SafeMath.add (f.serviceProviderTypeIDs serviceType) 1
  let details := f.spDetails msg.sender
  let numberOfEndpoints ← SafeMath.add details.numberOfEndpoints 1
  let deployerStake ← SafeMath.add details.deployerStake stakeAmount
  let info := s.serviceTypeManager.serviceTypeInfo serviceType
  let minAccountStake ← SafeMath.add details.minAccountStake info.minStake
  let maxAccountStake ← SafeMath.add details.maxAccountStake info.maxStake
  let f := f.setTypeID serviceType newServiceProviderID
  let f := f.setInfo serviceType newServiceProviderID
    ⟨msg.sender, endpoint, msg.blockNumber, delegateOwnerWallet⟩
  let f := f.setEndpointId endpoint newServiceProviderID
  let f := f.setIds msg.sender serviceType
    (f.serviceProviderAddressToId msg.sender serviceType ++ [newServiceProviderID])
  let f := f.setDetails msg.sender
    { details with numberOfEndpoints, deployerStake, minAccountStake, maxAccountStake }
  validateAccountStakeBalance msg.sender { s with spFactory := f }
  return ({ s with spFactory := f.setValidBounds msg.sender true }, newServiceProviderID)

/-- The withdrawal request of the last endpoint, `ServiceProviderFactory.sol:316–326`. -/
def requestLastStake : Except String ServiceProviderFactory :=
  if (f.spDetails msg.sender).numberOfEndpoints = 1 then do
    let lockupExpiryBlock ← SafeMath.add msg.blockNumber f.decreaseStakeLockupDuration
    return f.setDecreaseStakeRequest msg.sender
      ⟨(f.spDetails msg.sender).deployerStake, lockupExpiryBlock⟩
  else
    .ok f

/-- The bounds check of a provider that keeps endpoints, `ServiceProviderFactory.sol:381–385`. -/
def revalidate (unstaked : Bool) (s : System) : Except String System :=
  if unstaked then
    .ok s
  else do
    validateAccountStakeBalance msg.sender s
    return { s with spFactory := s.spFactory.setValidBounds msg.sender true }

/-- `ServiceProviderFactory.sol:303–388`. -/
def deregister : Except String (System × ℕ) := do
  let unstaked : Bool := (s.spFactory.spDetails msg.sender).numberOfEndpoints = 1
  let f ← s.spFactory.requestLastStake msg
  require (f.serviceProviderEndpointToId (keccak256 endpoint) ≠ 0)
    "ServiceProviderFactory: Endpoint not registered"
  let deregisteredID := f.serviceProviderEndpointToId (keccak256 endpoint)
  let f := f.setEndpointId endpoint 0
  require (keccak256 (f.serviceProviderInfo serviceType deregisteredID).endpoint
      = keccak256 endpoint)
    "ServiceProviderFactory: Invalid endpoint for service type"
  require ((f.serviceProviderInfo serviceType deregisteredID).owner = msg.sender)
    "ServiceProviderFactory: Only callable by endpoint owner"
  let f := f.setInfo serviceType deregisteredID ServiceEndpoint.empty
  let f := f.setIds msg.sender serviceType
    (deleteSlot 0 deregisteredID (f.serviceProviderAddressToId msg.sender serviceType))
  let details := f.spDetails msg.sender
  let numberOfEndpoints ← SafeMath.sub details.numberOfEndpoints 1
  let info := s.serviceTypeManager.serviceTypeInfo serviceType
  let minAccountStake ← SafeMath.sub details.minAccountStake info.minStake
  let maxAccountStake ← SafeMath.sub details.maxAccountStake info.maxStake
  let f := f.setDetails msg.sender
    { details with numberOfEndpoints, minAccountStake, maxAccountStake }
  let s ← revalidate msg unstaked { s with spFactory := f }
  return (s, deregisteredID)

/-- `ServiceProviderFactory.sol:395–440`. -/
def increaseStake (increaseStakeAmount : ℕ) (s : System) : Except String (System × ℕ) := do
  require (0 < (s.spFactory.spDetails msg.sender).numberOfEndpoints)
    "ServiceProviderFactory: Registered endpoint required to increase stake"
  require (!ClaimsManager.claimPending msg.sender s)
    "ServiceProviderFactory: No claim expected to be pending prior to stake transfer"
  let s ← Staking.stakeFor w (msg.calledBy w.serviceProviderFactory) msg.sender
    increaseStakeAmount s
  let newStakeAmount := s.staking.totalStakedFor msg.sender
  let deployerStake ← SafeMath.add (s.spFactory.spDetails msg.sender).deployerStake
    increaseStakeAmount
  let f := s.spFactory.setDeployerStake msg.sender deployerStake
  validateAccountStakeBalance msg.sender { s with spFactory := f }
  return ({ s with spFactory := f.setValidBounds msg.sender true }, newStakeAmount)

/-- `ServiceProviderFactory.sol:449–482`. The amount is compared with the whole stake
of the account, delegations included, and not with the direct stake. -/
def requestDecreaseStake (decreaseStakeAmount : ℕ) (s : System) : Except String (System × ℕ) := do
  require (0 < decreaseStakeAmount)
    "ServiceProviderFactory: Requested stake decrease amount must be greater than zero"
  require (!ClaimsManager.claimPending msg.sender s)
    "ServiceProviderFactory: No claim expected to be pending prior to stake transfer"
  let currentStakeAmount := s.staking.totalStakedFor msg.sender
  let remaining ← SafeMath.sub currentStakeAmount decreaseStakeAmount
  s.spFactory._validateBalanceInternal msg.sender remaining
  let expiryBlock ← SafeMath.add msg.blockNumber s.spFactory.decreaseStakeLockupDuration
  let f := s.spFactory.setDecreaseStakeRequest msg.sender ⟨decreaseStakeAmount, expiryBlock⟩
  return ({ s with spFactory := f }, remaining)

/-- `ServiceProviderFactory.sol:490–517`. -/
def cancelDecreaseStakeRequest (account : Address) (s : System) : Except String System := do
  require (msg.sender = account ∨ msg.sender = w.delegateManager)
    "ServiceProviderFactory: Only owner or DelegateManager"
  require (s.spFactory._decreaseRequestIsPending account)
    "ServiceProviderFactory: Decrease stake request must be pending"
  return { s with spFactory := s.spFactory.setDecreaseStakeRequest account ⟨0, 0⟩ }

/-- `ServiceProviderFactory.sol:523–567`. -/
def decreaseStake : Except String (System × ℕ) := do
  require (s.spFactory._decreaseRequestIsPending msg.sender)
    "ServiceProviderFactory: Decrease stake request must be pending"
  let request := s.spFactory.decreaseStakeRequests msg.sender
  require (request.lockupExpiryBlock ≤ msg.blockNumber)
    "ServiceProviderFactory: Lockup must be expired"
  let s ← Staking.unstakeFor w (msg.calledBy w.serviceProviderFactory) msg.sender
    request.decreaseAmount s
  let newStakeAmount := s.staking.totalStakedFor msg.sender
  let deployerStake ← SafeMath.sub (s.spFactory.spDetails msg.sender).deployerStake
    request.decreaseAmount
  let f := s.spFactory.setDeployerStake msg.sender deployerStake
  validateWithEndpoints msg.sender { s with spFactory := f }
  let f := f.setValidBounds msg.sender true
  return ({ s with spFactory := f.setDecreaseStakeRequest msg.sender ⟨0, 0⟩ }, newStakeAmount)

/-- `ServiceProviderFactory.sol:575–597`. -/
def updateDelegateOwnerWallet (updatedDelegateOwnerWallet : Address) (s : System) :
    Except String System := do
  let spID := s.spFactory.getServiceProviderIdFromEndpoint endpoint
  let info := s.spFactory.serviceProviderInfo serviceType spID
  require (info.owner = msg.sender)
    "ServiceProviderFactory: Invalid update operation, wrong owner"
  let updated := { info with delegateOwnerWallet := updatedDelegateOwnerWallet }
  return { s with spFactory := s.spFactory.setInfo serviceType spID updated }

/-- `ServiceProviderFactory.sol:606–641`. Nothing asks whether the new endpoint is
already registered. -/
def updateEndpoint (oldEndpoint newEndpoint : String) (s : System) :
    Except String (System × ℕ) := do
  let f := s.spFactory
  let spId := f.getServiceProviderIdFromEndpoint oldEndpoint
  require (spId ≠ 0) "ServiceProviderFactory: Could not find service provider with that endpoint"
  let serviceEndpoint := f.serviceProviderInfo serviceType spId
  require (serviceEndpoint.owner = msg.sender)
    "ServiceProviderFactory: Invalid update endpoint operation, wrong owner"
  require (keccak256 serviceEndpoint.endpoint = keccak256 oldEndpoint)
    "ServiceProviderFactory: Old endpoint doesn't match what's registered for the service provider"
  let f := f.setEndpointId serviceEndpoint.endpoint 0
  let f := f.setInfo serviceType spId { serviceEndpoint with endpoint := newEndpoint }
  return ({ s with spFactory := f.setEndpointId newEndpoint spId }, spId)

/-- `ServiceProviderFactory.sol:648–675`. -/
def requestUpdateDeployerCut (cut : ℕ) (s : System) : Except String System := do
  require (msg.sender = sp ∨ msg.sender = w.governance)
    "ServiceProviderFactory: Only callable by Service Provider or Governance"
  require ((s.spFactory.updateDeployerCutRequests sp).lockupExpiryBlock = 0 ∧
      (s.spFactory.updateDeployerCutRequests sp).newDeployerCut = 0)
    "ServiceProviderFactory: Update deployer cut operation pending"
  require (cut ≤ deployerCutBase)
    "ServiceProviderFactory: Service Provider cut cannot exceed base value"
  let expiryBlock ← SafeMath.add msg.blockNumber s.spFactory.deployerCutLockupDuration
  return { s with spFactory := s.spFactory.setDeployerCutRequest sp ⟨cut, expiryBlock⟩ }

/-- `ServiceProviderFactory.sol:1137–1142`. -/
def _requirePendingDeployerCutOperation (f : ServiceProviderFactory) : Except String Unit :=
  require ((f.updateDeployerCutRequests sp).lockupExpiryBlock ≠ 0)
    "ServiceProviderFactory: No update deployer cut operation pending"

/-- `ServiceProviderFactory.sol:681–702`. -/
def cancelUpdateDeployerCut : Except String System := do
  s.spFactory._requirePendingDeployerCutOperation sp
  require (msg.sender = sp ∨ msg.sender = w.governance)
    "ServiceProviderFactory: Only callable by Service Provider or Governance"
  return { s with spFactory := s.spFactory.setDeployerCutRequest sp ⟨0, 0⟩ }

/-- `ServiceProviderFactory.sol:710–736`. -/
def updateDeployerCut : Except String System := do
  s.spFactory._requirePendingDeployerCutOperation sp
  require (msg.sender = sp ∨ msg.sender = w.governance)
    "ServiceProviderFactory: Only callable by Service Provider or Governance"
  let request := s.spFactory.updateDeployerCutRequests sp
  require (request.lockupExpiryBlock ≤ msg.blockNumber)
    "ServiceProviderFactory: Lockup must be expired"
  let f := s.spFactory.setDetails sp
    { s.spFactory.spDetails sp with deployerCut := request.newDeployerCut }
  return { s with spFactory := f.setDeployerCutRequest sp ⟨0, 0⟩ }

/-- `ServiceProviderFactory.sol:744–760`. -/
def updateServiceProviderStake (amount : ℕ) (s : System) : Except String System := do
  require (msg.sender = w.delegateManager)
    "ServiceProviderFactory: only callable by DelegateManager"
  let f := s.spFactory.setDeployerStake sp amount
  return _updateServiceProviderBoundStatus sp { s with spFactory := f }

/-- `ServiceProviderFactory.sol:763–773`. -/
def updateDecreaseStakeLockupDuration (s : System) : Except String System := do
  require (msg.sender = w.governance)
    "ServiceProviderFactory: Only callable by Governance contract"
  let spFactory ← s.spFactory._updateDecreaseStakeLockupDuration s.governance duration
  return { s with spFactory }

/-- `ServiceProviderFactory.sol:776–786`. -/
def updateDeployerCutLockupDuration (s : System) : Except String System := do
  require (msg.sender = w.governance)
    "ServiceProviderFactory: Only callable by Governance contract"
  let spFactory ← s.spFactory._updateDeployerCutLockupDuration s.claimsManager duration
  return { s with spFactory }

end ServiceProviderFactory

end ColivingSpec
