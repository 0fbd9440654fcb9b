import ColivingSpec.Contracts.Checkpointing
import ColivingSpec.Eth.ERC20
import ColivingSpec.Governance.Storage

/-!
# Contract storage

The storage of the five staking contracts, the addresses that wire them together,
and the system they make with the token and governance. The contracts are taken
initialised and wired: the addresses are set before a run and stay, so the checks
`_requireIsInitialized` and `_require…AddressIsSet` pass and are not repeated in
the functions. Events are not modelled, no function reads them.
-/

namespace ColivingSpec

/-! ### Staking -/

/-- `Staking.sol:35–38`. -/
structure Account where
  stakedHistory : History
  claimHistory : History

/-- `Staking.sol:40–47`. -/
structure Staking where
  accounts : Address → Account
  totalStakedHistory : History

/-! ### ServiceTypeManager -/

/-- `ServiceTypeManager.sol:29–33`. -/
structure ServiceTypeInfo where
  isValid : Bool
  minStake : ℕ
  maxStake : ℕ

/-- `ServiceTypeManager.sol:13–36`. -/
structure ServiceTypeManager where
  serviceTypeVersions : Bytes32 → List Bytes32
  serviceTypeVersionInfo : Bytes32 → Bytes32 → Bool
  validServiceTypes : List Bytes32
  serviceTypeInfo : Bytes32 → ServiceTypeInfo

/-! ### ServiceProviderFactory -/

/-- `ServiceProviderFactory.sol:46–53`. -/
structure ServiceProviderDetails where
  deployerStake : ℕ
  deployerCut : ℕ
  validBounds : Bool
  numberOfEndpoints : ℕ
  minAccountStake : ℕ
  maxAccountStake : ℕ

/-- `ServiceProviderFactory.sol:56–59`. -/
structure DecreaseStakeRequest where
  decreaseAmount : ℕ
  lockupExpiryBlock : ℕ

/-- `ServiceProviderFactory.sol:62–65`. -/
structure UpdateDeployerCutRequest where
  newDeployerCut : ℕ
  lockupExpiryBlock : ℕ

/-- `ServiceProviderFactory.sol:69–74`. -/
structure ServiceEndpoint where
  owner : Address
  endpoint : String
  blocknumber : ℕ
  delegateOwnerWallet : Address

/-- The value a deleted or never written `ServiceEndpoint` slot has. -/
def ServiceEndpoint.empty : ServiceEndpoint := ⟨0, "", 0, 0⟩

/-- `ServiceProviderFactory.sol:34–104`. -/
structure ServiceProviderFactory [Keccak256] where
  decreaseStakeLockupDuration : ℕ
  deployerCutLockupDuration : ℕ
  spDetails : Address → ServiceProviderDetails
  serviceProviderTypeIDs : Bytes32 → ℕ
  serviceProviderInfo : Bytes32 → ℕ → ServiceEndpoint
  serviceProviderEndpointToId : Keccak256.Digest → ℕ
  serviceProviderAddressToId : Address → Bytes32 → List ℕ
  decreaseStakeRequests : Address → DecreaseStakeRequest
  updateDeployerCutRequests : Address → UpdateDeployerCutRequest

/-! ### DelegateManagerV2 -/

/-- `DelegateManagerV2.sol:68–72`. -/
structure ServiceProviderDelegateInfo where
  totalDelegatedStake : ℕ
  totalLockedUpStake : ℕ
  delegators : List Address

/-- `DelegateManagerV2.sol:75–79`. -/
structure UndelegateStakeRequest where
  serviceProvider : Address
  amount : ℕ
  lockupExpiryBlock : ℕ

/-- `DelegateManagerV2.sol:42–167`. -/
structure DelegateManagerV2 where
  undelegateLockupDuration : ℕ
  maxDelegators : ℕ
  minDelegationAmount : ℕ
  removeDelegatorLockupDuration : ℕ
  removeDelegatorEvalDuration : ℕ
  spDelegateInfo : Address → ServiceProviderDelegateInfo
  delegateInfo : Address → Address → ℕ
  delegatorTotalStake : Address → ℕ
  undelegateRequests : Address → UndelegateStakeRequest
  removeDelegatorRequests : Address → Address → ℕ
  spMinDelegationAmounts : Address → ℕ

/-! ### ClaimsManager -/

/-- `ClaimsManager.sol:65–69`. -/
structure Round where
  fundedBlock : ℕ
  fundedAmount : ℕ
  totalClaimedInRound : ℕ

/-- `ClaimsManager.sol:34–72`. -/
structure ClaimsManager where
  fundingRoundBlockDiff : ℕ
  fundingAmount : ℕ
  roundNumber : ℕ
  communityPoolAddress : Address
  recurringCommunityFundingAmount : ℕ
  currentRound : Round

/-! ### The wired system -/

/-- The addresses the contracts are deployed at. -/
structure Wiring where
  token : Address
  staking : Address
  serviceProviderFactory : Address
  delegateManager : Address
  claimsManager : Address
  serviceTypeManager : Address
  governance : Address
  distinct : [token, staking, serviceProviderFactory, delegateManager, claimsManager,
    serviceTypeManager, governance].Nodup
  nonzero : 0 ∉ [token, staking, serviceProviderFactory, delegateManager, claimsManager,
    serviceTypeManager, governance]

namespace Wiring

/-- The contracts that call nobody but each other and the token. -/
def contracts (w : Wiring) : List Address :=
  [w.token, w.staking, w.serviceProviderFactory, w.delegateManager, w.claimsManager,
    w.serviceTypeManager]

variable (w : Wiring)

theorem claimsManager_ne_staking : w.claimsManager ≠ w.staking := by
  have h := w.distinct
  simp only [List.nodup_cons, List.mem_cons, not_or] at h
  exact Ne.symm h.2.1.2.2.1

theorem governance_notMem_contracts : w.governance ∉ w.contracts := by
  have h := w.distinct
  simp only [List.nodup_cons, List.mem_cons, not_or] at h
  simp only [contracts, List.mem_cons, not_or]
  refine ⟨?_, ?_, ?_, ?_, ?_, ?_, List.not_mem_nil⟩ <;> apply Ne.symm <;> tauto

theorem governance_ne_zero : w.governance ≠ 0 := by
  intro h
  exact w.nonzero (by simp [h])

theorem staking_ne_zero : w.staking ≠ 0 := by
  intro h
  exact w.nonzero (by simp [h])

/-- Someone else's account: a user or a contract outside the system. -/
def Outside (w : Wiring) (a : Address) : Prop := a ≠ 0 ∧ a ∉ w.contracts ∧ a ≠ w.governance

instance (w : Wiring) (a : Address) : Decidable (w.Outside a) :=
  inferInstanceAs (Decidable (_ ∧ _ ∧ _))

/-- A caller of the external functions: anybody but the contracts that call each other. -/
structure Caller (w : Wiring) (a : Address) : Prop where
  nonzero : a ≠ 0
  notMem : a ∉ w.contracts

theorem Outside.caller {w : Wiring} {a : Address} (h : w.Outside a) : w.Caller a := ⟨h.1, h.2.1⟩

theorem caller_governance : w.Caller w.governance :=
  ⟨w.governance_ne_zero, w.governance_notMem_contracts⟩

namespace Caller

variable {w : Wiring} {a : Address} (h : w.Caller a)

include h

theorem ne_staking : a ≠ w.staking := fun heq ↦ h.notMem (by simp [contracts, heq])

theorem ne_serviceProviderFactory : a ≠ w.serviceProviderFactory :=
  fun heq ↦ h.notMem (by simp [contracts, heq])

theorem ne_delegateManager : a ≠ w.delegateManager := fun heq ↦ h.notMem (by simp [contracts, heq])

theorem ne_claimsManager : a ≠ w.claimsManager := fun heq ↦ h.notMem (by simp [contracts, heq])

end Caller

end Wiring

/-- The storage of all contracts. -/
structure System [Keccak256] where
  token : ERC20
  staking : Staking
  spFactory : ServiceProviderFactory
  delegateManager : DelegateManagerV2
  claimsManager : ClaimsManager
  serviceTypeManager : ServiceTypeManager
  governance : GovernanceV2

end ColivingSpec
