import ColivingSpec.Contracts.Funds
import ColivingSpec.Contracts.ServiceProviderFactory

/-!
# What the provider calls do

One statement for each function of `ServiceProviderFactory.sol` that moves stake or
endpoints: the guards it passed and the storage it leaves.
-/

namespace ColivingSpec

open Lib

namespace ServiceProviderFactory

variable [Keccak256] {w : Wiring} {msg : Msg} {s s' : System} {result : ℕ} {amount : ℕ}
  {serviceType : Bytes32} {endpoint : String} {wallet : Address}

/-- The stake of a registration comes in from the provider, when there is any. -/
theorem registerStake_moved (hsender : msg.sender ≠ w.staking)
    (h : registerStake w msg amount s = .ok s') :
    Moved w msg.blockNumber msg.sender (s.staking.totalStakedFor msg.sender + amount) s s' := by
  unfold registerStake at h
  split at h
  · unfold Staking.stakeFor at h
    simp only [↓require_bind_eq_ok] at h
    exact Staking._stakeFor_moved hsender h.2.2
  · next hzero =>
    obtain rfl : amount = 0 := by omega
    cases h
    exact ⟨.of_eq rfl rfl, .of_eq rfl rfl, ⟨rfl, rfl, rfl, rfl⟩, rfl⟩

@[simp] theorem setValidBounds_setDetails (f : ServiceProviderFactory) (sp : Address)
    (d : ServiceProviderDetails) (v : Bool) :
    (f.setDetails sp d).setValidBounds sp v = f.setDetails sp { d with validBounds := v } := by
  simp [setValidBounds, setDetails]

/-- The number of endpoints and the bounds of the account stand. -/
structure SameTally (d d' : ServiceProviderDetails) : Prop where
  numberOfEndpoints : d'.numberOfEndpoints = d.numberOfEndpoints
  minAccountStake : d'.minAccountStake = d.minAccountStake
  maxAccountStake : d'.maxAccountStake = d.maxAccountStake

omit [Keccak256] in
@[refl] theorem SameTally.refl (d : ServiceProviderDetails) : SameTally d d := ⟨rfl, rfl, rfl⟩

/-- The id lists, the tallies and the flags stand. -/
structure SameAccounts (f f' : ServiceProviderFactory) : Prop where
  serviceProviderAddressToId : f'.serviceProviderAddressToId = f.serviceProviderAddressToId
  tally : ∀ o, SameTally (f.spDetails o) (f'.spDetails o)
  validBounds : ∀ o, (f'.spDetails o).validBounds = (f.spDetails o).validBounds

/-- A factory with the same details and lists. -/
theorem SameAccounts.of_eq {f f' : ServiceProviderFactory}
    (hids : f'.serviceProviderAddressToId = f.serviceProviderAddressToId)
    (hdetails : f'.spDetails = f.spDetails) : SameAccounts f f' :=
  ⟨hids, fun o ↦ by rw [hdetails], fun o ↦ by rw [hdetails]⟩

/-- The details of a provider after a registration. -/
def registeredDetails (details : ServiceProviderDetails) (info : ServiceTypeInfo) (amount : ℕ) :
    ServiceProviderDetails where
  deployerStake := details.deployerStake + amount
  deployerCut := details.deployerCut
  validBounds := true
  numberOfEndpoints := details.numberOfEndpoints + 1
  minAccountStake := details.minAccountStake + info.minStake
  maxAccountStake := details.maxAccountStake + info.maxStake

/-- A registration takes the next id of its type for an endpoint without an id. -/
theorem register_eq_ok (hsender : msg.sender ≠ w.staking)
    (h : register w msg serviceType endpoint amount wallet s = .ok (s', result)) :
    ∃ mid,
      Moved w msg.blockNumber msg.sender (s.staking.totalStakedFor msg.sender + amount) s mid ∧
      s.spFactory.serviceProviderEndpointToId (keccak256 endpoint) = 0 ∧
      result = s.spFactory.serviceProviderTypeIDs serviceType + 1 ∧
      s' = { mid with
        spFactory :=
          ((((s.spFactory.setTypeID serviceType result).setInfo serviceType result
            ⟨msg.sender, endpoint, msg.blockNumber, wallet⟩).setEndpointId endpoint result).setIds
              msg.sender serviceType
              (s.spFactory.serviceProviderAddressToId msg.sender serviceType
                ++ [result])).setDetails msg.sender
                (registeredDetails (s.spFactory.spDetails msg.sender)
                  (s.serviceTypeManager.serviceTypeInfo serviceType) amount) } := by
  unfold register at h
  simp only [↓require_bind_eq_ok] at h
  obtain ⟨-, h⟩ := h
  obtain ⟨mid, hstake, h⟩ := bind_eq_ok.mp h
  have hmoved := registerStake_moved hsender hstake
  simp only [↓require_bind_eq_ok, ↓add_bind_eq_ok, setValidBounds_setDetails,
    hmoved.records.spFactory, hmoved.records.serviceTypeManager] at h
  obtain ⟨hfree, -, -, -, -, -, h⟩ := h
  obtain ⟨-, -, h⟩ := bind_eq_ok.mp h
  obtain ⟨rfl, rfl⟩ := h
  refine ⟨mid, hmoved, hfree, rfl, ?_⟩
  rw [hmoved.records.serviceTypeManager]
  rfl

/-- The request of a provider that gives up its last endpoint. -/
theorem requestLastStake_eq_ok {f f' : ServiceProviderFactory}
    (h : f.requestLastStake msg = .ok f') :
    f' = f ∨ f' = f.setDecreaseStakeRequest msg.sender ⟨(f.spDetails msg.sender).deployerStake,
      msg.blockNumber + f.decreaseStakeLockupDuration⟩ := by
  unfold requestLastStake at h
  split at h
  · simp only [↓add_bind_eq_ok, pure_eq_ok] at h
    exact .inr h.2.symm
  · cases h
    exact .inl rfl

/-- A deregistration empties the record the endpoint's id leads to. -/
theorem deregister_eq_ok (h : deregister msg serviceType endpoint s = .ok (s', result)) :
    ∃ f details, s.spFactory.requestLastStake msg = .ok f ∧
      result = f.serviceProviderEndpointToId (keccak256 endpoint) ∧ result ≠ 0 ∧
      keccak256 (f.serviceProviderInfo serviceType result).endpoint = keccak256 endpoint ∧
      (f.serviceProviderInfo serviceType result).owner = msg.sender ∧
      s' = { s with
        spFactory :=
          (((f.setEndpointId endpoint 0).setInfo serviceType result ServiceEndpoint.empty).setIds
            msg.sender serviceType (deleteSlot 0 result
              (f.serviceProviderAddressToId msg.sender serviceType))).setDetails
                msg.sender details } ∧
      details.deployerStake = (f.spDetails msg.sender).deployerStake ∧
      details.deployerCut = (f.spDetails msg.sender).deployerCut ∧
      (f.spDetails msg.sender).numberOfEndpoints = details.numberOfEndpoints + 1 ∧
      (f.spDetails msg.sender).minAccountStake
        = details.minAccountStake + (s.serviceTypeManager.serviceTypeInfo serviceType).minStake ∧
      (f.spDetails msg.sender).maxAccountStake
        = details.maxAccountStake + (s.serviceTypeManager.serviceTypeInfo serviceType).maxStake := by
  obtain ⟨f, hlast, h⟩ := bind_eq_ok.mp h
  simp only [↓require_bind_eq_ok, ↓sub_bind_eq_ok] at h
  obtain ⟨hid, hendpoint, howner, hcount, hmin, hmax, h⟩ := h
  obtain ⟨mid, hrevalidate, h⟩ := bind_eq_ok.mp h
  obtain ⟨rfl, rfl⟩ := h
  unfold revalidate at hrevalidate
  split at hrevalidate
  · cases hrevalidate
    exact ⟨f, _, hlast, rfl, hid, hendpoint, howner, rfl, rfl, rfl,
      (Nat.sub_add_cancel hcount).symm, (Nat.sub_add_cancel hmin).symm,
      (Nat.sub_add_cancel hmax).symm⟩
  · obtain ⟨-, -, h⟩ := bind_eq_ok.mp hrevalidate
    simp only [pure_eq_ok, setValidBounds_setDetails] at h
    subst h
    exact ⟨f, _, hlast, rfl, hid, hendpoint, howner, rfl, rfl, rfl,
      (Nat.sub_add_cancel hcount).symm, (Nat.sub_add_cancel hmin).symm,
      (Nat.sub_add_cancel hmax).symm⟩

/-- A renaming moves the id of the caller's record from the old endpoint to the new one. -/
theorem updateEndpoint_eq_ok {oldEndpoint newEndpoint : String}
    (h : updateEndpoint msg serviceType oldEndpoint newEndpoint s = .ok (s', result)) :
    result = s.spFactory.serviceProviderEndpointToId (keccak256 oldEndpoint) ∧
      (s.spFactory.serviceProviderInfo serviceType result).owner = msg.sender ∧
      keccak256 (s.spFactory.serviceProviderInfo serviceType result).endpoint
        = keccak256 oldEndpoint ∧
      s' = { s with
        spFactory := ((s.spFactory.setEndpointId
          (s.spFactory.serviceProviderInfo serviceType result).endpoint 0).setInfo serviceType
            result { s.spFactory.serviceProviderInfo serviceType result with
              endpoint := newEndpoint }).setEndpointId newEndpoint result } := by
  unfold updateEndpoint at h
  simp only [↓require_bind_eq_ok, pure_eq_ok, Prod.mk.injEq] at h
  obtain ⟨-, howner, hendpoint, rfl, rfl⟩ := h
  exact ⟨rfl, howner, hendpoint, rfl⟩

/-- A new wallet for a record of the caller. -/
theorem updateDelegateOwnerWallet_eq_ok
    (h : updateDelegateOwnerWallet msg serviceType endpoint wallet s = .ok s') :
    ∃ id, (s.spFactory.serviceProviderInfo serviceType id).owner = msg.sender ∧
      id = s.spFactory.serviceProviderEndpointToId (keccak256 endpoint) ∧
      s' = { s with
        spFactory := s.spFactory.setInfo serviceType id
          { s.spFactory.serviceProviderInfo serviceType id with
            delegateOwnerWallet := wallet } } := by
  unfold updateDelegateOwnerWallet at h
  simp only [↓require_bind_eq_ok, pure_eq_ok] at h
  obtain ⟨howner, rfl⟩ := h
  exact ⟨_, howner, rfl, rfl⟩

/-- A registration is of a type that is valid. -/
theorem register_valid (h : register w msg serviceType endpoint amount wallet s = .ok (s', result)) :
    s.serviceTypeManager.serviceTypeIsValid serviceType = true := by
  unfold register at h
  simp only [↓require_bind_eq_ok] at h
  exact h.1

/-- Direct stake of a provider that comes in or goes out, and nothing else of the factory
but the bounds flag and, on the way out, the request. -/
theorem increaseStake_eq_ok (hsender : msg.sender ≠ w.staking)
    (h : increaseStake w msg amount s = .ok (s', result)) :
    ∃ mid details,
      Moved w msg.blockNumber msg.sender (s.staking.totalStakedFor msg.sender + amount) s mid ∧
      s' = { mid with spFactory := s.spFactory.setDetails msg.sender details } ∧
      details.deployerStake = (s.spFactory.spDetails msg.sender).deployerStake + amount ∧
      details.deployerCut = (s.spFactory.spDetails msg.sender).deployerCut ∧
      SameTally (s.spFactory.spDetails msg.sender) details := by
  unfold increaseStake Staking.stakeFor at h
  simp only [↓require_bind_eq_ok] at h
  obtain ⟨-, -, h⟩ := h
  obtain ⟨mid, hstake, h⟩ := bind_eq_ok.mp h
  simp only [↓require_bind_eq_ok, require_bind_eq_ok] at hstake
  have hmoved := Staking._stakeFor_moved hsender hstake.2
  simp only [↓add_bind_eq_ok, setDeployerStake, setValidBounds_setDetails,
    hmoved.records.spFactory] at h
  obtain ⟨-, h⟩ := h
  obtain ⟨-, -, h⟩ := bind_eq_ok.mp h
  obtain ⟨rfl, -⟩ := h
  exact ⟨mid, _, hmoved, rfl, rfl, rfl, rfl, rfl, rfl⟩

/-- A withdrawal takes out exactly what was requested, once the lockup is over. -/
theorem decreaseStake_eq_ok (h : decreaseStake w msg s = .ok (s', result)) :
    ∃ mid details amount, amount = (s.spFactory.decreaseStakeRequests msg.sender).decreaseAmount ∧
      (s.spFactory.decreaseStakeRequests msg.sender).lockupExpiryBlock ≤ msg.blockNumber ∧
      amount ≤ s.staking.totalStakedFor msg.sender ∧
      amount ≤ (s.spFactory.spDetails msg.sender).deployerStake ∧
      Moved w msg.blockNumber msg.sender (s.staking.totalStakedFor msg.sender - amount) s mid ∧
      s' = { mid with
        spFactory := (s.spFactory.setDetails msg.sender details).setDecreaseStakeRequest
          msg.sender ⟨0, 0⟩ } ∧
      details.deployerStake = (s.spFactory.spDetails msg.sender).deployerStake - amount ∧
      details.deployerCut = (s.spFactory.spDetails msg.sender).deployerCut ∧
      SameTally (s.spFactory.spDetails msg.sender) details := by
  unfold decreaseStake Staking.unstakeFor at h
  simp only [↓require_bind_eq_ok] at h
  obtain ⟨-, hexpiry, h⟩ := h
  obtain ⟨mid, hstake, h⟩ := bind_eq_ok.mp h
  simp only [require_bind_eq_ok] at hstake
  obtain ⟨-, hle, hmoved⟩ := Staking._unstakeFor_moved hstake.2
  simp only [↓sub_bind_eq_ok, setDeployerStake, setValidBounds_setDetails,
    hmoved.records.spFactory] at h
  obtain ⟨hleOwn, h⟩ := h
  obtain ⟨-, -, h⟩ := bind_eq_ok.mp h
  obtain ⟨rfl, -⟩ := h
  exact ⟨mid, _, _, rfl, hexpiry, hle, hleOwn, hmoved, rfl, rfl, rfl, rfl, rfl, rfl⟩

end ServiceProviderFactory

end ColivingSpec
