import ColivingSpec.Contracts.DelegationEffects
import ColivingSpec.System.Machine

/-!
# What the calls of a contract have in common

Most calls write the records of one contract and move no stake. This module says so once
for each contract, so that an invariant has to look only at the calls that touch what
it is about. Calls the contracts reserve for each other revert for every caller.
-/

namespace ColivingSpec

open Lib Function ServiceProviderFactory DelegateManagerV2

theorem TokenCall.perform_sound {w : Wiring} {msg : Msg} {t t' : ERC20} {c : TokenCall}
    (hcaller : w.Caller msg.sender)
    (h : c.perform msg t = .ok t') (ht : t.Sound w.staking w.claimsManager) :
    t'.Sound w.staking w.claimsManager ∧ t.balances w.staking ≤ t'.balances w.staking := by
  cases c with
  | transfer target amount =>
    exact ⟨ERC20._transfer_sound h ht, ERC20._transfer_balance_le h _ hcaller.ne_staking.symm⟩
  | approve spender amount =>
    exact ⟨ERC20._approve_sound h (.inl hcaller.ne_staking) ht,
      (congrFun (ERC20._approve_balances h) _).ge⟩
  | increaseAllowance spender amount =>
    unfold perform ERC20.increaseAllowance at h
    rw [add_bind_eq_ok] at h
    exact ⟨ERC20._approve_sound h.2 (.inl hcaller.ne_staking) ht,
      (congrFun (ERC20._approve_balances h.2) _).ge⟩
  | decreaseAllowance spender amount =>
    unfold perform ERC20.decreaseAllowance at h
    rw [require_bind_eq_ok] at h
    exact ⟨ERC20._approve_sound h.2 (.inl hcaller.ne_staking) ht,
      (congrFun (ERC20._approve_balances h.2) _).ge⟩
  | transferFrom source target amount =>
    exact ⟨ERC20.transferFrom_sound h ht, ERC20.transferFrom_balance_le h ht⟩
  | mint account amount =>
    exact ⟨ERC20._mint_sound (ERC20.mint_eq_mint h) ht,
      ERC20._mint_balance_le (ERC20.mint_eq_mint h) _⟩
  | burn amount =>
    exact ⟨ERC20._burn_sound h ht, (ERC20._burn_balance_of_ne h _ hcaller.ne_staking.symm).ge⟩
  | burnFrom account amount => exact ERC20.burnFrom_sound h ht
  | addMinter account =>
    unfold perform ERC20.addMinter ERC20._addMinter at h
    simp only [↓require_bind_eq_ok, pure_eq_ok] at h
    obtain ⟨-, -, -, -, rfl⟩ := h
    refine ⟨⟨ht.supply, ht.unapproved, ?_⟩, le_rfl⟩
    by_cases heq : w.claimsManager = account
    · simp [heq]
    · simp [heq, ht.minter]
  | renounceMinter =>
    unfold perform ERC20.renounceMinter at h
    simp only [↓require_bind_eq_ok, pure_eq_ok] at h
    obtain ⟨-, -, rfl⟩ := h
    exact ⟨⟨ht.supply, ht.unapproved, by simp [hcaller.ne_claimsManager.symm, ht.minter]⟩, le_rfl⟩

variable [Keccak256] {w : Wiring} {msg : Msg} {s s' : System}

/-- Staking serves the other contracts only. -/
theorem StakingCall.perform_reverts {c : StakingCall} (hcaller : w.Caller msg.sender) :
    c.perform w msg s ≠ .ok s' := by
  intro h
  cases c <;>
    simp only [perform, Staking.stakeRewards, Staking.updateClaimHistory, Staking.slash,
      Staking.stakeFor, Staking.unstakeFor, Staking.delegateStakeFor, Staking.undelegateStakeFor,
      require_bind_eq_ok, hcaller.ne_claimsManager, hcaller.ne_staking, hcaller.ne_delegateManager,
      hcaller.ne_serviceProviderFactory, or_self, false_and] at h

/-- Opening a round and processing a claim apart, a call of ClaimsManager is a setting. -/
theorem ClaimsCall.perform_cases {c : ClaimsCall} (hcaller : w.Caller msg.sender)
    (h : c.perform w msg s = .ok s') :
    (c = .initiateRound ∧ ClaimsManager.initiateRound w msg s = .ok s') ∨
      msg.sender = w.governance ∧ ∃ m, s' = { s with claimsManager := m } ∧
        m.currentRound = s.claimsManager.currentRound ∧
        ((∀ amount, c ≠ .updateFundingAmount amount) →
          m.fundingAmount = s.claimsManager.fundingAmount) ∧
        ((∀ diff, c ≠ .updateFundingRoundBlockDiff diff) →
          m.fundingRoundBlockDiff = s.claimsManager.fundingRoundBlockDiff) := by
  cases c with
  | initiateRound => exact .inl ⟨rfl, h⟩
  | processClaim claimer locked =>
    obtain ⟨⟨s'', reward⟩, hclaim, -⟩ := map_eq_ok.mp h
    exact absurd (ClaimsManager.processClaim_claimed hclaim).1 hcaller.ne_delegateManager
  | updateFundingAmount amount =>
    unfold perform ClaimsManager.updateFundingAmount at h
    obtain ⟨hsender, rfl⟩ := ClaimsManager.configure_eq_ok h
    exact .inr ⟨hsender, _, rfl, rfl, fun hne ↦ absurd rfl (hne amount), fun _ ↦ rfl⟩
  | updateFundingRoundBlockDiff diff =>
    unfold perform ClaimsManager.updateFundingRoundBlockDiff at h
    obtain ⟨hsender, rfl⟩ := ClaimsManager.configure_eq_ok h
    exact .inr ⟨hsender, _, rfl, rfl, fun _ ↦ rfl, fun hne ↦ absurd rfl (hne diff)⟩
  | updateRecurringCommunityFundingAmount amount =>
    unfold perform ClaimsManager.updateRecurringCommunityFundingAmount at h
    obtain ⟨hsender, rfl⟩ := ClaimsManager.configure_eq_ok h
    exact .inr ⟨hsender, _, rfl, rfl, fun _ ↦ rfl, fun _ ↦ rfl⟩
  | updateCommunityPoolAddress pool =>
    unfold perform ClaimsManager.updateCommunityPoolAddress at h
    obtain ⟨hsender, rfl⟩ := ClaimsManager.configure_eq_ok h
    exact .inr ⟨hsender, _, rfl, rfl, fun _ ↦ rfl, fun _ ↦ rfl⟩

/-- A call of another contract leaves the records of providers and delegators, and the stake. -/
theorem Call.perform_frame {c : Call} {frame : Option Frame} (hcaller : w.Caller msg.sender)
    (hproviders : ∀ c', c ≠ .providers c') (hdelegation : ∀ c', c ≠ .delegation c')
    (h : c.perform w msg s = .ok (s', frame)) :
    s'.spFactory = s.spFactory ∧ s'.delegateManager = s.delegateManager ∧
      s'.staking = s.staking ∧
      ((∀ c', c ≠ .types c') → s'.serviceTypeManager = s.serviceTypeManager) := by
  cases c with
  | token c =>
    obtain ⟨token, -, rfl, -⟩ := perform_token_eq_ok h
    exact ⟨rfl, rfl, rfl, fun _ ↦ rfl⟩
  | staking c => exact absurd (settled_eq_ok.mp h).1 (StakingCall.perform_reverts hcaller)
  | claims c =>
    rcases c.perform_cases hcaller (settled_eq_ok.mp h).1 with ⟨-, hround⟩ | ⟨-, m, rfl, -⟩
    · obtain ⟨-, token, -, -, rfl⟩ := ClaimsManager.initiateRound_eq_ok hround
      exact ⟨rfl, rfl, rfl, fun _ ↦ rfl⟩
    · exact ⟨rfl, rfl, rfl, fun _ ↦ rfl⟩
  | types c =>
    obtain ⟨m, -, rfl, -⟩ := perform_types_eq_ok h
    exact ⟨rfl, rfl, rfl, fun hno ↦ absurd rfl (hno c)⟩
  | providers c => exact absurd rfl (hproviders c)
  | delegation c => exact absurd rfl (hdelegation c)
  | governance environment a =>
    obtain ⟨g, -, rfl⟩ := perform_governance_eq_ok h
    exact ⟨rfl, rfl, rfl, fun _ ↦ rfl⟩

/-- How a call treats the requests of providers, their cuts, and the lockups of the factory. -/
structure FactoryUpkeep (msg : Msg) (s : System) (f : ServiceProviderFactory) : Prop where
  cut : ∀ x, (f.spDetails x).deployerCut = (s.spFactory.spDetails x).deployerCut ∨
    (f.spDetails x).deployerCut = (s.spFactory.updateDeployerCutRequests x).newDeployerCut
  cutRequest : ∀ x, (f.updateDeployerCutRequests x).newDeployerCut
      = (s.spFactory.updateDeployerCutRequests x).newDeployerCut ∨
    (f.updateDeployerCutRequests x).newDeployerCut ≤ ServiceProviderFactory.deployerCutBase
  maxAccountStake : ∀ x, x ≠ msg.sender →
    (f.spDetails x).maxAccountStake = (s.spFactory.spDetails x).maxAccountStake
  decreaseRequest : ∀ x, f.decreaseStakeRequests x = s.spFactory.decreaseStakeRequests x ∨
    f.decreaseStakeRequests x = ⟨0, 0⟩ ∨
    (f.decreaseStakeRequests x).lockupExpiryBlock
      = msg.blockNumber + s.spFactory.decreaseStakeLockupDuration
  decreaseLockup : f.decreaseStakeLockupDuration = s.spFactory.decreaseStakeLockupDuration ∨
    s.governance.votingPeriod + s.governance.executionDelay < f.decreaseStakeLockupDuration
  cutLockup : f.deployerCutLockupDuration = s.spFactory.deployerCutLockupDuration ∨
    s.claimsManager.fundingRoundBlockDiff < f.deployerCutLockupDuration

/-- Requests and lockups stand. -/
theorem FactoryUpkeep.of_same {f : ServiceProviderFactory}
    (hcut : ∀ x, (f.spDetails x).deployerCut = (s.spFactory.spDetails x).deployerCut)
    (hmax : ∀ x, x ≠ msg.sender →
      (f.spDetails x).maxAccountStake = (s.spFactory.spDetails x).maxAccountStake)
    (hcuts : f.updateDeployerCutRequests = s.spFactory.updateDeployerCutRequests)
    (hdecreases : ∀ x, f.decreaseStakeRequests x = s.spFactory.decreaseStakeRequests x ∨
      f.decreaseStakeRequests x = ⟨0, 0⟩ ∨
      (f.decreaseStakeRequests x).lockupExpiryBlock
        = msg.blockNumber + s.spFactory.decreaseStakeLockupDuration)
    (hdecreaseLockup : f.decreaseStakeLockupDuration = s.spFactory.decreaseStakeLockupDuration)
    (hcutLockup : f.deployerCutLockupDuration = s.spFactory.deployerCutLockupDuration) :
    FactoryUpkeep msg s f :=
  ⟨fun x ↦ .inl (hcut x), fun x ↦ .inl (by rw [hcuts]), hmax, hdecreases, .inl hdecreaseLockup,
    .inl hcutLockup⟩

/-- The request of one account is dropped, or replaced by a new one. -/
theorem FactoryUpkeep.setDecreaseStakeRequest {account : Address} {request : DecreaseStakeRequest}
    (hrequest : request = ⟨0, 0⟩ ∨ request.lockupExpiryBlock
      = msg.blockNumber + s.spFactory.decreaseStakeLockupDuration) :
    FactoryUpkeep msg s (s.spFactory.setDecreaseStakeRequest account request) := by
  refine .of_same (fun _ ↦ rfl) (fun _ _ ↦ rfl) rfl (fun x ↦ ?_) rfl rfl
  unfold ServiceProviderFactory.setDecreaseStakeRequest
  by_cases hx : x = account
  · subst hx
    simp only [update_self]
    exact .inr hrequest
  · simp only [update_of_ne hx, true_or]

/-- The cut that one account asks for is replaced by one that is allowed. -/
theorem FactoryUpkeep.setDeployerCutRequest {account : Address} {request : UpdateDeployerCutRequest}
    (hrequest : request.newDeployerCut ≤ deployerCutBase) :
    FactoryUpkeep msg s (s.spFactory.setDeployerCutRequest account request) := by
  refine ⟨fun _ ↦ .inl rfl, fun x ↦ ?_, fun _ _ ↦ rfl, fun _ ↦ .inl rfl, .inl rfl, .inl rfl⟩
  unfold ServiceProviderFactory.setDeployerCutRequest
  by_cases hx : x = account
  · subst hx
    simp only [update_self]
    exact .inr hrequest
  · simp only [update_of_ne hx, true_or]

/-- Requests, cuts and lockups are kept. -/
theorem FactoryUpkeep.of_kept {f f' : ServiceProviderFactory} (h : FactoryUpkeep msg s f)
    (hcut : ∀ x, (f'.spDetails x).deployerCut = (f.spDetails x).deployerCut)
    (hmax : ∀ x, x ≠ msg.sender →
      (f'.spDetails x).maxAccountStake = (f.spDetails x).maxAccountStake)
    (hcuts : f'.updateDeployerCutRequests = f.updateDeployerCutRequests)
    (hdecreases : f'.decreaseStakeRequests = f.decreaseStakeRequests)
    (hdecreaseLockup : f'.decreaseStakeLockupDuration = f.decreaseStakeLockupDuration)
    (hcutLockup : f'.deployerCutLockupDuration = f.deployerCutLockupDuration) :
    FactoryUpkeep msg s f' where
  cut x := by
    rw [hcut]
    exact h.cut x
  cutRequest x := by
    rw [hcuts]
    exact h.cutRequest x
  maxAccountStake x hx := (hmax x hx).trans (h.maxAccountStake x hx)
  decreaseRequest x := by
    rw [hdecreases]
    exact h.decreaseRequest x
  decreaseLockup := by
    rw [hdecreaseLockup]
    exact h.decreaseLockup
  cutLockup := by
    rw [hcutLockup]
    exact h.cutLockup

/-- How a call treats the requests of delegators and the lockups of the delegation contract. -/
structure ManagerUpkeep (msg : Msg) (s : System) (d : DelegateManagerV2) : Prop where
  request : ∀ x, d.undelegateRequests x = s.delegateManager.undelegateRequests x ∨
    d.undelegateRequests x = ⟨0, 0, 0⟩ ∨
    ∃ target amount, x = msg.sender ∧
      x ∈ (s.delegateManager.spDelegateInfo target).delegators ∧
      amount ≤ s.delegateManager.delegateInfo x target ∧
      d.undelegateRequests x
        = ⟨target, amount, msg.blockNumber + s.delegateManager.undelegateLockupDuration⟩
  undelegateLockup : d.undelegateLockupDuration = s.delegateManager.undelegateLockupDuration ∨
    s.governance.votingPeriod + s.governance.executionDelay < d.undelegateLockupDuration
  removeLockup : d.removeDelegatorLockupDuration
      = s.delegateManager.removeDelegatorLockupDuration ∨
    s.governance.votingPeriod + s.governance.executionDelay < d.removeDelegatorLockupDuration

/-- The lockups stand and requests may have been dropped. -/
theorem ManagerUpkeep.of_same {d : DelegateManagerV2}
    (hrequests : ∀ x, d.undelegateRequests x = s.delegateManager.undelegateRequests x ∨
      d.undelegateRequests x = ⟨0, 0, 0⟩)
    (hundelegate : d.undelegateLockupDuration = s.delegateManager.undelegateLockupDuration)
    (hremove : d.removeDelegatorLockupDuration = s.delegateManager.removeDelegatorLockupDuration) :
    ManagerUpkeep msg s d :=
  ⟨fun x ↦ (hrequests x).imp_right .inl, .inl hundelegate, .inl hremove⟩

/-- The calls of the factory that move stake. -/
def ProviderCall.movesStake : ProviderCall → Bool
  | .register .. | .increaseStake .. | .decreaseStake => true
  | _ => false

/-- The calls that write the registry of endpoints. -/
def ProviderCall.writesRegistry : ProviderCall → Bool
  | .register .. | .deregister .. | .updateEndpoint .. | .updateDelegateOwnerWallet .. => true
  | _ => false

/-- The calls that write the request of a withdrawal. -/
def ProviderCall.asksForStake : ProviderCall → Bool
  | .requestDecreaseStake _ | .deregister .. => true
  | _ => false

/-- The registry of endpoints stands. -/
structure SameRegistry (f f' : ServiceProviderFactory) : Prop where
  serviceProviderTypeIDs : f'.serviceProviderTypeIDs = f.serviceProviderTypeIDs
  serviceProviderInfo : f'.serviceProviderInfo = f.serviceProviderInfo
  serviceProviderEndpointToId : f'.serviceProviderEndpointToId = f.serviceProviderEndpointToId

/-- A deregistration writes the registry, the sender's details, and its request if nothing else of it
is left. -/
theorem ServiceProviderFactory.deregister_records {ty : Bytes32} {endpoint : String} {id : ℕ}
    (h : deregister msg ty endpoint s = .ok (s', id)) :
    ∃ f, s' = { s with spFactory := f } ∧
      (∀ x, (f.spDetails x).deployerStake = (s.spFactory.spDetails x).deployerStake) ∧
      FactoryUpkeep msg s f := by
  obtain ⟨f, details, hlast, -, -, -, -, rfl, hstake, hcut, -⟩ := deregister_eq_ok h
  have hupkeep : FactoryUpkeep msg s f := by
    rcases requestLastStake_eq_ok hlast with rfl | rfl
    · exact .of_same (fun _ ↦ rfl) (fun _ _ ↦ rfl) rfl (fun _ ↦ .inl rfl) rfl rfl
    · exact .setDecreaseStakeRequest (.inr rfl)
  have hsame : f.spDetails = s.spFactory.spDetails := by
    rcases requestLastStake_eq_ok hlast with rfl | rfl <;> rfl
  refine ⟨_, rfl, fun x ↦ ?_, hupkeep.of_kept (fun x ↦ ?_) (fun x hx ↦ ?_) rfl rfl rfl rfl⟩
  · show (update f.spDetails msg.sender details x).deployerStake = _
    rw [← hsame]
    by_cases hx : x = msg.sender
    · rw [hx, update_self, hstake]
    · rw [update_of_ne hx]
  · show (update f.spDetails msg.sender details x).deployerCut = _
    by_cases hx : x = msg.sender
    · rw [hx, update_self, hcut]
    · rw [update_of_ne hx]
  · show (update f.spDetails msg.sender details x).maxAccountStake = _
    rw [update_of_ne hx]

/-- Every other call of the factory writes its own records and no deployer stake. -/
theorem ProviderCall.perform_records {c : ProviderCall} (hcaller : w.Caller msg.sender)
    (hc : c.movesStake = false) (h : c.perform w msg s = .ok s') :
    ∃ f, s' = { s with spFactory := f } ∧
      (∀ x, (f.spDetails x).deployerStake = (s.spFactory.spDetails x).deployerStake) ∧
      (c.writesRegistry = false → SameRegistry s.spFactory f) ∧ FactoryUpkeep msg s f ∧
      ((∀ ty endpoint, c ≠ .deregister ty endpoint) → s.spFactory.SameAccounts f) ∧
      (c.asksForStake = false → ∀ x,
        f.decreaseStakeRequests x = s.spFactory.decreaseStakeRequests x ∨
          f.decreaseStakeRequests x = ⟨0, 0⟩) := by
  cases c with
  | register | increaseStake | decreaseStake => simp [movesStake] at hc
  | deregister ty endpoint =>
    obtain ⟨⟨s'', id⟩, hderegister, rfl⟩ := map_eq_ok.mp h
    obtain ⟨f, hf, hstake, hupkeep⟩ := deregister_records hderegister
    exact ⟨f, hf, hstake, fun hno ↦ absurd hno (by simp [writesRegistry]), hupkeep,
      fun hne ↦ absurd rfl (hne ty endpoint), fun hno ↦ absurd hno (by simp [asksForStake])⟩
  | requestDecreaseStake amount =>
    obtain ⟨⟨s'', n⟩, hcall, rfl⟩ := map_eq_ok.mp h
    unfold ServiceProviderFactory.requestDecreaseStake at hcall
    simp only [↓require_bind_eq_ok, ↓sub_bind_eq_ok] at hcall
    obtain ⟨-, -, -, hcall⟩ := hcall
    obtain ⟨_, -, hcall⟩ := bind_eq_ok.mp hcall
    simp only [↓add_bind_eq_ok, pure_eq_ok, Prod.mk.injEq] at hcall
    obtain ⟨-, rfl, -⟩ := hcall
    exact ⟨_, rfl, fun _ ↦ rfl, fun _ ↦ ⟨rfl, rfl, rfl⟩, .setDecreaseStakeRequest (.inr rfl),
      fun _ ↦ .of_eq rfl rfl, fun hno ↦ absurd hno (by simp [asksForStake])⟩
  | cancelDecreaseStakeRequest account =>
    unfold perform ServiceProviderFactory.cancelDecreaseStakeRequest at h
    simp only [↓require_bind_eq_ok, pure_eq_ok] at h
    obtain ⟨-, -, rfl⟩ := h
    refine ⟨_, rfl, fun _ ↦ rfl, fun _ ↦ ⟨rfl, rfl, rfl⟩, .setDecreaseStakeRequest (.inl rfl),
      fun _ ↦ .of_eq rfl rfl, fun _ x ↦ ?_⟩
    by_cases hx : x = account <;> simp [setDecreaseStakeRequest, hx]
  | updateDelegateOwnerWallet ty endpoint wallet =>
    unfold perform ServiceProviderFactory.updateDelegateOwnerWallet at h
    simp only [↓require_bind_eq_ok, pure_eq_ok] at h
    obtain ⟨-, rfl⟩ := h
    exact ⟨_, rfl, fun _ ↦ rfl, fun hno ↦ absurd hno (by simp [writesRegistry]),
      .of_same (fun _ ↦ rfl) (fun _ _ ↦ rfl) rfl (fun _ ↦ .inl rfl) rfl rfl,
      fun _ ↦ .of_eq rfl rfl, fun _ _ ↦ .inl rfl⟩
  | updateEndpoint ty old new =>
    obtain ⟨⟨s'', n⟩, hcall, rfl⟩ := map_eq_ok.mp h
    unfold ServiceProviderFactory.updateEndpoint at hcall
    simp only [↓require_bind_eq_ok, pure_eq_ok, Prod.mk.injEq] at hcall
    obtain ⟨-, -, -, rfl, -⟩ := hcall
    exact ⟨_, rfl, fun _ ↦ rfl, fun hno ↦ absurd hno (by simp [writesRegistry]),
      .of_same (fun _ ↦ rfl) (fun _ _ ↦ rfl) rfl (fun _ ↦ .inl rfl) rfl rfl,
      fun _ ↦ .of_eq rfl rfl, fun _ _ ↦ .inl rfl⟩
  | requestUpdateDeployerCut sp cut =>
    unfold perform ServiceProviderFactory.requestUpdateDeployerCut at h
    simp only [↓require_bind_eq_ok, ↓add_bind_eq_ok, pure_eq_ok] at h
    obtain ⟨-, -, hcut, -, rfl⟩ := h
    exact ⟨_, rfl, fun _ ↦ rfl, fun _ ↦ ⟨rfl, rfl, rfl⟩, .setDeployerCutRequest hcut,
      fun _ ↦ .of_eq rfl rfl, fun _ _ ↦ .inl rfl⟩
  | cancelUpdateDeployerCut sp =>
    unfold perform ServiceProviderFactory.cancelUpdateDeployerCut
      ServiceProviderFactory._requirePendingDeployerCutOperation at h
    simp only [↓require_bind_eq_ok, pure_eq_ok] at h
    obtain ⟨-, -, rfl⟩ := h
    exact ⟨_, rfl, fun _ ↦ rfl, fun _ ↦ ⟨rfl, rfl, rfl⟩, .setDeployerCutRequest (Nat.zero_le _),
      fun _ ↦ .of_eq rfl rfl, fun _ _ ↦ .inl rfl⟩
  | updateDeployerCut sp =>
    unfold perform ServiceProviderFactory.updateDeployerCut
      ServiceProviderFactory._requirePendingDeployerCutOperation at h
    simp only [↓require_bind_eq_ok, pure_eq_ok] at h
    obtain ⟨-, -, -, rfl⟩ := h
    refine ⟨_, rfl, fun x ↦ ?_, fun _ ↦ ⟨rfl, rfl, rfl⟩, ⟨fun x ↦ ?_, fun x ↦ ?_, fun x _ ↦ ?_,
      fun _ ↦ .inl rfl, .inl rfl, .inl rfl⟩, fun _ ↦ ⟨rfl, fun x ↦ ⟨?_, ?_, ?_⟩, fun x ↦ ?_⟩,
      fun _ _ ↦ .inl rfl⟩ <;>
      by_cases hx : x = sp <;>
        simp [hx, setDetails, setDeployerCutRequest]
  | updateServiceProviderStake sp amount =>
    exact absurd (updateServiceProviderStake_eq_ok h).1
      hcaller.ne_delegateManager
  | updateDecreaseStakeLockupDuration duration =>
    unfold perform ServiceProviderFactory.updateDecreaseStakeLockupDuration
      ServiceProviderFactory._updateDecreaseStakeLockupDuration at h
    simp only [↓require_bind_eq_ok, ↓add_bind_eq_ok, bind_assoc, pure_bind, pure_eq_ok] at h
    obtain ⟨-, -, hduration, rfl⟩ := h
    exact ⟨_, rfl, fun _ ↦ rfl, fun _ ↦ ⟨rfl, rfl, rfl⟩, ⟨fun _ ↦ .inl rfl, fun _ ↦ .inl rfl,
      fun _ _ ↦ rfl, fun _ ↦ .inl rfl, .inr hduration, .inl rfl⟩, fun _ ↦ .of_eq rfl rfl,
      fun _ _ ↦ .inl rfl⟩
  | updateDeployerCutLockupDuration duration =>
    unfold perform ServiceProviderFactory.updateDeployerCutLockupDuration
      ServiceProviderFactory._updateDeployerCutLockupDuration at h
    simp only [↓require_bind_eq_ok, bind_assoc, pure_bind, pure_eq_ok] at h
    obtain ⟨-, hduration, rfl⟩ := h
    exact ⟨_, rfl, fun _ ↦ rfl, fun _ ↦ ⟨rfl, rfl, rfl⟩, ⟨fun _ ↦ .inl rfl, fun _ ↦ .inl rfl,
      fun _ _ ↦ rfl, fun _ ↦ .inl rfl, .inl rfl, .inr hduration⟩, fun _ ↦ .of_eq rfl rfl,
      fun _ _ ↦ .inl rfl⟩

/-- The calls of the delegation contract that move stake. -/
def DelegationCall.movesStake : DelegationCall → Bool
  | .delegateStake .. | .undelegateStake | .claimRewards .. | .slash .. | .removeDelegator .. =>
    true
  | _ => false

namespace DelegateManagerV2

/-- Settings change nothing but the settings. -/
theorem configure_eq_ok {change : DelegateManagerV2 → Except String DelegateManagerV2}
    (h : configure w msg change s = .ok s') :
    msg.sender = w.governance ∧ ∃ d, change s.delegateManager = .ok d ∧
      s' = { s with delegateManager := d } := by
  unfold configure at h
  simp only [↓require_bind_eq_ok, bind_eq_ok, pure_eq_ok] at h
  obtain ⟨hsender, d, hchange, rfl⟩ := h
  exact ⟨hsender, d, hchange, rfl⟩

end DelegateManagerV2

/-- Every other call of the delegation contract writes its own records and no stake. -/
theorem DelegationCall.perform_records {c : DelegationCall} (hc : c.movesStake = false)
    (h : c.perform w msg s = .ok s') :
    ∃ d, s' = { s with delegateManager := d } ∧
      (∀ x, (d.spDelegateInfo x).totalDelegatedStake
        = (s.delegateManager.spDelegateInfo x).totalDelegatedStake) ∧
      (∀ x, (d.spDelegateInfo x).delegators = (s.delegateManager.spDelegateInfo x).delegators) ∧
      d.delegateInfo = s.delegateManager.delegateInfo ∧
      d.delegatorTotalStake = s.delegateManager.delegatorTotalStake ∧
      ManagerUpkeep msg s d := by
  cases c with
  | delegateStake | undelegateStake | claimRewards | slash | removeDelegator =>
    simp [movesStake] at hc
  | requestUndelegateStake sp amount =>
    obtain ⟨⟨s'', n⟩, hcall, rfl⟩ := map_eq_ok.mp h
    unfold DelegateManagerV2.requestUndelegateStake at hcall
    simp only [↓require_bind_eq_ok, ↓add_bind_eq_ok, ↓sub_bind_eq_ok, pure_eq_ok,
      Prod.mk.injEq] at hcall
    obtain ⟨-, -, hexists, -, hle, -, -, -, rfl, -⟩ := hcall
    refine ⟨_, rfl, fun x ↦ totalDelegatedStake_updateLockup _ _ _ x,
      fun x ↦ delegators_updateLockup _ _ _ x, rfl, rfl, fun x ↦ ?_, .inl rfl,
      .inl rfl⟩
    by_cases hx : x = msg.sender
    · refine .inr (.inr ⟨sp, amount, hx, ?_, hx ▸ hle, ?_⟩)
      · simpa [hx, DelegateManagerV2._delegatorExistsForSP] using hexists
      · simp [hx, DelegateManagerV2._updateServiceProviderLockupAmount,
          setSpInfo, DelegateManagerV2._updateUndelegateStakeRequest]
    · exact .inl (by simp [hx, DelegateManagerV2._updateServiceProviderLockupAmount,
        setSpInfo, DelegateManagerV2._updateUndelegateStakeRequest])
  | cancelUndelegateStakeRequest =>
    unfold perform DelegateManagerV2.cancelUndelegateStakeRequest at h
    simp only [↓require_bind_eq_ok, ↓sub_bind_eq_ok, pure_eq_ok] at h
    obtain ⟨-, -, rfl⟩ := h
    refine ⟨_, rfl,
      fun x ↦ totalDelegatedStake_updateLockup s.delegateManager _ _ x,
      fun x ↦ delegators_updateLockup s.delegateManager _ _ x, rfl, rfl,
      .of_same (fun x ↦ ?_) rfl rfl⟩
    by_cases hx : x = msg.sender
    · exact .inr (by simp [hx, DelegateManagerV2._resetUndelegateStakeRequest,
        DelegateManagerV2._updateUndelegateStakeRequest])
    · exact .inl (by simp [hx, DelegateManagerV2._resetUndelegateStakeRequest,
        DelegateManagerV2._updateServiceProviderLockupAmount, setSpInfo,
        DelegateManagerV2._updateUndelegateStakeRequest])
  | requestRemoveDelegator sp delegator =>
    unfold perform DelegateManagerV2.requestRemoveDelegator at h
    simp only [↓require_bind_eq_ok, ↓add_bind_eq_ok, pure_eq_ok] at h
    obtain ⟨-, -, -, -, rfl⟩ := h
    exact ⟨_, rfl, fun _ ↦ rfl, fun _ ↦ rfl, rfl, rfl, .of_same (fun _ ↦ .inl rfl) rfl rfl⟩
  | cancelRemoveDelegatorRequest sp delegator =>
    unfold perform DelegateManagerV2.cancelRemoveDelegatorRequest at h
    simp only [↓require_bind_eq_ok, pure_eq_ok] at h
    obtain ⟨-, -, rfl⟩ := h
    exact ⟨_, rfl, fun _ ↦ rfl, fun _ ↦ rfl, rfl, rfl, .of_same (fun _ ↦ .inl rfl) rfl rfl⟩
  | updateSPMinDelegationAmount sp amount =>
    unfold perform DelegateManagerV2.updateSPMinDelegationAmount at h
    simp only [↓require_bind_eq_ok, pure_eq_ok] at h
    obtain ⟨-, -, rfl⟩ := h
    exact ⟨_, rfl, fun _ ↦ rfl, fun _ ↦ rfl, rfl, rfl, .of_same (fun _ ↦ .inl rfl) rfl rfl⟩
  | updateUndelegateLockupDuration duration =>
    obtain ⟨-, d, hd, rfl⟩ := configure_eq_ok h
    unfold DelegateManagerV2._updateUndelegateLockupDuration at hd
    simp only [↓add_bind_eq_ok, ↓require_bind_eq_ok, pure_eq_ok] at hd
    obtain ⟨-, hduration, rfl⟩ := hd
    exact ⟨_, rfl, fun _ ↦ rfl, fun _ ↦ rfl, rfl, rfl, fun _ ↦ .inl rfl, .inr hduration, .inl rfl⟩
  | updateRemoveDelegatorLockupDuration duration =>
    obtain ⟨-, d, hd, rfl⟩ := configure_eq_ok h
    unfold DelegateManagerV2._updateRemoveDelegatorLockupDuration at hd
    simp only [↓add_bind_eq_ok, ↓require_bind_eq_ok, pure_eq_ok] at hd
    obtain ⟨-, hduration, rfl⟩ := hd
    exact ⟨_, rfl, fun _ ↦ rfl, fun _ ↦ rfl, rfl, rfl, fun _ ↦ .inl rfl, .inl rfl, .inr hduration⟩
  | updateMaxDelegators _ | updateMinDelegationAmount _ | updateRemoveDelegatorEvalDuration _ =>
    unfold perform at h
    obtain ⟨-, d, hd, rfl⟩ := configure_eq_ok h
    cases hd
    exact ⟨_, rfl, fun _ ↦ rfl, fun _ ↦ rfl, rfl, rfl, .of_same (fun _ ↦ .inl rfl) rfl rfl⟩

end ColivingSpec
