import ColivingSpec.Governance.Effects
import ColivingSpec.System.Effects

/-!
# Requests, cuts and lockups

What every call of the system does to the withdrawal requests, to the cuts and to the
lockups: they stand, they are dropped, or they are replaced as the setters and the request
functions allow.
-/

namespace ColivingSpec

open Lib ServiceProviderFactory DelegateManagerV2

variable [Keccak256] {w : Wiring} {msg : Msg} {s s' : System}

/-- The factory's own calls. -/
theorem ProviderCall.perform_upkeep {c : ProviderCall} (hcaller : w.Caller msg.sender)
    (h : c.perform w msg s = .ok s') :
    FactoryUpkeep msg s s'.spFactory ∧ s'.delegateManager = s.delegateManager ∧
      s'.governance = s.governance ∧ s'.claimsManager = s.claimsManager := by
  cases c with
  | register ty endpoint amount wallet =>
    obtain ⟨⟨s'', n⟩, hcall, rfl⟩ := map_eq_ok.mp h
    obtain ⟨mid, hmoved, -, -, rfl⟩ :=
      register_eq_ok hcaller.ne_staking hcall
    refine ⟨.of_same (fun x ↦ ?_) (fun x hx ↦ ?_) rfl (fun _ ↦ .inl rfl) rfl rfl,
      hmoved.records.delegateManager, hmoved.records.governance,
      hmoved.unclaimed.claimsManager⟩
    · by_cases hx : x = msg.sender
      · subst hx
        simp [setDetails, registeredDetails]
      · simp [setDetails, setIds, setEndpointId, setInfo, setTypeID, hx]
    · simp [setDetails, setIds, setEndpointId, setInfo, setTypeID, hx]
  | increaseStake amount =>
    obtain ⟨⟨s'', n⟩, hcall, rfl⟩ := map_eq_ok.mp h
    obtain ⟨mid, details, hmoved, rfl, -, hcut, -⟩ :=
      increaseStake_eq_ok hcaller.ne_staking hcall
    refine ⟨.of_same (fun x ↦ ?_) (fun x hx ↦ ?_) rfl (fun _ ↦ .inl rfl) rfl rfl,
      hmoved.records.delegateManager, hmoved.records.governance,
      hmoved.unclaimed.claimsManager⟩
    · by_cases hx : x = msg.sender
      · subst hx
        simp [setDetails, hcut]
      · simp [setDetails, hx]
    · simp [setDetails, hx]
  | decreaseStake =>
    obtain ⟨⟨s'', n⟩, hcall, rfl⟩ := map_eq_ok.mp h
    obtain ⟨mid, details, amount, -, -, -, -, hmoved, rfl, -, hcut, -⟩ :=
      decreaseStake_eq_ok hcall
    refine ⟨.of_same (fun x ↦ ?_) (fun x hx ↦ ?_) rfl (fun x ↦ ?_) rfl rfl,
      hmoved.records.delegateManager, hmoved.records.governance,
      hmoved.unclaimed.claimsManager⟩
    · by_cases hx : x = msg.sender
      · subst hx
        simp [setDecreaseStakeRequest, setDetails, hcut]
      · simp [setDecreaseStakeRequest, setDetails, hx]
    · simp [setDecreaseStakeRequest, setDetails, hx]
    · by_cases hx : x = msg.sender
      · exact .inr (.inl (by simp [hx, setDecreaseStakeRequest]))
      · exact .inl (by simp [hx, setDecreaseStakeRequest, setDetails])
  | _ =>
    obtain ⟨f, rfl, -, -, hupkeep, -⟩ := perform_records hcaller rfl h
    exact ⟨hupkeep, rfl, rfl, rfl⟩

/-- A factory that differs in the deployer stake and the flag of one provider. -/
theorem FactoryUpkeep.of_details {sp : Address} {details : ServiceProviderDetails}
    (hcut : details.deployerCut = (s.spFactory.spDetails sp).deployerCut)
    (hmax : details.maxAccountStake = (s.spFactory.spDetails sp).maxAccountStake) :
    FactoryUpkeep msg s (s.spFactory.setDetails sp details) := by
  refine .of_same (fun x ↦ ?_) (fun x _ ↦ ?_) rfl (fun _ ↦ .inl rfl) rfl rfl
  · by_cases hx : x = sp
    · subst hx
      simp [setDetails, hcut]
    · simp [setDetails, hx]
  · by_cases hx : x = sp
    · subst hx
      simp [setDetails, hmax]
    · simp [setDetails, hx]

/-- A factory as it was. -/
theorem FactoryUpkeep.of_eq {f : ServiceProviderFactory} (h : f = s.spFactory) :
    FactoryUpkeep msg s f := by
  subst h
  exact .of_same (fun _ ↦ rfl) (fun _ _ ↦ rfl) rfl (fun _ ↦ .inl rfl) rfl rfl

/-- The settings and the registry a call of the delegation contract leaves alone. -/
structure SettingsStand (s s' : System) : Prop where
  governance : s'.governance = s.governance
  fundingRoundBlockDiff :
    s'.claimsManager.fundingRoundBlockDiff = s.claimsManager.fundingRoundBlockDiff
  registry : SameRegistry s.spFactory s'.spFactory

/-- A movement of stake leaves the settings. -/
theorem Moved.settingsStand {blockNumber stake : ℕ} {sp : Address}
    (h : Moved w blockNumber sp stake s s') : SettingsStand s s' where
  governance := h.records.governance
  fundingRoundBlockDiff := by rw [h.unclaimed.claimsManager]
  registry := by
    rw [h.records.spFactory]
    exact ⟨rfl, rfl, rfl⟩

namespace DelegateManagerV2

variable {sp delegator : Address} {amount : ℕ}

theorem delegateStake_upkeep {result : ℕ} (hsender : msg.sender ≠ w.staking)
    (h : delegateStake w msg sp amount s = .ok (s', result)) :
    FactoryUpkeep msg s s'.spFactory ∧ ManagerUpkeep msg s s'.delegateManager ∧
      SettingsStand s s' := by
  obtain ⟨mid, d, hmoved, -, henlist, -, rfl⟩ := delegateStake_eq_ok hsender h
  have hsettings := hmoved.settingsStand
  refine ⟨.of_eq hmoved.records.spFactory, ?_, hsettings.1, hsettings.2, hsettings.3⟩
  rcases enlist_eq_ok henlist with ⟨-, rfl⟩ | ⟨-, rfl⟩
  · exact .of_same (fun _ ↦ .inl rfl) rfl rfl
  · exact .of_same (fun _ ↦ .inl rfl) rfl rfl

omit [Keccak256] in
/-- Striking a delegator off a list writes nothing else. -/
theorem delist_eq (d : DelegateManagerV2) (delegator sp : Address) :
    d.delist delegator sp
      = { d with spDelegateInfo := (d.delist delegator sp).spDelegateInfo } := by
  unfold delist
  split <;> rfl

theorem undelegateStake_upkeep {result : ℕ} (h : undelegateStake w msg s = .ok (s', result)) :
    FactoryUpkeep msg s s'.spFactory ∧ ManagerUpkeep msg s s'.delegateManager ∧
      SettingsStand s s' := by
  obtain ⟨mid, d, sp, amount, locked, v, -, -, -, -, hmoved, hwithdraw, -, rfl⟩ :=
    undelegateStake_eq_ok h
  obtain ⟨-, -, -, hd⟩ := withdraw_eq_ok hwithdraw
  have hrequests : d.undelegateRequests = s.delegateManager.undelegateRequests := by rw [hd]; rfl
  have hundelegate : d.undelegateLockupDuration = s.delegateManager.undelegateLockupDuration := by
    rw [hd]; rfl
  have hremove : d.removeDelegatorLockupDuration
      = s.delegateManager.removeDelegatorLockupDuration := by rw [hd]; rfl
  have hsettings := hmoved.settingsStand
  refine ⟨?_, ?_, ?_⟩
  · exact .of_details rfl rfl
  · rw [delist_eq]
    refine .of_same (fun x ↦ ?_) hundelegate hremove
    by_cases hx : x = msg.sender
    · exact .inr (by simp [hx, _resetUndelegateStakeRequest, _updateUndelegateStakeRequest])
    · exact .inl (by simp [hx, _resetUndelegateStakeRequest, _updateUndelegateStakeRequest,
        _updateServiceProviderLockupAmount, setSpInfo, hrequests])
  · exact ⟨hsettings.1, hsettings.2, rfl, rfl, rfl⟩

theorem claimRewards_upkeep (h : claimRewards w msg sp s = .ok s') :
    FactoryUpkeep msg s s'.spFactory ∧ ManagerUpkeep msg s s'.delegateManager ∧
      SettingsStand s s' := by
  obtain ⟨mid, reward, hclaimed, -, -, hresult⟩ := claimRewards_eq_ok h
  have hsettings : SettingsStand s mid :=
    ⟨hclaimed.records.governance, by rw [hclaimed.claimsManager],
      by rw [hclaimed.records.spFactory]; exact ⟨rfl, rfl, rfl⟩⟩
  rcases hresult with ⟨-, rfl⟩ | ⟨d, increase, v, hspread⟩
  · refine ⟨.of_eq hclaimed.records.spFactory, ?_, hsettings⟩
    rw [hclaimed.records.delegateManager]
    exact .of_same (fun _ ↦ .inl rfl) rfl rfl
  · obtain ⟨funds, cut, hdistribute⟩ := hspread.distributed
    have honly := (_distributeDelegateRewards_spec hdistribute).2.1
    rw [hclaimed.records.delegateManager] at honly
    rw [hspread.result, hclaimed.records.spFactory]
    refine ⟨.of_details rfl rfl, ?_, hsettings.1, hsettings.2, rfl, rfl, rfl⟩
    rw [honly]
    exact .of_same (fun _ ↦ .inl rfl) rfl rfl

theorem slash_upkeep (h : slash w msg amount sp s = .ok s') :
    FactoryUpkeep msg s s'.spFactory ∧ ManagerUpkeep msg s s'.delegateManager ∧
      SettingsStand s s' := by
  obtain ⟨f, mid, d, decrease, v, -, hf, -, hmoved, hloop, -, -, -, rfl⟩ := slash_eq_ok h
  have honly := (slashDelegators_spec hloop).2.1
  have hsettings := hmoved.settingsStand
  refine ⟨?_, ?_, hsettings.1, hsettings.2, ?_⟩
  · rcases hf with rfl | rfl
    · exact .of_details rfl rfl
    · have hcancelled : FactoryUpkeep msg s (s.spFactory.setDecreaseStakeRequest sp ⟨0, 0⟩) :=
        .setDecreaseStakeRequest (.inl rfl)
      refine hcancelled.of_kept (fun x ↦ ?_) (fun x _ ↦ ?_) rfl rfl rfl rfl
      · by_cases hx : x = sp <;> simp [hx, setDetails, setDecreaseStakeRequest]
      · by_cases hx : x = sp <;> simp [hx, setDetails, setDecreaseStakeRequest]
  · refine .of_same honly.requests ?_ ?_
    · rw [honly.rest]
      rfl
    · rw [honly.rest]
      rfl
  · rcases hf with rfl | rfl
    · exact ⟨rfl, rfl, rfl⟩
    · exact ⟨rfl, rfl, rfl⟩

theorem removeDelegator_upkeep (h : removeDelegator w msg sp delegator s = .ok s') :
    FactoryUpkeep msg s s'.spFactory ∧ ManagerUpkeep msg s s'.delegateManager ∧
      SettingsStand s s' := by
  obtain ⟨mid, d, d', amount, -, -, -, -, -, -, hmoved, hwithdraw, hdrop, rfl⟩ :=
    removeDelegator_eq_ok h
  obtain ⟨-, -, -, hd⟩ := withdraw_eq_ok hwithdraw
  have hrequests : d.undelegateRequests = s.delegateManager.undelegateRequests := by rw [hd]; rfl
  have hundelegate : d.undelegateLockupDuration = s.delegateManager.undelegateLockupDuration := by
    rw [hd]; rfl
  have hremove : d.removeDelegatorLockupDuration
      = s.delegateManager.removeDelegatorLockupDuration := by rw [hd]; rfl
  have hsettings := hmoved.settingsStand
  refine ⟨.of_eq hmoved.records.spFactory, ?_, hsettings.1, hsettings.2, hsettings.3⟩
  rcases dropRequestFor_eq_ok hdrop with ⟨-, -, rfl⟩ | ⟨-, rfl⟩
  · refine .of_same (fun x ↦ ?_) hundelegate hremove
    by_cases hx : x = delegator
    · exact .inr (by simp [hx, setRemoveDelegatorRequest, _removeFromDelegatorsList,
        setDelegators, setSpInfo, _resetUndelegateStakeRequest, _updateUndelegateStakeRequest])
    · exact .inl (by simp [hx, setRemoveDelegatorRequest, _removeFromDelegatorsList,
        setDelegators, setSpInfo, _resetUndelegateStakeRequest, _updateUndelegateStakeRequest,
        _updateServiceProviderLockupAmount, hrequests])
  · exact .of_same (fun x ↦ .inl (congrFun hrequests x)) hundelegate hremove

end DelegateManagerV2

/-- The delegation contract's calls. -/
theorem DelegationCall.perform_upkeep {c : DelegationCall} (hcaller : w.Caller msg.sender)
    (h : c.perform w msg s = .ok s') :
    FactoryUpkeep msg s s'.spFactory ∧ ManagerUpkeep msg s s'.delegateManager ∧
      SettingsStand s s' := by
  cases c with
  | delegateStake sp amount =>
    obtain ⟨⟨s'', n⟩, hcall, rfl⟩ := map_eq_ok.mp h
    exact delegateStake_upkeep hcaller.ne_staking hcall
  | undelegateStake =>
    obtain ⟨⟨s'', n⟩, hcall, rfl⟩ := map_eq_ok.mp h
    exact undelegateStake_upkeep hcall
  | claimRewards sp => exact claimRewards_upkeep h
  | slash amount sp => exact slash_upkeep h
  | removeDelegator sp delegator => exact removeDelegator_upkeep h
  | _ =>
    obtain ⟨d, rfl, -, -, -, -, hupkeep⟩ := perform_records rfl h
    exact ⟨.of_eq rfl, hupkeep, rfl, rfl, rfl, rfl, rfl⟩

/-- Requests, cuts, lockups and settings after a call. -/
structure Upkeep (w : Wiring) (msg : Msg) (c : Call) (s s' : System) (frame : Option Frame) :
    Prop where
  factory : FactoryUpkeep msg s s'.spFactory
  manager : ManagerUpkeep msg s s'.delegateManager
  registry : (∀ c', c ≠ .providers c') → SameRegistry s.spFactory s'.spFactory
  governance : (∀ environment a, c ≠ .governance environment a) →
    s'.governance = s.governance ∧ frame = none
  fundingRoundBlockDiff :
    s'.claimsManager.fundingRoundBlockDiff = s.claimsManager.fundingRoundBlockDiff ∨
      msg.sender = w.governance ∧
        c = .claims (.updateFundingRoundBlockDiff s'.claimsManager.fundingRoundBlockDiff)
  records : (∀ c', c ≠ .providers c') → (∀ c', c ≠ .delegation c') →
    s'.spFactory = s.spFactory ∧ s'.delegateManager = s.delegateManager

/-- A call that writes neither contract nor governance. -/
theorem Upkeep.of_eq {c : Call} (hfactory : s'.spFactory = s.spFactory)
    (hmanager : s'.delegateManager = s.delegateManager) (hgovernance : s'.governance = s.governance)
    (hdiff : s'.claimsManager.fundingRoundBlockDiff = s.claimsManager.fundingRoundBlockDiff ∨
      msg.sender = w.governance ∧
        c = .claims (.updateFundingRoundBlockDiff s'.claimsManager.fundingRoundBlockDiff)) :
    Upkeep w msg c s s' none :=
  ⟨.of_eq hfactory, hmanager ▸ .of_same (fun _ ↦ .inl rfl) rfl rfl,
    fun _ ↦ hfactory ▸ ⟨rfl, rfl, rfl⟩, fun _ ↦ ⟨hgovernance, rfl⟩, hdiff,
    fun _ _ ↦ ⟨hfactory, hmanager⟩⟩

theorem ClaimsCall.perform_upkeep {c : ClaimsCall} (hcaller : w.Caller msg.sender)
    (h : c.perform w msg s = .ok s') : Upkeep w msg (.claims c) s s' none := by
  by_cases hc : ∃ diff, c = .updateFundingRoundBlockDiff diff
  · obtain ⟨diff, rfl⟩ := hc
    have hset : ClaimsManager.updateFundingRoundBlockDiff w msg diff s = .ok s' := h
    obtain ⟨hsender, rfl⟩ := ClaimsManager.configure_eq_ok hset
    exact .of_eq rfl rfl rfl (.inr ⟨hsender, rfl⟩)
  · rcases c.perform_cases hcaller h with ⟨-, hround⟩ | ⟨-, m, rfl, -, -, hdiff⟩
    · obtain ⟨-, token, -, -, rfl⟩ := ClaimsManager.initiateRound_eq_ok hround
      exact .of_eq rfl rfl rfl (.inl rfl)
    · exact .of_eq rfl rfl rfl (.inl (hdiff fun diff heq ↦ hc ⟨diff, heq⟩))

/-- Every call. -/
theorem Call.perform_upkeep {c : Call} {frame : Option Frame} (hcaller : w.Caller msg.sender)
    (h : c.perform w msg s = .ok (s', frame)) : Upkeep w msg c s s' frame := by
  cases c with
  | token c =>
    obtain ⟨token, -, rfl, rfl⟩ := perform_token_eq_ok h
    exact .of_eq rfl rfl rfl (.inl rfl)
  | staking c =>
    exact absurd (settled_eq_ok.mp h).1 (StakingCall.perform_reverts hcaller)
  | claims c =>
    obtain ⟨hcall, rfl⟩ := settled_eq_ok.mp h
    exact c.perform_upkeep hcaller hcall
  | types c =>
    obtain ⟨m, -, rfl, rfl⟩ := perform_types_eq_ok h
    exact .of_eq rfl rfl rfl (.inl rfl)
  | providers c =>
    obtain ⟨hcall, rfl⟩ := settled_eq_ok.mp h
    obtain ⟨hfactory, hmanager, hgovernance, hclaims⟩ := c.perform_upkeep hcaller hcall
    exact ⟨hfactory, hmanager ▸ .of_same (fun _ ↦ .inl rfl) rfl rfl,
      fun hc ↦ absurd rfl (hc c), fun _ ↦ ⟨hgovernance, rfl⟩, .inl (by rw [hclaims]),
      fun hc ↦ absurd rfl (hc c)⟩
  | delegation c =>
    obtain ⟨hcall, rfl⟩ := settled_eq_ok.mp h
    obtain ⟨hfactory, hmanager, hsettings⟩ := c.perform_upkeep hcaller hcall
    exact ⟨hfactory, hmanager, fun _ ↦ hsettings.registry, fun _ ↦ ⟨hsettings.governance, rfl⟩,
      .inl hsettings.fundingRoundBlockDiff, fun _ hc ↦ absurd rfl (hc c)⟩
  | governance environment a =>
    obtain ⟨g, -, rfl⟩ := perform_governance_eq_ok h
    exact ⟨.of_eq rfl, .of_same (fun _ ↦ .inl rfl) rfl rfl, fun _ ↦ ⟨rfl, rfl, rfl⟩,
      fun hc ↦ absurd rfl (hc environment a), .inl rfl, fun _ _ ↦ ⟨rfl, rfl⟩⟩

/-- A step is an action of governance with its effect, leaves governance as it is, or
returns from the innermost transaction. -/
theorem step_governance_cases {ss ss' : Session System} {e : Event} (h : step w ss e = .ok ss') :
    (∃ environment msg a frame, e = .call msg (.governance environment a) ∧
        GovernanceV2.Effect (ss.state.world w environment) msg ss.state.governance a
          ss'.state.governance frame) ∨
      ss'.state.governance = ss.state.governance ∨
      ∃ frame, ss.state.governance.finish frame = .ok ss'.state.governance := by
  cases e with
  | returned =>
    obtain ⟨frame, rest, g, -, hfinish, rfl⟩ := step_returned_eq_ok h
    exact .inr (.inr ⟨frame, hfinish⟩)
  | call msg c =>
    obtain ⟨hadmits, ⟨s', frame⟩, hperform, rfl⟩ := step_call_eq_ok h
    by_cases hc : ∃ environment a, c = .governance environment a
    · obtain ⟨environment, a, rfl⟩ := hc
      obtain ⟨g, haction, rfl⟩ := perform_governance_eq_ok hperform
      exact .inl ⟨environment, msg, a, frame, rfl, GovernanceV2.Action.perform_effect haction⟩
    · have hupkeep := Call.perform_upkeep (admits_caller hadmits) hperform
      exact .inr (.inl (hupkeep.governance fun environment a heq ↦ hc ⟨environment, a, heq⟩).1)

end ColivingSpec
