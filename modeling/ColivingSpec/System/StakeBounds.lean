import ColivingSpec.System.Ledger

/-!
# The flag of a provider within bounds

A claim is paid by a flag that caches whether the stake of the provider is within its bounds. Every
function that moves stake sets the flag from the new stake, or checks the bounds and sets it, but
`removeDelegator`; and a delegation that passes its check is to a provider that was within bounds.
-/

namespace ColivingSpec

open Lib ServiceProviderFactory DelegateManagerV2

section StakeBounds

variable [Keccak256] {w : Wiring} {msg : Msg} {s s' : System} {sp : Address}

omit [Keccak256] in
/-- A stake within the bounds of an account. -/
def ServiceProviderDetails.InBounds (details : ServiceProviderDetails) (stake : ℕ) : Prop :=
  details.minAccountStake ≤ stake ∧ stake ≤ details.maxAccountStake

/-- The flag of `sp` says whether its stake is within bounds, if it has an endpoint. -/
def System.FlagCurrent (s : System) (sp : Address) : Prop :=
  0 < (s.spFactory.spDetails sp).numberOfEndpoints →
    ((s.spFactory.spDetails sp).validBounds = true ↔
      (s.spFactory.spDetails sp).InBounds (s.staking.totalStakedFor sp))

/-- A claim that pays is of a provider with the flag. -/
def System.PaysUnderFlag (w : Wiring) (s : System) : Prop :=
  ∀ msg claimer locked s' reward, ClaimsManager.processClaim w msg claimer locked s
      = .ok (s', reward) → reward ≠ 0 → (s.spFactory.spDetails claimer).validBounds = true

/-- A removal that goes through and takes the stake of a provider with endpoints into its bounds or
out of them. -/
def RemovesAcrossBounds (w : Wiring) (ss : Session System) (e : Event) : Prop :=
  (∃ ss', step w ss e = .ok ss') ∧ ∃ msg sp delegator,
    e = .call msg (.delegation (.removeDelegator sp delegator)) ∧
    0 < (ss.state.spFactory.spDetails sp).numberOfEndpoints ∧
    ¬ ((ss.state.spFactory.spDetails sp).InBounds (ss.state.staking.totalStakedFor sp) ↔
      (ss.state.spFactory.spDetails sp).InBounds (ss.state.staking.totalStakedFor sp
        - ss.state.delegateManager.delegateInfo delegator sp))

/-- Only a provider with the flag is paid. -/
theorem ClaimsManager.processClaim_paysUnderFlag (w : Wiring) (s : System) :
    s.PaysUnderFlag w := by
  intro msg claimer locked s' reward h hreward
  unfold ClaimsManager.processClaim Staking.totalStakedForAt Staking.totalStakedAt at h
  simp only [↓require_bind_eq_ok, ↓toUint64_bind_eq_ok, ↓sub_bind_eq_ok, ↓mul_bind_eq_ok,
    ↓div_bind_eq_ok, bind_assoc, pure_bind] at h
  obtain ⟨-, -, -, -, -, -, -, h⟩ := h
  split at h
  · obtain ⟨mid, -, heq⟩ := bind_eq_ok.mp h
    rw [pure_eq_ok] at heq
    exact absurd (Prod.mk.inj heq).2.symm hreward
  · next hpaid =>
    simp only [not_or, Bool.not_eq_false] at hpaid
    exact hpaid.1

/-! ### One provider -/

namespace System.FlagCurrent

/-- Details and stake as they were. -/
theorem of_eq (h : s.FlagCurrent sp)
    (hdetails : s'.spFactory.spDetails sp = s.spFactory.spDetails sp)
    (hstake : s'.staking.totalStakedFor sp = s.staking.totalStakedFor sp) : s'.FlagCurrent sp := by
  unfold System.FlagCurrent
  rw [hdetails, hstake]
  exact h

/-- Flag, endpoints, bounds and stake as they were. -/
theorem of_tally (h : s.FlagCurrent sp)
    (htally : SameTally (s.spFactory.spDetails sp) (s'.spFactory.spDetails sp))
    (hflag : (s'.spFactory.spDetails sp).validBounds = (s.spFactory.spDetails sp).validBounds)
    (hstake : s'.staking.totalStakedFor sp = s.staking.totalStakedFor sp) :
    s'.FlagCurrent sp := by
  unfold System.FlagCurrent ServiceProviderDetails.InBounds at *
  rw [htally.numberOfEndpoints, htally.minAccountStake, htally.maxAccountStake, hflag, hstake]
  exact h

end System.FlagCurrent

/-- The check of a provider's stake, passed. The minimum is checked against the direct stake. -/
theorem validateAccountStakeBalance_eq_ok {u : Unit}
    (h : validateAccountStakeBalance sp s = .ok u) :
    s.staking.totalStakedFor sp ≤ (s.spFactory.spDetails sp).maxAccountStake ∧
      (s.spFactory.spDetails sp).minAccountStake
        ≤ (s.spFactory.spDetails sp).deployerStake := by
  unfold validateAccountStakeBalance _validateBalanceInternal at h
  simpa only [require_bind_eq_ok, require_eq_ok] using h

/-- A direct stake is at most the stake of the account. -/
theorem deployerStake_le (hledger : (s.ledger w).Balanced) (sp : Address) :
    (s.spFactory.spDetails sp).deployerStake ≤ s.staking.totalStakedFor sp := by
  have hsplit := hledger.split sp
  simp only [System.ledger] at hsplit
  omega

/-- A provider whose stake was checked, and whose flag was then set. -/
theorem flagCurrent_of_checked {checked : System} {u : Unit}
    (hvalid : validateAccountStakeBalance sp checked = .ok u) (hledger : (s'.ledger w).Balanced)
    (hdetails : s'.spFactory.spDetails sp
      = { checked.spFactory.spDetails sp with validBounds := true })
    (hstake : s'.staking.totalStakedFor sp = checked.staking.totalStakedFor sp) :
    s'.FlagCurrent sp := by
  obtain ⟨hmax, hmin⟩ := validateAccountStakeBalance_eq_ok hvalid
  have hown := deployerStake_le hledger sp
  unfold System.FlagCurrent ServiceProviderDetails.InBounds
  rw [hdetails] at hown ⊢
  rw [hstake] at hown ⊢
  exact fun _ ↦ iff_of_true rfl ⟨hmin.trans hown, hmax⟩

/-- A stake written by the delegation contract sets the flag from the new stake. -/
theorem updateServiceProviderStake_flagCurrent {amount : ℕ}
    (h : updateServiceProviderStake w msg sp amount s = .ok s') : s'.FlagCurrent sp := by
  unfold updateServiceProviderStake at h
  simp only [↓require_bind_eq_ok, pure_eq_ok] at h
  obtain ⟨-, rfl⟩ := h
  intro _
  simp only [_updateServiceProviderBoundStatus, setDeployerStake, setValidBounds_setDetails,
    ServiceProviderDetails.InBounds]
  simp only [setDetails, Function.update_self, decide_eq_true_eq, not_or, Nat.not_lt]

/-! ### Providers -/

namespace ServiceProviderFactory

variable {result : ℕ}

theorem register_flagCurrent {serviceType : Bytes32} {endpoint : String} {amount : ℕ}
    {wallet : Address} (hledger : (s'.ledger w).Balanced)
    (h : register w msg serviceType endpoint amount wallet s = .ok (s', result)) :
    s'.FlagCurrent msg.sender := by
  unfold register at h
  simp only [↓require_bind_eq_ok] at h
  obtain ⟨-, h⟩ := h
  obtain ⟨mid, -, h⟩ := bind_eq_ok.mp h
  simp only [↓require_bind_eq_ok, ↓add_bind_eq_ok] at h
  obtain ⟨-, -, -, -, -, -, h⟩ := h
  obtain ⟨u, hvalid, h⟩ := bind_eq_ok.mp h
  obtain ⟨rfl, -⟩ := h
  exact flagCurrent_of_checked hvalid hledger (by simp [setValidBounds, setDetails]) rfl

theorem increaseStake_flagCurrent {amount : ℕ} (hledger : (s'.ledger w).Balanced)
    (h : increaseStake w msg amount s = .ok (s', result)) : s'.FlagCurrent msg.sender := by
  unfold increaseStake at h
  simp only [↓require_bind_eq_ok] at h
  obtain ⟨-, -, h⟩ := h
  obtain ⟨mid, -, h⟩ := bind_eq_ok.mp h
  simp only [↓add_bind_eq_ok] at h
  obtain ⟨-, h⟩ := h
  obtain ⟨u, hvalid, h⟩ := bind_eq_ok.mp h
  obtain ⟨rfl, -⟩ := h
  exact flagCurrent_of_checked hvalid hledger (by simp [setValidBounds, setDetails]) rfl

/-- A provider that has given up its endpoints withdraws without the check. -/
theorem decreaseStake_flagCurrent (hledger : (s'.ledger w).Balanced)
    (h : decreaseStake w msg s = .ok (s', result)) : s'.FlagCurrent msg.sender := by
  unfold decreaseStake at h
  simp only [↓require_bind_eq_ok] at h
  obtain ⟨-, -, h⟩ := h
  obtain ⟨mid, -, h⟩ := bind_eq_ok.mp h
  simp only [↓sub_bind_eq_ok] at h
  obtain ⟨-, h⟩ := h
  obtain ⟨u, hvalid, h⟩ := bind_eq_ok.mp h
  obtain ⟨rfl, -⟩ := h
  unfold validateWithEndpoints at hvalid
  split at hvalid
  · exact flagCurrent_of_checked hvalid hledger
      (by simp [setValidBounds, setDetails, setDecreaseStakeRequest]) rfl
  · next hnone =>
    intro hpos
    simp only [setDecreaseStakeRequest, setValidBounds, setDetails, Function.update_self]
      at hpos hnone
    exact absurd hpos hnone

/-- A provider without endpoints left has no flag to keep. -/
theorem deregister_flagCurrent {serviceType : Bytes32} {endpoint : String}
    (hledger : (s'.ledger w).Balanced)
    (h : deregister msg serviceType endpoint s = .ok (s', result)) :
    s'.FlagCurrent msg.sender := by
  obtain ⟨f, hlast, h⟩ := bind_eq_ok.mp h
  have hdetails : f.spDetails = s.spFactory.spDetails := by
    rcases requestLastStake_eq_ok hlast with rfl | rfl <;> rfl
  simp only [↓require_bind_eq_ok, ↓sub_bind_eq_ok] at h
  obtain ⟨-, -, -, -, -, -, h⟩ := h
  obtain ⟨mid, hrevalidate, h⟩ := bind_eq_ok.mp h
  obtain ⟨rfl, -⟩ := h
  unfold revalidate at hrevalidate
  split at hrevalidate
  · next hone =>
    cases hrevalidate
    intro hpos
    simp only [setDetails, setIds, setInfo, setEndpointId, Function.update_self, hdetails]
      at hpos
    simp only [decide_eq_true_eq] at hone
    omega
  · obtain ⟨u, hvalid, h⟩ := bind_eq_ok.mp hrevalidate
    rw [pure_eq_ok] at h
    subst h
    exact flagCurrent_of_checked hvalid hledger (by simp [setValidBounds, setDetails]) rfl

end ServiceProviderFactory

/-- The calls of the factory. -/
theorem ProviderCall.perform_flagCurrent {c : ProviderCall} (hcaller : w.Caller msg.sender)
    (hledger : (s'.ledger w).Balanced) (hcurrent : ∀ sp, s.FlagCurrent sp)
    (h : c.perform w msg s = .ok s') (sp : Address) : s'.FlagCurrent sp := by
  by_cases hderegister : ∃ ty endpoint, c = .deregister ty endpoint
  · obtain ⟨ty, endpoint, rfl⟩ := hderegister
    obtain ⟨⟨s'', n⟩, hcall, rfl⟩ := map_eq_ok.mp h
    by_cases hsp : sp = msg.sender
    · rw [hsp]
      exact deregister_flagCurrent hledger hcall
    · obtain ⟨f, details, hlast, -, -, -, -, rfl, -⟩ := deregister_eq_ok hcall
      refine (hcurrent sp).of_eq ?_ rfl
      rcases requestLastStake_eq_ok hlast with rfl | rfl
      · simp [setDetails, setIds, setInfo, setEndpointId, hsp]
      · simp [setDetails, setIds, setInfo, setEndpointId, setDecreaseStakeRequest, hsp]
  cases c with
  | register ty endpoint amount wallet =>
    obtain ⟨⟨s'', n⟩, hcall, rfl⟩ := map_eq_ok.mp h
    by_cases hsp : sp = msg.sender
    · rw [hsp]
      exact register_flagCurrent hledger hcall
    · obtain ⟨mid, hmoved, -, -, rfl⟩ := register_eq_ok hcaller.ne_staking hcall
      exact (hcurrent sp).of_eq
        (by simp [setDetails, setIds, setInfo, setEndpointId, setTypeID, hsp])
        (hmoved.funds.staked_off sp hsp)
  | increaseStake amount =>
    obtain ⟨⟨s'', n⟩, hcall, rfl⟩ := map_eq_ok.mp h
    by_cases hsp : sp = msg.sender
    · rw [hsp]
      exact increaseStake_flagCurrent hledger hcall
    · obtain ⟨mid, details, hmoved, rfl, -⟩ := increaseStake_eq_ok hcaller.ne_staking hcall
      exact (hcurrent sp).of_eq (by simp [setDetails, hsp]) (hmoved.funds.staked_off sp hsp)
  | decreaseStake =>
    obtain ⟨⟨s'', n⟩, hcall, rfl⟩ := map_eq_ok.mp h
    by_cases hsp : sp = msg.sender
    · rw [hsp]
      exact decreaseStake_flagCurrent hledger hcall
    · obtain ⟨mid, details, amount, -, -, -, -, hmoved, rfl, -⟩ := decreaseStake_eq_ok hcall
      exact (hcurrent sp).of_eq (by simp [setDetails, setDecreaseStakeRequest, hsp])
        (hmoved.funds.staked_off sp hsp)
  | _ =>
    obtain ⟨f, rfl, -, -, -, haccounts, -⟩ :=
      ProviderCall.perform_records hcaller rfl h
    have hsame := haccounts fun ty endpoint heq ↦ hderegister ⟨ty, endpoint, heq⟩
    exact (hcurrent sp).of_tally (hsame.tally sp) (hsame.validBounds sp) rfl

/-! ### Delegations -/

namespace DelegateManagerV2

variable {delegator : Address} {amount result : ℕ}

/-- What a delegation adds to was within bounds already. -/
theorem delegateStake_flagCurrent (hcaller : w.Caller msg.sender)
    (hledger : (s.ledger w).Balanced) (hcurrent : ∀ x, s.FlagCurrent x)
    (h : delegateStake w msg sp amount s = .ok (s', result)) (x : Address) : s'.FlagCurrent x := by
  obtain ⟨mid, d, hmoved, -, -, hmax, rfl⟩ := delegateStake_eq_ok hcaller.ne_staking h
  have hmin : (s.spFactory.spDetails sp).minAccountStake
      ≤ (s.spFactory.spDetails sp).deployerStake := by
    unfold delegateStake at h
    simp only [↓require_bind_eq_ok] at h
    obtain ⟨-, h⟩ := h
    obtain ⟨staked, -, h⟩ := bind_eq_ok.mp h
    obtain ⟨d', -, h⟩ := bind_eq_ok.mp h
    simp only [↓add_bind_eq_ok, ↓require_bind_eq_ok] at h
    obtain ⟨-, -, -, -, h⟩ := h
    obtain ⟨u, hvalid, heq⟩ := bind_eq_ok.mp h
    simp only [pure_eq_ok, Prod.mk.injEq] at heq
    have hchecked := (validateAccountStakeBalance_eq_ok hvalid).2
    rw [heq.1] at hchecked
    simpa only [hmoved.records.spFactory] using hchecked
  by_cases hx : x = sp
  · subst hx
    have hown := deployerStake_le hledger x
    have hbefore : (s.spFactory.spDetails x).InBounds (s.staking.totalStakedFor x) :=
      ⟨hmin.trans hown, (Nat.le_add_right _ _).trans hmax⟩
    unfold System.FlagCurrent
    simp only [hmoved.records.spFactory, hmoved.stake]
    intro hpos
    refine iff_of_true ((hcurrent x hpos).mpr hbefore) ⟨?_, hmax⟩
    exact hbefore.1.trans (Nat.le_add_right _ _)
  · refine (hcurrent x).of_eq ?_ (hmoved.funds.staked_off x hx)
    rw [← hmoved.records.spFactory]

theorem undelegateStake_flagCurrent (hcurrent : ∀ x, s.FlagCurrent x)
    (h : undelegateStake w msg s = .ok (s', result)) (x : Address) : s'.FlagCurrent x := by
  by_cases hx : x = (s.delegateManager.undelegateRequests msg.sender).serviceProvider
  · rw [hx]
    unfold undelegateStake at h
    simp only [↓require_bind_eq_ok] at h
    obtain ⟨-, -, -, h⟩ := h
    obtain ⟨mid, -, h⟩ := bind_eq_ok.mp h
    obtain ⟨d, -, h⟩ := bind_eq_ok.mp h
    simp only [↓require_bind_eq_ok, ↓sub_bind_eq_ok] at h
    obtain ⟨-, -, h⟩ := h
    obtain ⟨last, hupdate, h⟩ := bind_eq_ok.mp h
    obtain ⟨rfl, -⟩ := h
    exact updateServiceProviderStake_flagCurrent hupdate
  · obtain ⟨mid, d, sp, amount, locked, v, rfl, -, -, -, hmoved, -, -, rfl⟩ :=
      undelegateStake_eq_ok h
    exact (hcurrent x).of_eq (by simp [setDetails, hx]) (hmoved.funds.staked_off x hx)

theorem claimRewards_flagCurrent (hcurrent : ∀ x, s.FlagCurrent x)
    (h : claimRewards w msg sp s = .ok s') (x : Address) : s'.FlagCurrent x := by
  obtain ⟨⟨mid, b⟩, hvalidate, h⟩ := bind_eq_ok.mp h
  obtain ⟨hprocess, -, hbalance⟩ := _validateClaimRewards_eq_ok hvalidate
  obtain ⟨-, -, -, hclaimed⟩ := ClaimsManager.processClaim_claimed hprocess
  dsimp only at h
  split at h
  · next hzero =>
    simp only [pure_eq_ok] at h
    subst h
    refine (hcurrent x).of_eq (by rw [hclaimed.records.spFactory]) ?_
    by_cases hx : x = sp
    · rw [hx, hclaimed.stake, hzero, Nat.add_zero]
    · exact hclaimed.funds.staked_off x hx
  · by_cases hx : x = sp
    · subst hx
      obtain ⟨⟨d, increase⟩, -, h⟩ := bind_eq_ok.mp h
      simp only [↓add_bind_eq_ok, ↓sub_bind_eq_ok, ↓require_bind_eq_ok] at h
      obtain ⟨-, -, -, -, -, hupdate⟩ := h
      exact updateServiceProviderStake_flagCurrent hupdate
    · obtain ⟨d, increase, v, hspread, -⟩ := payRewards_eq_ok hbalance h
      rw [hspread.result]
      exact (hcurrent x).of_eq (by simp [setDetails, hx, hclaimed.records.spFactory])
        (hclaimed.funds.staked_off x hx)

theorem slash_flagCurrent (hcurrent : ∀ x, s.FlagCurrent x)
    (h : slash w msg amount sp s = .ok s') (x : Address) : s'.FlagCurrent x := by
  by_cases hx : x = sp
  · subst hx
    unfold slash at h
    simp only [↓require_bind_eq_ok] at h
    obtain ⟨-, -, h⟩ := h
    obtain ⟨cancelled, -, h⟩ := bind_eq_ok.mp h
    simp only [↓require_bind_eq_ok] at h
    obtain ⟨-, h⟩ := h
    obtain ⟨mid, -, h⟩ := bind_eq_ok.mp h
    obtain ⟨⟨d, decrease⟩, -, h⟩ := bind_eq_ok.mp h
    simp only [↓sub_bind_eq_ok] at h
    obtain ⟨-, -, -, -, hupdate⟩ := h
    exact updateServiceProviderStake_flagCurrent hupdate
  · obtain ⟨f, mid, d, decrease, v, -, hf, -, hmoved, -, -, -, -, rfl⟩ := slash_eq_ok h
    refine (hcurrent x).of_eq ?_ (hmoved.funds.staked_off x hx)
    rcases hf with rfl | rfl
    · simp [setDetails, hx]
    · simp [setDetails, setDecreaseStakeRequest, hx]

/-- A removal leaves the flag as it is, whatever the stake is then. -/
theorem removeDelegator_flagCurrent_iff (hcurrent : ∀ x, s.FlagCurrent x)
    (h : removeDelegator w msg sp delegator s = .ok s') :
    (∀ x, s'.FlagCurrent x) ↔ ¬ (0 < (s.spFactory.spDetails sp).numberOfEndpoints ∧
      ¬ ((s.spFactory.spDetails sp).InBounds (s.staking.totalStakedFor sp) ↔
        (s.spFactory.spDetails sp).InBounds (s.staking.totalStakedFor sp
          - s.delegateManager.delegateInfo delegator sp))) := by
  obtain ⟨mid, d, d', amount, rfl, -, -, -, -, -, hmoved, -, -, rfl⟩ := removeDelegator_eq_ok h
  constructor
  · rintro hafter ⟨hpos, hacross⟩
    have hsp := hafter sp
    unfold System.FlagCurrent at hsp
    simp only [hmoved.records.spFactory, hmoved.stake] at hsp
    exact hacross ((hcurrent sp hpos).symm.trans (hsp hpos))
  · intro hsame x
    by_cases hx : x = sp
    · subst hx
      unfold System.FlagCurrent
      simp only [hmoved.records.spFactory, hmoved.stake]
      intro hpos
      refine (hcurrent x hpos).trans ?_
      by_contra hacross
      exact hsame ⟨hpos, hacross⟩
    · refine (hcurrent x).of_eq ?_ (hmoved.funds.staked_off x hx)
      rw [← hmoved.records.spFactory]

end DelegateManagerV2

/-- The calls of the delegation contract, removals apart. -/
theorem DelegationCall.perform_flagCurrent {c : DelegationCall} (hcaller : w.Caller msg.sender)
    (hc : ∀ sp delegator, c ≠ .removeDelegator sp delegator) (hledger : (s.ledger w).Balanced)
    (hcurrent : ∀ sp, s.FlagCurrent sp) (h : c.perform w msg s = .ok s') (sp : Address) :
    s'.FlagCurrent sp := by
  cases c with
  | delegateStake target amount =>
    obtain ⟨⟨s'', n⟩, hcall, rfl⟩ := map_eq_ok.mp h
    exact delegateStake_flagCurrent hcaller hledger hcurrent hcall sp
  | undelegateStake =>
    obtain ⟨⟨s'', n⟩, hcall, rfl⟩ := map_eq_ok.mp h
    exact undelegateStake_flagCurrent hcurrent hcall sp
  | claimRewards target => exact claimRewards_flagCurrent hcurrent h sp
  | slash amount target => exact slash_flagCurrent hcurrent h sp
  | removeDelegator target delegator => exact absurd rfl (hc target delegator)
  | _ =>
    obtain ⟨d, rfl, -⟩ := perform_records rfl h
    exact (hcurrent sp).of_eq rfl rfl

/-- Every call, removals apart. -/
theorem Call.perform_flagCurrent {c : Call} {frame : Option Frame} (hcaller : w.Caller msg.sender)
    (hc : ∀ sp delegator, c ≠ .delegation (.removeDelegator sp delegator))
    (hledger : (s.ledger w).Balanced) (hledger' : (s'.ledger w).Balanced)
    (hcurrent : ∀ sp, s.FlagCurrent sp) (h : c.perform w msg s = .ok (s', frame))
    (sp : Address) : s'.FlagCurrent sp := by
  cases c with
  | providers c =>
    obtain ⟨hcall, rfl⟩ := settled_eq_ok.mp h
    exact c.perform_flagCurrent hcaller hledger' hcurrent hcall sp
  | delegation c =>
    obtain ⟨hcall, rfl⟩ := settled_eq_ok.mp h
    exact c.perform_flagCurrent hcaller (fun sp delegator heq ↦ hc sp delegator (by rw [heq]))
      hledger hcurrent hcall sp
  | _ =>
    obtain ⟨hfactory, -, hstaking, -⟩ := perform_frame hcaller (by simp) (by simp) h
    exact (hcurrent sp).of_eq (by rw [hfactory]) (by rw [hstaking])

/-! ### Every run -/

variable {ss ss' start : Session System} {e : Event}

/-- From current flags a step leads to current flags just when it is no removal across bounds. -/
theorem step_flagCurrent_iff (haccounted : Accounted w ss.now ss.state)
    (hcurrent : ∀ sp, ss.state.FlagCurrent sp) (h : step w ss e = .ok ss') :
    (∀ sp, ss'.state.FlagCurrent sp) ↔ ¬ RemovesAcrossBounds w ss e := by
  have hledger := (step_accounted haccounted h).ledger
  by_cases hremoves : ∃ msg sp delegator, e = .call msg (.delegation (.removeDelegator sp delegator))
  · obtain ⟨msg, sp, delegator, rfl⟩ := hremoves
    obtain ⟨hadmits, ⟨s', frame⟩, hperform, heq⟩ := step_call_eq_ok h
    have hstate : ss'.state = s' := by rw [heq]; rfl
    obtain ⟨hcall, -⟩ := settled_eq_ok.mp hperform
    rw [hstate, removeDelegator_flagCurrent_iff hcurrent hcall]
    refine not_congr ⟨fun hacross ↦ ⟨⟨ss', h⟩, msg, sp, delegator, rfl, hacross⟩, ?_⟩
    rintro ⟨-, msg', sp', delegator', heq, hacross⟩
    cases heq
    exact hacross
  · have hnone : ¬ RemovesAcrossBounds w ss e := by
      rintro ⟨-, msg, sp, delegator, heq, -⟩
      exact hremoves ⟨msg, sp, delegator, heq⟩
    refine iff_of_true (fun sp ↦ ?_) hnone
    cases e with
    | returned =>
      obtain ⟨frame, rest, g, -, -, rfl⟩ := step_returned_eq_ok h
      exact (hcurrent sp).of_eq rfl rfl
    | call msg c =>
      obtain ⟨hadmits, ⟨s', frame⟩, hperform, rfl⟩ := step_call_eq_ok h
      have hcaller := admits_caller hadmits
      refine c.perform_flagCurrent hcaller (fun sp delegator heq ↦ ?_) haccounted.ledger hledger
        hcurrent hperform sp
      exact hremoves ⟨msg, sp, delegator, by rw [heq]⟩

/-- No provider has an endpoint at first. -/
theorem deploy_flagCurrent {p : Deployment} (hp : deploy w p = .ok start) (sp : Address) :
    start.state.FlagCurrent sp := by
  obtain ⟨-, -, -, -, token, -, rfl⟩ := deploy_eq_ok hp
  exact fun hpos ↦ absurd hpos (Nat.lt_irrefl 0)

/-- In a run from any accepted deployment the flags of all providers with endpoints are current at
all times, and claims are paid under them only, just when no removal takes a stake across bounds. -/
theorem validBounds_current_iff {p : Deployment} {es : List Event}
    (hp : deploy w p = .ok start) :
    (∀ fs, fs <+: es → (∀ sp, (replay (step w) start fs).state.FlagCurrent sp) ∧
        (replay (step w) start fs).state.PaysUnderFlag w) ↔
      Along (step w) (fun ss e ↦ ¬ RemovesAcrossBounds w ss e) start es := by
  have hpays : ∀ fs, (replay (step w) start fs).state.PaysUnderFlag w := fun fs ↦
    ClaimsManager.processClaim_paysUnderFlag w _
  have hflags : (∀ fs, fs <+: es → (∀ sp, (replay (step w) start fs).state.FlagCurrent sp) ∧
        (replay (step w) start fs).state.PaysUnderFlag w) ↔
      ∀ fs, fs <+: es → ∀ sp, (replay (step w) start fs).state.FlagCurrent sp :=
    forall₂_congr fun fs _ ↦ and_iff_left (hpays fs)
  rw [hflags]
  exact prefixes_iff_along_of_ok (W := fun ss : Session System ↦ Accounted w ss.now ss.state)
    (P := fun ss ↦ ∀ sp, ss.state.FlagCurrent sp) (fun _ _ _ ↦ step_accounted)
    (fun _ _ _ haccounted hcurrent hstep ↦ step_flagCurrent_iff haccounted hcurrent hstep)
    (fun _ _ hreverts hremoves ↦ hreverts hremoves.1) (deploy_accounted hp)
    (deploy_flagCurrent hp)

end StakeBounds

namespace Scenario

/-- A service type with a maximum that `owner` and a large delegation reach together. -/
def atMaximum : List Event :=
  setting 1 (.types (.addServiceType 1 (10 ^ 23) (11 * 10 ^ 24)))
    ++ [at_ 1 owner (.token (.approve wiring.staking (10 ^ 26))),
      at_ 2 owner (.providers (.register 1 "a.service" (5 * 10 ^ 24) owner)),
      at_ 2 owner (.token (.transfer delegator (6 * 10 ^ 24))),
      at_ 2 delegator (.token (.approve wiring.staking (6 * 10 ^ 24))),
      at_ 2 delegator (.delegation (.delegateStake owner (6 * 10 ^ 24)))]

/-- A reward that takes `owner` beyond the maximum, and the removal of the delegator. -/
def removedAcross : List Event :=
  atMaximum ++ [at_ 50000 owner (.claims .initiateRound),
    at_ 50001 owner (.delegation (.claimRewards owner)),
    at_ 50002 owner (.delegation (.requestRemoveDelegator owner delegator)),
    at_ 96525 owner (.delegation (.removeDelegator owner delegator))]

end Scenario

open Scenario in
/-- After the removal the stake is within bounds again, and the flag says that it is not. -/
theorem validBounds_stale :
    ¬ ∀ ss : Session System, Reachable wiring ss → ∀ sp, ss.state.FlagCurrent sp := by
  intro h
  have hflag := h (after removedAcross) (reachable_after _) owner (by decide +kernel)
  have hwithin : ((after removedAcross).state.spFactory.spDetails owner).InBounds
      ((after removedAcross).state.staking.totalStakedFor owner) := by
    constructor <;> decide +kernel
  exact absurd (hflag.mpr hwithin) (by decide +kernel)

open Scenario in
theorem validBounds_current_iff_atMaximum :
    (∀ fs, fs <+: atMaximum → (∀ sp, (replay (step wiring) start fs).state.FlagCurrent sp) ∧
        (replay (step wiring) start fs).state.PaysUnderFlag wiring) ↔
      Along (step wiring) (fun ss e ↦ ¬ RemovesAcrossBounds wiring ss e) start atMaximum :=
  validBounds_current_iff deploy_start

end ColivingSpec
