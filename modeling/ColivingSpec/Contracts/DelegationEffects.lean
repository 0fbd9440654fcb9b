import ColivingSpec.Contracts.ProviderEffects
import ColivingSpec.Contracts.Resharing

/-!
# What the delegation calls do

One statement for each function of `DelegateManagerV2.sol` that moves stake: the guards
it passed, the movement of funds, and the records it leaves in the two contracts that
keep copies of the stake.
-/

namespace ColivingSpec

open Lib ServiceProviderFactory

variable [Keccak256] {w : Wiring} {msg : Msg} {s s' : System} {result : ℕ}

/-- A written deployer stake, with the bounds flag that follows from it. -/
theorem ServiceProviderFactory.updateServiceProviderStake_eq_ok {sp : Address} {amount : ℕ}
    (h : updateServiceProviderStake w msg sp amount s = .ok s') :
    msg.sender = w.delegateManager ∧ ∃ validBounds, s' = { s with
      spFactory := s.spFactory.setDetails sp
        { s.spFactory.spDetails sp with deployerStake := amount, validBounds } } := by
  unfold updateServiceProviderStake at h
  simp only [↓require_bind_eq_ok, pure_eq_ok] at h
  obtain ⟨hsender, rfl⟩ := h
  refine ⟨hsender, ?_⟩
  unfold _updateServiceProviderBoundStatus
  simp only [setDeployerStake, setValidBounds_setDetails]
  exact ⟨_, rfl⟩

namespace DelegateManagerV2

variable {sp : Address}

/-- A delegation comes in from the delegator and is recorded three times. -/
theorem delegateStake_eq_ok {amount : ℕ} (hsender : msg.sender ≠ w.staking)
    (h : delegateStake w msg sp amount s = .ok (s', result)) :
    ∃ mid d, Moved w msg.blockNumber sp (s.staking.totalStakedFor sp + amount) s mid ∧
      0 < amount ∧ s.delegateManager.enlist msg.sender sp = .ok d ∧
      s.staking.totalStakedFor sp + amount ≤ (s.spFactory.spDetails sp).maxAccountStake ∧
      s' = { mid with
        delegateManager := d._updateDelegatorStake msg.sender sp
          ((d.spDelegateInfo sp).totalDelegatedStake + amount)
          (d.delegateInfo msg.sender sp + amount)
          (d.delegatorTotalStake msg.sender + amount) } := by
  unfold delegateStake Staking.delegateStakeFor at h
  simp only [↓require_bind_eq_ok] at h
  obtain ⟨-, h⟩ := h
  obtain ⟨mid, hstake, h⟩ := bind_eq_ok.mp h
  simp only [require_bind_eq_ok] at hstake
  have hmoved := Staking._stakeFor_moved hsender hstake.2
  obtain ⟨-, -, hpos, -⟩ := Staking._stakeFor_eq_ok hstake.2
  obtain ⟨d, henlist, h⟩ := bind_eq_ok.mp h
  rw [hmoved.records.delegateManager] at henlist
  simp only [↓add_bind_eq_ok, ↓require_bind_eq_ok] at h
  obtain ⟨-, -, -, -, h⟩ := h
  obtain ⟨_, hvalid, h⟩ := bind_eq_ok.mp h
  obtain ⟨rfl, -⟩ := h
  unfold validateAccountStakeBalance
    ServiceProviderFactory._validateBalanceInternal at hvalid
  simp only [↓require_bind_eq_ok, require_eq_ok, hmoved.stake, hmoved.records.spFactory] at hvalid
  exact ⟨mid, d, hmoved, hpos, henlist, hvalid.1, rfl⟩

/-- An undelegation pays out exactly what was requested, once the lockup is over. -/
theorem undelegateStake_eq_ok (h : undelegateStake w msg s = .ok (s', result)) :
    ∃ mid d sp amount locked validBounds,
      sp = (s.delegateManager.undelegateRequests msg.sender).serviceProvider ∧
      amount = (s.delegateManager.undelegateRequests msg.sender).amount ∧
      (s.delegateManager.undelegateRequests msg.sender).lockupExpiryBlock ≤ msg.blockNumber ∧
      amount ≤ s.staking.totalStakedFor sp ∧
      Moved w msg.blockNumber sp (s.staking.totalStakedFor sp - amount) s mid ∧
      s.delegateManager.withdraw msg.sender sp amount = .ok d ∧
      locked = ((d.delist msg.sender sp).spDelegateInfo sp).totalLockedUpStake - amount ∧
      s' = { mid with
        spFactory := s.spFactory.setDetails sp { s.spFactory.spDetails sp with validBounds }
        delegateManager := ((d.delist msg.sender sp)._updateServiceProviderLockupAmount sp
          locked)._resetUndelegateStakeRequest msg.sender } := by
  unfold undelegateStake Staking.undelegateStakeFor at h
  simp only [↓require_bind_eq_ok] at h
  obtain ⟨-, hexpiry, -, h⟩ := h
  obtain ⟨mid, hstake, h⟩ := bind_eq_ok.mp h
  simp only [require_bind_eq_ok] at hstake
  obtain ⟨-, hle, hmoved⟩ := Staking._unstakeFor_moved hstake.2
  obtain ⟨d, hwithdraw, h⟩ := bind_eq_ok.mp h
  rw [hmoved.records.delegateManager] at hwithdraw
  simp only [↓require_bind_eq_ok, ↓sub_bind_eq_ok] at h
  obtain ⟨-, -, h⟩ := h
  obtain ⟨last, hupdate, h⟩ := bind_eq_ok.mp h
  obtain ⟨-, validBounds, hlast⟩ := updateServiceProviderStake_eq_ok hupdate
  obtain ⟨rfl, -⟩ := h
  simp only [hmoved.records.spFactory] at hlast
  exact ⟨mid, d, _, _, _, validBounds, rfl, rfl, hexpiry, hle, hmoved, hwithdraw, rfl, hlast⟩

/-- A removal pays out the whole share of the delegator, within its window. -/
theorem removeDelegator_eq_ok {delegator : Address}
    (h : removeDelegator w msg sp delegator s = .ok s') :
    ∃ mid d d' amount, amount = s.delegateManager.delegateInfo delegator sp ∧
      (msg.sender = sp ∨ msg.sender = w.governance) ∧
      s.delegateManager.removeDelegatorRequests sp delegator ≠ 0 ∧
      s.delegateManager.removeDelegatorRequests sp delegator ≤ msg.blockNumber ∧
      0 < amount ∧ amount ≤ s.staking.totalStakedFor sp ∧
      Moved w msg.blockNumber sp (s.staking.totalStakedFor sp - amount) s mid ∧
      s.delegateManager.withdraw delegator sp amount = .ok d ∧
      d.dropRequestFor delegator sp = .ok d' ∧
      s' = { mid with
        delegateManager := (d'._removeFromDelegatorsList sp delegator).setRemoveDelegatorRequest
          sp delegator 0 } := by
  unfold removeDelegator Staking.undelegateStakeFor at h
  simp only [↓require_bind_eq_ok, ↓add_bind_eq_ok] at h
  obtain ⟨hsender, hpending, hexpiry, -, -, h⟩ := h
  obtain ⟨mid, hstake, h⟩ := bind_eq_ok.mp h
  simp only [require_bind_eq_ok] at hstake
  obtain ⟨hpos, hle, hmoved⟩ := Staking._unstakeFor_moved hstake.2
  obtain ⟨d, hwithdraw, h⟩ := bind_eq_ok.mp h
  rw [hmoved.records.delegateManager] at hwithdraw
  obtain ⟨d', hdrop, h⟩ := bind_eq_ok.mp h
  simp only [pure_eq_ok] at h
  exact ⟨mid, d, d', _, rfl, hsender, hpending, hexpiry, hpos, hle, hmoved, hwithdraw, hdrop,
    h.symm⟩

/-- The stake of `sp` and its delegators that a claim leaves out. -/
def lockedStake (sp : Address) (s : System) : ℕ :=
  (s.delegateManager.spDelegateInfo sp).totalLockedUpStake
    + (s.spFactory.decreaseStakeRequests sp).decreaseAmount

/-- A claim that mints, spread over the delegators with the rest for the provider. -/
structure Spread (sp : Address) (reward : ℕ) (s s' : System) (d : DelegateManagerV2)
    (increase : ℕ) (validBounds : Bool) : Prop where
  distributed : ∃ funds cut, s.delegateManager._distributeDelegateRewards sp funds reward cut
    (s.delegateManager.spDelegateInfo sp).delegators 0 = .ok (d, increase)
  increase_le : increase ≤ reward
  result : s' = { s with
    spFactory := s.spFactory.setDetails sp { s.spFactory.spDetails sp with
      deployerStake := (s.spFactory.spDetails sp).deployerStake + (reward - increase)
      validBounds }
    delegateManager := d.setTotalDelegatedStake sp
      ((d.spDelegateInfo sp).totalDelegatedStake + increase) }

/-- A claim is processed before anything is spread. -/
theorem _validateClaimRewards_eq_ok {b : ClaimBalances}
    (h : _validateClaimRewards w msg sp s = .ok (s', b)) :
    ClaimsManager.processClaim w (msg.calledBy w.delegateManager) sp (lockedStake sp s) s
        = .ok (s', b.totalRewards) ∧
      b.deployerCut = (s'.spFactory.spDetails sp).deployerCut ∧
      b.totalBalanceInSPFactory = (s'.spFactory.spDetails sp).deployerStake := by
  unfold _validateClaimRewards totalLockedUpStake at h
  simp only [↓add_bind_eq_ok] at h
  obtain ⟨-, h⟩ := h
  obtain ⟨⟨claimed, reward⟩, hprocess, h⟩ := bind_eq_ok.mp h
  simp only [↓add_bind_eq_ok, ↓sub_bind_eq_ok, ↓require_bind_eq_ok, pure_eq_ok, Prod.mk.injEq] at h
  obtain ⟨-, -, -, -, rfl, rfl⟩ := h
  exact ⟨hprocess, rfl, rfl⟩

/-- A spread reward goes to the delegators, the rest to the provider. -/
theorem payRewards_eq_ok {b : ClaimBalances}
    (hbalance : b.totalBalanceInSPFactory = (s.spFactory.spDetails sp).deployerStake)
    (h : payRewards w msg sp b s = .ok s') :
    ∃ d increase validBounds, Spread sp b.totalRewards s s' d increase validBounds ∧
      s.delegateManager._distributeDelegateRewards sp b.totalActiveFunds b.totalRewards
        b.deployerCut (s.delegateManager.spDelegateInfo sp).delegators 0 = .ok (d, increase) := by
  obtain ⟨⟨d, increase⟩, hspread, h⟩ := bind_eq_ok.mp h
  simp only [↓add_bind_eq_ok, ↓sub_bind_eq_ok, ↓require_bind_eq_ok] at h
  obtain ⟨-, hle, -, -, -, hupdate⟩ := h
  obtain ⟨-, validBounds, hlast⟩ := updateServiceProviderStake_eq_ok hupdate
  rw [hbalance] at hlast
  exact ⟨d, increase, validBounds, ⟨⟨_, _, hspread⟩, hle, hlast⟩, hspread⟩

/-- A claim mints a reward at most the provider's share and spreads it, or mints nothing. -/
theorem claimRewards_eq_ok (h : claimRewards w msg sp s = .ok s') :
    ∃ mid reward, Claimed w msg.blockNumber sp reward s mid ∧
      s.staking.lastClaimedFor sp ≤ s.claimsManager.currentRound.fundedBlock ∧
      reward ≤ ClaimsManager.rewardAt sp (lockedStake sp s) s ∧
      (reward = 0 ∧ s' = mid ∨
        ∃ d increase validBounds, Spread sp reward mid s' d increase validBounds) := by
  obtain ⟨⟨mid, b⟩, hvalidate, h⟩ := bind_eq_ok.mp h
  obtain ⟨hprocess, -, hbalance⟩ := _validateClaimRewards_eq_ok hvalidate
  obtain ⟨-, hlast, hreward, hclaimed⟩ := ClaimsManager.processClaim_claimed hprocess
  refine ⟨mid, b.totalRewards, hclaimed, hlast, hreward, ?_⟩
  simp only at h
  split at h
  · next hzero =>
    simp only [pure_eq_ok] at h
    exact .inl ⟨hzero, h.symm⟩
  · obtain ⟨d, increase, validBounds, hspread, -⟩ := payRewards_eq_ok hbalance h
    exact .inr ⟨d, increase, validBounds, hspread⟩

/-- A slash burns the amount, scales the delegators down and leaves the rest to the
provider. -/
theorem slash_eq_ok {amount : ℕ} (h : slash w msg amount sp s = .ok s') :
    ∃ f mid d decrease validBounds, msg.sender = w.governance ∧
      (f = s.spFactory ∨ f = s.spFactory.setDecreaseStakeRequest sp ⟨0, 0⟩) ∧
      amount ≤ s.staking.totalStakedFor sp ∧
      Moved w msg.blockNumber sp (s.staking.totalStakedFor sp - amount)
        { s with spFactory := f } mid ∧
      s.delegateManager.slashDelegators sp (s.staking.totalStakedFor sp)
        (s.staking.totalStakedFor sp - amount) (s.delegateManager.spDelegateInfo sp).delegators 0
          = .ok (d, decrease) ∧
      decrease ≤ (d.spDelegateInfo sp).totalDelegatedStake ∧ decrease ≤ amount ∧
      amount - decrease ≤ (s.spFactory.spDetails sp).deployerStake ∧
      s' = { mid with
        spFactory := f.setDetails sp { s.spFactory.spDetails sp with
          deployerStake := (s.spFactory.spDetails sp).deployerStake - (amount - decrease)
          validBounds }
        delegateManager := d.setTotalDelegatedStake sp
          ((d.spDelegateInfo sp).totalDelegatedStake - decrease) } := by
  unfold slash at h
  simp only [↓require_bind_eq_ok] at h
  obtain ⟨hsender, hle, h⟩ := h
  obtain ⟨cancelled, hcancel, h⟩ := bind_eq_ok.mp h
  obtain ⟨f, hf, rfl⟩ : ∃ f, (f = s.spFactory ∨
      f = s.spFactory.setDecreaseStakeRequest sp ⟨0, 0⟩) ∧
      cancelled = { s with spFactory := f } := by
    unfold cancelPendingDecrease cancelDecreaseStakeRequest at hcancel
    split at hcancel
    · simp only [↓require_bind_eq_ok, pure_eq_ok] at hcancel
      exact ⟨_, .inr rfl, hcancel.2.2.symm⟩
    · cases hcancel
      exact ⟨_, .inl rfl, rfl⟩
  have hdetails : f.spDetails = s.spFactory.spDetails := by
    rcases hf with rfl | rfl <;> rfl
  simp only [↓require_bind_eq_ok, hdetails] at h
  obtain ⟨-, h⟩ := h
  obtain ⟨mid, hslash, h⟩ := bind_eq_ok.mp h
  have hmoved := Staking.slash_moved hslash
  obtain ⟨⟨d, decrease⟩, hloop, h⟩ := bind_eq_ok.mp h
  simp only [hmoved.records.delegateManager, hmoved.stake] at hloop
  simp only [↓sub_bind_eq_ok, hmoved.stake, Nat.sub_sub_self hle] at h
  obtain ⟨hdelegated, -, hdecrease, hrest, hupdate⟩ := h
  obtain ⟨-, validBounds, hlast⟩ := updateServiceProviderStake_eq_ok hupdate
  simp only [hmoved.records.spFactory, hdetails] at hlast
  exact ⟨f, mid, d, decrease, validBounds, hsender, hf, hle, hmoved, hloop, hdelegated, hdecrease,
    hrest, hlast⟩

end DelegateManagerV2

end ColivingSpec
