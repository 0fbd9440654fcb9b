import ColivingSpec.System.Delegators

/-!
# What a claim pays

The reward that a claim mints is divided without remainder: the delegators get their rounded parts,
each recorded once in the share, in the delegator's total and in the provider's total, and the
provider gets what is left.
-/

namespace ColivingSpec

open Lib DelegateManagerV2

section RewardClaims

variable [Keccak256] {w : Wiring} {msg : Msg} {ss : Session System} {mid : System} {sp : Address}

/-- A reward of `b`, split between the delegators of `sp` and `sp` itself. -/
structure System.SplitsReward (s s' : System) (sp : Address)
    (b : DelegateManagerV2.ClaimBalances) (part : Address → ℕ) : Prop where
  recorded : ∀ a, s'.delegateManager.delegateInfo a sp
    = s.delegateManager.delegateInfo a sp + part a
  delegatorTotal : ∀ a, s'.delegateManager.delegatorTotalStake a
    = s.delegateManager.delegatorTotalStake a + part a
  delegatedTotal : (s'.delegateManager.spDelegateInfo sp).totalDelegatedStake
    = (s.delegateManager.spDelegateInfo sp).totalDelegatedStake + ∑ a, part a
  elsewhere : ∀ a x, x ≠ sp →
    s'.delegateManager.delegateInfo a x = s.delegateManager.delegateInfo a x
  unlisted : ∀ a, a ∉ (s.delegateManager.spDelegateInfo sp).delegators → part a = 0
  proportional : ∀ a, part a * b.totalActiveFunds
    ≤ s.delegateManager.activeShare a sp * b.totalRewards
  conserved : ∑ a, part a + (s'.spFactory.spDetails sp).deployerStake
    = (s.spFactory.spDetails sp).deployerStake + b.totalRewards

/-- A claim that mints nothing splits nothing. -/
theorem splitsReward_of_zero {s : System} {b : ClaimBalances} {cut : ℕ} (l : List Address)
    (hzero : b.totalRewards = 0) (hmanager : mid.delegateManager = s.delegateManager)
    (hfactory : mid.spFactory = s.spFactory) :
    s.SplitsReward mid sp b (s.delegateManager.increase sp b.totalActiveFunds b.totalRewards
      cut l) := by
  have hnone : ∀ a, s.delegateManager.increase sp b.totalActiveFunds b.totalRewards cut l a
      = 0 := by
    intro a
    rw [hzero]
    simp [increase, delegatePart, rewardsPriorToSPCut]
  have hsum : ∑ a, s.delegateManager.increase sp b.totalActiveFunds b.totalRewards cut l a = 0 :=
    Finset.sum_eq_zero fun a _ ↦ hnone a
  constructor
  · intro a
    rw [hmanager, hnone, Nat.add_zero]
  · intro a
    rw [hmanager, hnone, Nat.add_zero]
  · rw [hmanager, hsum, Nat.add_zero]
  · intro a x _
    rw [hmanager]
  · intro a _
    exact hnone a
  · exact increase_mul_le
  · rw [hsum, hzero, hfactory, Nat.zero_add, Nat.add_zero]

/-- A claim that mints splits what it mints. -/
theorem splitsReward_of_spread {s s' : System} {b : ClaimBalances} {d : DelegateManagerV2}
    {increased : ℕ} {validBounds : Bool} (hsound : s.delegateManager.Sound)
    (hfactory : mid.spFactory = s.spFactory)
    (hspread : Spread sp b.totalRewards mid s' d increased validBounds)
    (hloop : s.delegateManager._distributeDelegateRewards sp b.totalActiveFunds b.totalRewards
      b.deployerCut (s.delegateManager.spDelegateInfo sp).delegators 0 = .ok (d, increased)) :
    s.SplitsReward s' sp b (s.delegateManager.increase sp b.totalActiveFunds b.totalRewards
      b.deployerCut (s.delegateManager.spDelegateInfo sp).delegators) := by
  obtain ⟨hreshares, honly, -, hsum⟩ := _distributeDelegateRewards_spec hloop
  have hshares := _distributeDelegateRewards_increase (hsound.nodup sp) (hsound.nobody sp) hloop
  have hinfo : d.spDelegateInfo = s.delegateManager.spDelegateInfo := by
    rw [honly]
  have hincreased : increased = ∑ a, s.delegateManager.increase sp b.totalActiveFunds
      b.totalRewards b.deployerCut (s.delegateManager.spDelegateInfo sp).delegators a := by
    have hsplit := Finset.sum_congr rfl fun a (_ : a ∈ Finset.univ) ↦ hshares a
    rw [Finset.sum_add_distrib] at hsplit
    omega
  have hle := hspread.increase_le
  rw [hspread.result]
  constructor
  · exact hshares
  · intro a
    have htotal := hreshares.totals a
    have hshare := hshares a
    show d.delegatorTotalStake a = _
    omega
  · rw [← hincreased]
    rw [totalDelegatedStake_setTotalDelegatedStake, if_pos rfl, hinfo]
  · exact hreshares.share_off
  · intro a ha
    exact if_neg ha
  · exact increase_mul_le
  · rw [← hincreased, ← hfactory]
    simp only [ServiceProviderFactory.setDetails, Function.update_self]
    omega

/-- A claim in any reachable session. When the active stakes are at most the active funds and the
cut is at most its base, no cut exceeds the part it is taken from, so that a delegator's reward can
fail only for a product that is too large or for want of funds, the parts do not exceed the reward,
and what a claim pays is exactly the reward that was minted. -/
theorem claimRewards_conserves {b : ClaimBalances} (h : Reachable w ss)
    (hvalidate : _validateClaimRewards w msg sp ss.state = .ok (mid, b))
    (hactive : ∑ a ∈ (ss.state.delegateManager.spDelegateInfo sp).delegators.toFinset,
      ss.state.delegateManager.activeShare a sp ≤ b.totalActiveFunds)
    (hcut : b.deployerCut ≤ ServiceProviderFactory.deployerCutBase) :
    let d := ss.state.delegateManager
    let l := (d.spDelegateInfo sp).delegators
    let part := d.increase sp b.totalActiveFunds b.totalRewards b.deployerCut l
    (∃ locked, ClaimsManager.processClaim w (msg.calledBy w.delegateManager) sp locked ss.state
        = .ok (mid, b.totalRewards)) ∧
      (∀ a ∈ l, d.activeStake a sp = .ok (d.activeShare a sp) ∧
        spDeployerCut b.totalActiveFunds b.totalRewards b.deployerCut (d.activeShare a sp)
          ≤ rewardsPriorToSPCut b.totalActiveFunds b.totalRewards (d.activeShare a sp) ∧
        (Succeeds (delegateReward (d.activeShare a sp) b.totalActiveFunds b.totalRewards
            b.deployerCut) ↔
          RewardFits b.totalActiveFunds b.totalRewards b.deployerCut (d.activeShare a sp))) ∧
      ∑ a, part a ≤ b.totalRewards ∧
      ∀ s', claimRewards w msg sp ss.state = .ok s' → ss.state.SplitsReward s' sp b part := by
  intro d l part
  have hsound : d.Sound := h.delegatorsSound.delegateManager
  obtain ⟨hprocess, -, hbalance⟩ := _validateClaimRewards_eq_ok hvalidate
  obtain ⟨-, -, -, hclaimed⟩ := ClaimsManager.processClaim_claimed hprocess
  have hmanager := hclaimed.records.delegateManager
  have hfactory := hclaimed.records.spFactory
  refine ⟨⟨_, hprocess⟩, fun a _ ↦ ⟨activeStake_of_backed (hsound.backed a sp),
    spDeployerCut_le hcut, delegateReward_succeeds_iff hcut⟩, sum_increase_le hactive,
    fun s' hclaim ↦ ?_⟩
  unfold claimRewards at hclaim
  rw [hvalidate, ok_bind] at hclaim
  dsimp only at hclaim
  split at hclaim
  · next hzero =>
    rw [pure_eq_ok] at hclaim
    exact hclaim ▸ splitsReward_of_zero l hzero hmanager hfactory
  · obtain ⟨d', increased, validBounds, hspread, hloop⟩ := payRewards_eq_ok hbalance hclaim
    rw [hmanager] at hloop
    exact splitsReward_of_spread hsound hfactory hspread hloop

end RewardClaims

namespace Scenario

/-- A round opened after a delegation. -/
def claimable : List Event := delegated ++ [at_ 50000 owner (.claims .initiateRound)]

/-- What a claim after it is processed with, and the state once it is processed. -/
def processed : System × DelegateManagerV2.ClaimBalances :=
  valueOf (_validateClaimRewards wiring ⟨owner, 50001⟩ owner (after claimable).state)
    (by decide +kernel)

/-- The state that claim leaves. -/
def paidOut : System :=
  valueOf (claimRewards wiring ⟨owner, 50001⟩ owner (after claimable).state) (by decide +kernel)

end Scenario

open Scenario in
theorem claimRewards_conserves_claimable :
    (after claimable).state.SplitsReward paidOut owner processed.2
      ((after claimable).state.delegateManager.increase owner processed.2.totalActiveFunds
        processed.2.totalRewards processed.2.deployerCut
        ((after claimable).state.delegateManager.spDelegateInfo owner).delegators) := by
  have hvalidate : _validateClaimRewards wiring ⟨owner, 50001⟩ owner (after claimable).state
      = .ok (processed.1, processed.2) := eq_ok_valueOf _ (by decide +kernel)
  have hconserves := claimRewards_conserves (reachable_after claimable) hvalidate
    (by decide +kernel) (by decide +kernel)
  exact hconserves.2.2.2 paidOut (eq_ok_valueOf _ (by decide +kernel))

end ColivingSpec
