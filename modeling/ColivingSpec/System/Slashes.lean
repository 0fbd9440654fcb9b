import ColivingSpec.Contracts.SlashShares
import ColivingSpec.System.Delegators
import ColivingSpec.System.Ledger

/-!
# What a slash takes

A slash burns its amount: every delegator keeps its part of what is left, rounded down, and the
provider bears the rest. The requests to withdraw go, those to remove a delegator stay. It goes
through unless the rounded losses of the delegators exceed the amount, or a number is too large.
-/

namespace ColivingSpec

open Lib ServiceProviderFactory Staking

section Slashes

variable [Keccak256] {w : Wiring} {msg : Msg} {s s' : System} {sp : Address} {amount now : ℕ}

/-- Only the block number, a product or the rounding can keep the slash from going through. -/
structure System.SlashFits (s : System) (blockNumber amount : ℕ) (sp : Address) : Prop where
  block : blockNumber < uint64Bound
  products : ∀ a ∈ (s.delegateManager.spDelegateInfo sp).delegators,
    (s.staking.totalStakedFor sp - amount) * s.delegateManager.delegateInfo a sp < uint256Bound
  rounded : ∑ a ∈ (s.delegateManager.spDelegateInfo sp).delegators.toFinset,
    (s.delegateManager.delegateInfo a sp - (s.staking.totalStakedFor sp - amount)
      * s.delegateManager.delegateInfo a sp / s.staking.totalStakedFor sp) ≤ amount

/-- A slash of `amount`, shared by the delegators of `sp` and `sp` itself. -/
structure System.Slashed (s s' : System) (amount : ℕ) (sp : Address) : Prop where
  total : s'.staking.totalStakedFor sp + amount = s.staking.totalStakedFor sp
  shares : ∀ a, s'.delegateManager.delegateInfo a sp = s'.staking.totalStakedFor sp
    * s.delegateManager.delegateInfo a sp / s.staking.totalStakedFor sp
  remainder : (s'.spFactory.spDetails sp).deployerStake + ∑ a, s'.delegateManager.delegateInfo a sp
    = s'.staking.totalStakedFor sp
  elsewhere : ∀ a x, x ≠ sp →
    s'.delegateManager.delegateInfo a x = s.delegateManager.delegateInfo a x
  delegatorTotals : ∀ a,
    s'.delegateManager.delegatorTotalStake a + s.delegateManager.delegateInfo a sp
      = s.delegateManager.delegatorTotalStake a + s'.delegateManager.delegateInfo a sp
  undelegations : ∀ a ∈ (s.delegateManager.spDelegateInfo sp).delegators,
    (s'.delegateManager.undelegateRequests a).amount = 0
  otherRequests : ∀ a ∉ (s.delegateManager.spDelegateInfo sp).delegators,
    s'.delegateManager.undelegateRequests a = s.delegateManager.undelegateRequests a
  unlocked : ∀ a, s'.delegateManager.lockedBy a sp = 0
  locked : ∀ x, (s'.delegateManager.spDelegateInfo x).totalLockedUpStake
    = s'.delegateManager.lockedTotal x
  decrease : (s'.spFactory.decreaseStakeRequests sp).decreaseAmount = 0
  removals : s'.delegateManager.removeDelegatorRequests = s.delegateManager.removeDelegatorRequests

/-! ### The request of the provider -/

/-- A pending withdrawal of a provider has a block at which it is due. -/
structure System.DecreasesDue (s : System) : Prop where
  lockup : 0 < s.spFactory.decreaseStakeLockupDuration
  due : ∀ x, (s.spFactory.decreaseStakeRequests x).decreaseAmount ≠ 0 →
    (s.spFactory.decreaseStakeRequests x).lockupExpiryBlock ≠ 0

/-- What a call does to the factory keeps the withdrawals due. -/
theorem FactoryUpkeep.decreasesDue (hupkeep : FactoryUpkeep msg s s'.spFactory)
    (h : s.DecreasesDue) : s'.DecreasesDue where
  lockup := by
    have hlockup := h.lockup
    obtain heq | hlt := hupkeep.decreaseLockup
    · omega
    · omega
  due x hamount := by
    have hlockup := h.lockup
    obtain heq | heq | heq := hupkeep.decreaseRequest x
    · rw [heq] at hamount ⊢
      exact h.due x hamount
    · rw [heq] at hamount
      exact absurd rfl hamount
    · omega

theorem step_decreasesDue {ss ss' : Session System} {e : Event} (h : ss.state.DecreasesDue)
    (hstep : step w ss e = .ok ss') : ss'.state.DecreasesDue := by
  cases e with
  | returned =>
    obtain ⟨frame, rest, g, -, -, rfl⟩ := step_returned_eq_ok hstep
    exact ⟨h.lockup, h.due⟩
  | call msg c =>
    obtain ⟨hadmits, ⟨s', frame⟩, hperform, rfl⟩ := step_call_eq_ok hstep
    exact (Call.perform_upkeep (admits_caller hadmits) hperform).factory.decreasesDue h

theorem deploy_decreasesDue {p : Deployment} {start : Session System}
    (hp : deploy w p = .ok start) : start.state.DecreasesDue := by
  obtain ⟨hlockup, -, -, -, token, -, rfl⟩ := deploy_eq_ok hp
  exact ⟨Nat.zero_lt_of_lt hlockup, fun x hamount ↦ absurd rfl hamount⟩

theorem Reachable.decreasesDue {ss : Session System} (h : Reachable w ss) :
    ss.state.DecreasesDue :=
  h.induction (fun _ _ ↦ deploy_decreasesDue) (fun _ _ _ ↦ step_decreasesDue)

namespace DelegateManagerV2

/-- A withdrawal that is due is cancelled. -/
theorem cancelPendingDecrease_of_due (h : s.DecreasesDue) :
    ∃ f, cancelPendingDecrease w msg sp s = .ok { s with spFactory := f } ∧
      f.spDetails = s.spFactory.spDetails := by
  unfold cancelPendingDecrease
  by_cases hpending : 0 < (s.spFactory.decreaseStakeRequests sp).decreaseAmount
  · rw [if_pos hpending]
    have hdue := h.due sp (by omega)
    refine ⟨s.spFactory.setDecreaseStakeRequest sp ⟨0, 0⟩, ?_, rfl⟩
    unfold cancelDecreaseStakeRequest
    simp only [↓require_bind_eq_ok, pure_eq_ok]
    refine ⟨.inr rfl, ?_, trivial⟩
    simp only [ServiceProviderFactory._decreaseRequestIsPending, decide_eq_true_eq]
    omega
  · rw [if_neg hpending]
    exact ⟨s.spFactory, rfl, rfl⟩

/-- After a cancellation nothing is pending. -/
theorem cancelPendingDecrease_amount {s' : System}
    (h : cancelPendingDecrease w msg sp s = .ok s') :
    (s'.spFactory.decreaseStakeRequests sp).decreaseAmount = 0 := by
  unfold cancelPendingDecrease at h
  split at h
  · unfold cancelDecreaseStakeRequest at h
    simp only [↓require_bind_eq_ok, pure_eq_ok] at h
    obtain ⟨-, -, rfl⟩ := h
    simp [setDecreaseStakeRequest]
  · next hnone =>
    cases h
    omega

end DelegateManagerV2

/-! ### The burned stake -/

omit [Keccak256] in
/-- Stake that an account has is taken away at the present or a later block. -/
theorem Staking.moveStake_succeeds {st : Staking} {account : Address} {blockNumber : ℕ}
    (hst : st.Consistent now) (hnow : now ≤ blockNumber) (hblock : blockNumber < uint64Bound)
    (hle : amount ≤ st.totalStakedFor account) (hleTotal : amount ≤ st.totalStaked) :
    Succeeds (st.moveStake blockNumber account amount false) := by
  have hown : Succeeds ((st.accounts account).stakedHistory.add blockNumber
      (st.totalStakedFor account - amount)) := by
    rw [(hst.own account).add_succeeds hnow]
    exact Nat.lt_of_le_of_lt (Nat.sub_le _ _) (hst.own account).getLast_lt
  have hall : Succeeds (st.totalStakedHistory.add blockNumber (st.totalStaked - amount)) := by
    rw [hst.all.add_succeeds hnow]
    exact Nat.lt_of_le_of_lt (Nat.sub_le _ _) hst.all.getLast_lt
  obtain ⟨history, hown⟩ := hown
  obtain ⟨totalHistory, hall⟩ := hall
  refine ⟨{ st.setAccount account { st.accounts account with stakedHistory := history } with
    totalStakedHistory := totalHistory }, ?_⟩
  refine bind_eq_ok.mpr ⟨st.setAccount account { st.accounts account with
    stakedHistory := history }, ?_, ?_⟩
  · unfold Staking._modifyStakeBalance modified
    simp only [↓require_bind_eq_ok, Bool.false_eq_true, false_or, if_false,
      ↓toUint64_bind_eq_ok, bind_eq_ok, pure_eq_ok]
    exact ⟨hle, _, if_pos hle, hblock, history, hown, rfl⟩
  · unfold Staking._modifyTotalStaked modified
    simp only [Bool.false_eq_true, if_false, ↓toUint64_bind_eq_ok, bind_eq_ok, pure_eq_ok]
    exact ⟨_, if_pos hleTotal, hblock, totalHistory, hall, rfl⟩

/-- The tokens of accounted stake are there to be burned. -/
theorem Staking.slash_succeeds (hacc : Accounted w now s) (hnow : now ≤ msg.blockNumber)
    (hblock : msg.blockNumber < uint64Bound) (hpos : 0 < amount)
    (hle : amount ≤ s.staking.totalStakedFor sp) :
    Succeeds (slash w (msg.calledBy w.delegateManager) amount sp s) := by
  have hleTotal : amount ≤ s.staking.totalStaked :=
    hle.trans (hacc.ledger.staked_le sp)
  have hcustody : amount ≤ s.token.balances w.staking :=
    hleTotal.trans hacc.ledger.covered
  have hsupply := hacc.token.balance_le w.staking
  obtain ⟨staking, hmove⟩ := moveStake_succeeds hacc.histories hnow hblock hle hleTotal
  have hburn : Succeeds (s.token.burn ((msg.calledBy w.delegateManager).calledBy w.staking)
      amount) := by
    refine ⟨{ s.token with
      totalSupply := s.token.totalSupply - amount
      balances := Function.update s.token.balances w.staking
        (s.token.balances w.staking - amount) }, ?_⟩
    unfold ERC20.burn ERC20._burn
    simp only [↓require_bind_eq_ok, ↓sub_bind_eq_ok, pure_eq_ok]
    exact ⟨w.staking_ne_zero, hcustody, hcustody.trans hsupply, rfl⟩
  obtain ⟨token, hburn⟩ := hburn
  refine ⟨{ s with staking, token }, ?_⟩
  unfold slash Staking._burnFor
  simp only [↓require_bind_eq_ok]
  exact ⟨rfl, hpos, bind_eq_ok.mpr ⟨staking, hmove, bind_eq_ok.mpr ⟨token, hburn, rfl⟩⟩⟩

/-- The provider records take any stake from the delegation contract. -/
theorem ServiceProviderFactory.updateServiceProviderStake_succeeds (w : Wiring) (msg : Msg)
    (sp : Address) (newStake : ℕ) (s : System) :
    Succeeds (updateServiceProviderStake w (msg.calledBy w.delegateManager) sp newStake s) := by
  refine ⟨_updateServiceProviderBoundStatus sp
    { s with spFactory := s.spFactory.setDeployerStake sp newStake }, ?_⟩
  unfold updateServiceProviderStake
  simp only [↓require_bind_eq_ok]
  exact ⟨rfl, rfl⟩

/-! ### The whole call -/

namespace DelegateManagerV2

omit [Keccak256] in
/-- What the shares keep, and what they lose together. -/
theorem slashDelegators_sum {d d' : DelegateManagerV2} {pre post decrease : ℕ}
    (hsound : d.Sound) (h : d.slashDelegators sp pre post (d.spDelegateInfo sp).delegators 0
      = .ok (d', decrease)) :
    (∀ a, d'.delegateInfo a sp = slashedShare pre post (d.delegateInfo a sp)) ∧
      ∑ a, d'.delegateInfo a sp + decrease = ∑ a, d.delegateInfo a sp := by
  obtain ⟨hscaled, -⟩ := slashDelegators_scales (hsound.nodup sp) (hsound.nobody sp) h
  obtain ⟨-, -, -, -, -, hsum⟩ := slashDelegators_spec h
  constructor
  · intro a
    rw [hscaled]
    split
    · rfl
    · next hnotin =>
      have hzero : d.delegateInfo a sp = 0 := by
        by_contra hshare
        exact hnotin (hsound.listed a sp hshare)
      rw [hzero, slashedShare_zero]
  · exact hsum.trans (Nat.add_zero _)

omit [Keccak256] in
/-- What the listed delegators lose is what the shares lose together. -/
theorem listed_losses {d : DelegateManagerV2} {pre post decrease left : ℕ} (hsound : d.Sound)
    (hle : post ≤ pre) (hleft : ∑ a, slashedShare pre post (d.delegateInfo a sp) = left)
    (hsum : left + decrease = ∑ a, d.delegateInfo a sp) :
    ∑ a ∈ (d.spDelegateInfo sp).delegators.toFinset,
      (d.delegateInfo a sp - slashedShare pre post (d.delegateInfo a sp)) = decrease := by
  have hall : ∑ a ∈ (d.spDelegateInfo sp).delegators.toFinset,
      (d.delegateInfo a sp - slashedShare pre post (d.delegateInfo a sp))
      = ∑ a, (d.delegateInfo a sp - slashedShare pre post (d.delegateInfo a sp)) := by
    apply Finset.sum_subset (Finset.subset_univ _)
    intro a _ hnotin
    have hzero : d.delegateInfo a sp = 0 := by
      by_contra hshare
      exact hnotin (List.mem_toFinset.mpr (hsound.listed a sp hshare))
    rw [hzero, Nat.zero_sub]
  rw [hall, Finset.sum_tsub_distrib _ fun a _ ↦ slashedShare_le hle, hleft, ← hsum,
    Nat.add_sub_cancel_left]

omit [Keccak256] in
/-- The provider can bear what the delegators do not lose: their new shares fit in what is left. -/
theorem slash_covered {d d' : DelegateManagerV2} {pre own decrease : ℕ} (hle : amount ≤ pre)
    (hsplit : pre = own + ∑ a, d.delegateInfo a sp)
    (hkept : ∀ a, d'.delegateInfo a sp = slashedShare pre (pre - amount) (d.delegateInfo a sp))
    (hsum : ∑ a, d'.delegateInfo a sp + decrease = ∑ a, d.delegateInfo a sp) :
    amount - decrease ≤ own := by
  have hfit : ∑ a, d'.delegateInfo a sp ≤ pre - amount := by
    calc ∑ a, d'.delegateInfo a sp
        = ∑ a, d.delegateInfo a sp * (pre - amount) / pre := by
          refine Finset.sum_congr rfl fun a _ ↦ ?_
          rw [hkept, slashedShare, Nat.mul_comm]
      _ ≤ pre - amount := by
          apply sum_share_le
          rw [hsplit]
          exact Nat.le_add_left _ _
  generalize ∑ a, d'.delegateInfo a sp = kept at hfit hsum
  generalize ∑ a, d.delegateInfo a sp = shares at hsplit hsum
  omega

/-- The loop goes through: the totals cover the shares, and the locked totals the requests. -/
theorem slashDelegators_runs (hacc : Accounted w now s) (hsound : s.delegateManager.Sound)
    (hpos : 0 < amount) (hle : amount ≤ s.staking.totalStakedFor sp)
    (hfits : s.SlashFits msg.blockNumber amount sp) :
    Succeeds (s.delegateManager.slashDelegators sp (s.staking.totalStakedFor sp)
      (s.staking.totalStakedFor sp - amount) (s.delegateManager.spDelegateInfo sp).delegators
      0) := by
  apply slashDelegators_succeeds (hpos.trans_le hle) (Nat.sub_le _ _) hsound.counted
  · intro a
    have htotal : s.delegateManager.delegatorTotalStake a
        = ∑ x, s.delegateManager.delegateInfo a x := hacc.ledger.delegators a
    rw [htotal]
    exact le_sum (fun x ↦ s.delegateManager.delegateInfo a x) sp
  · exact hfits.products
  · have hshares : (s.delegateManager.spDelegateInfo sp).totalDelegatedStake
        = ∑ a, s.delegateManager.delegateInfo a sp := hacc.ledger.shares sp
    have hsplit : s.staking.totalStakedFor sp = (s.spFactory.spDetails sp).deployerStake
        + (s.delegateManager.spDelegateInfo sp).totalDelegatedStake := hacc.ledger.split sp
    have hstored : s.staking.totalStakedFor sp < uint192Bound :=
      (hacc.histories.own sp).getLast_lt
    have hbound : uint192Bound < uint256Bound := by decide
    omega

/-- A slash that fits goes through. -/
theorem slash_succeeds (hacc : Accounted w now s) (hsound : s.delegateManager.Sound)
    (hdue : s.DecreasesDue) (hnow : now ≤ msg.blockNumber) (hsender : msg.sender = w.governance)
    (hpos : 0 < amount) (hle : amount ≤ s.staking.totalStakedFor sp)
    (hown : 0 < (s.spFactory.spDetails sp).deployerStake)
    (hfits : s.SlashFits msg.blockNumber amount sp) : Succeeds (slash w msg amount sp s) := by
  obtain ⟨f, hcancel, hdetails⟩ : ∃ f, cancelPendingDecrease w msg sp s
      = .ok { s with spFactory := f } ∧ f.spDetails = s.spFactory.spDetails :=
    cancelPendingDecrease_of_due hdue
  have hacc' : Accounted w now { s with spFactory := f } :=
    hacc.of_spFactory le_rfl fun x ↦ by rw [hdetails]
  obtain ⟨mid, hburn⟩ := Staking.slash_succeeds hacc' hnow hfits.block hpos hle
  have hmoved : Moved w msg.blockNumber sp (s.staking.totalStakedFor sp - amount)
      { s with spFactory := f } mid := slash_moved hburn
  obtain ⟨⟨d, decrease⟩, hloop⟩ := slashDelegators_runs hacc hsound hpos hle hfits
  obtain ⟨hkept, hsum⟩ := slashDelegators_sum hsound hloop
  have hshares : (s.delegateManager.spDelegateInfo sp).totalDelegatedStake
      = ∑ a, s.delegateManager.delegateInfo a sp := hacc.ledger.shares sp
  have hsplit : s.staking.totalStakedFor sp = (s.spFactory.spDetails sp).deployerStake
      + (s.delegateManager.spDelegateInfo sp).totalDelegatedStake := hacc.ledger.split sp
  have hcovered : amount - decrease ≤ (s.spFactory.spDetails sp).deployerStake :=
    slash_covered hle (by rw [← hshares]; exact hsplit) hkept hsum
  have hdecrease : decrease ≤ amount := by
    have hlosses := listed_losses hsound (Nat.sub_le _ _)
      (Finset.sum_congr rfl fun a _ ↦ (hkept a).symm) hsum
    have hrounded := hfits.rounded
    unfold slashedShare at hlosses
    rw [hlosses] at hrounded
    exact hrounded
  have hdelegated : decrease ≤ (d.spDelegateInfo sp).totalDelegatedStake := by
    rw [(slashDelegators_spec hloop).2.1.delegated sp, hshares, ← hsum]
    exact Nat.le_add_left _ _
  obtain ⟨last, hupdate⟩ := updateServiceProviderStake_succeeds w msg sp
    ((s.spFactory.spDetails sp).deployerStake - (amount - decrease))
    { mid with
      delegateManager := d.setTotalDelegatedStake sp
        ((d.spDelegateInfo sp).totalDelegatedStake - decrease) }
  refine ⟨last, ?_⟩
  unfold slash
  simp only [↓require_bind_eq_ok]
  refine ⟨hsender, hle, bind_eq_ok.mpr ⟨_, hcancel, ?_⟩⟩
  simp only [↓require_bind_eq_ok, hdetails]
  refine ⟨hown, bind_eq_ok.mpr ⟨mid, hburn, ?_⟩⟩
  simp only [hmoved.records.delegateManager, hmoved.stake]
  refine bind_eq_ok.mpr ⟨(d, decrease), hloop, ?_⟩
  simp only [↓sub_bind_eq_ok, Nat.sub_sub_self hle]
  exact ⟨hdelegated, Nat.sub_le _ _, hdecrease, hcovered, hupdate⟩

/-- A slash leaves no withdrawal of the provider pending. -/
theorem slash_decreaseAmount (h : slash w msg amount sp s = .ok s') :
    (s'.spFactory.decreaseStakeRequests sp).decreaseAmount = 0 := by
  unfold slash at h
  simp only [↓require_bind_eq_ok] at h
  obtain ⟨-, -, h⟩ := h
  obtain ⟨cancelled, hcancel, h⟩ := bind_eq_ok.mp h
  simp only [↓require_bind_eq_ok] at h
  obtain ⟨-, h⟩ := h
  obtain ⟨mid, hburn, h⟩ := bind_eq_ok.mp h
  have hmoved := slash_moved hburn
  obtain ⟨⟨d, decrease⟩, -, h⟩ := bind_eq_ok.mp h
  simp only [↓sub_bind_eq_ok] at h
  obtain ⟨-, -, -, -, hupdate⟩ := h
  obtain ⟨-, v, rfl⟩ := updateServiceProviderStake_eq_ok hupdate
  have hrequests : mid.spFactory.decreaseStakeRequests
      = cancelled.spFactory.decreaseStakeRequests := by
    rw [hmoved.records.spFactory]
  show (mid.spFactory.decreaseStakeRequests sp).decreaseAmount = 0
  rw [hrequests]
  exact cancelPendingDecrease_amount hcancel

/-- A slash takes the amount as it says. -/
theorem slash_slashed (hacc : Accounted w now s) (hsound : s.delegateManager.Sound)
    (h : slash w msg amount sp s = .ok s') : s.Slashed s' amount sp := by
  have hsound' : s'.delegateManager.Sound := slash_sound hsound h
  have hledger : (s'.ledger w).Balanced :=
    (slash_revaluation hacc.ledger h).ledger.balanced hacc.ledger
  have hdecrease := slash_decreaseAmount h
  obtain ⟨f, mid, d, decrease, v, -, hf, hle, hmoved, hloop, -, -, -, rfl⟩ := slash_eq_ok h
  obtain ⟨hreshares, honly, -, -, hdropped, -⟩ := slashDelegators_spec hloop
  obtain ⟨hkept, -⟩ := slashDelegators_sum hsound hloop
  obtain ⟨-, hrequests⟩ := slashDelegators_scales (hsound.nodup sp) (hsound.nobody sp) hloop
  have hstake : mid.staking.totalStakedFor sp = s.staking.totalStakedFor sp - amount :=
    hmoved.stake
  refine ⟨?_, ?_, ?_, hreshares.share_off, hreshares.totals, hdropped, hrequests, ?_,
    hsound'.counted.locked, hdecrease, ?_⟩
  · show mid.staking.totalStakedFor sp + amount = _
    rw [hstake, Nat.sub_add_cancel hle]
  · intro a
    rw [hstake]
    exact hkept a
  · have hsplit := hledger.split sp
    have hshares := hledger.shares sp
    exact (hsplit.trans (congrArg _ hshares)).symm
  · intro a
    by_cases hlisted : a ∈ (s.delegateManager.spDelegateInfo sp).delegators
    · have hamount : (d.undelegateRequests a).amount = 0 := hdropped a hlisted
      unfold lockedBy
      split
      · exact hamount
      · rfl
    · have hnothing : d.delegateInfo a sp = 0 := by
        by_contra hshare
        have hmem := hsound'.listed a sp hshare
        rw [delegators_setTotalDelegatedStake, honly.delegators sp] at hmem
        exact hlisted hmem
      exact Nat.le_zero.mp ((hsound'.backed a sp).trans_eq hnothing)
  · show d.removeDelegatorRequests = _
    rw [honly.rest]

end DelegateManagerV2

/-- A slash by governance in a reachable session takes the amount as it says, and it goes through
unless the block number, a product or the rounded losses are too large. -/
theorem slash_proportional {ss : Session System} (h : Reachable w ss)
    (hnow : ss.now ≤ msg.blockNumber) (hsender : msg.sender = w.governance) (hpos : 0 < amount)
    (hle : amount ≤ ss.state.staking.totalStakedFor sp)
    (hown : 0 < (ss.state.spFactory.spDetails sp).deployerStake) :
    (ss.state.SlashFits msg.blockNumber amount sp →
      Succeeds (DelegateManagerV2.slash w msg amount sp ss.state)) ∧
    ∀ s', DelegateManagerV2.slash w msg amount sp ss.state = .ok s' →
      ss.state.Slashed s' amount sp := by
  have hsound := h.delegatorsSound.delegateManager
  constructor
  · intro hfits
    exact DelegateManagerV2.slash_succeeds h.accounted hsound h.decreasesDue hnow hsender hpos hle
      hown hfits
  · intro s' hslash
    exact DelegateManagerV2.slash_slashed h.accounted hsound hslash

end Slashes

namespace Scenario

/-- A second account that delegates to `owner`. -/
def secondDelegator : Address := 103

/-- Two delegations of a million tokens, the first delegator about to be removed. -/
def shared : List Event :=
  delegated ++ [at_ 2 owner (.token (.transfer secondDelegator (10 ^ 24))),
    at_ 2 secondDelegator (.token (.approve wiring.staking (10 ^ 24))),
    at_ 2 secondDelegator (.delegation (.delegateStake owner (10 ^ 24))),
    at_ 3 owner (.delegation (.requestRemoveDelegator owner delegator))]

/-- A deployment with a supply far beyond that of the token. -/
def largeDeployment : Deployment := { deployment with initialSupply := 2 ^ 190 }

/-- A stake and a delegation of so many tokens that their product does not fit. -/
def largelyDelegated : Session System :=
  replay (step wiring) (valueOf (deploy wiring largeDeployment) (by decide +kernel))
    (setting 1 (.types (.addServiceType 1 (10 ^ 23) (2 ^ 180)))
      ++ [at_ 1 owner (.token (.approve wiring.staking (2 ^ 180))),
        at_ 2 owner (.providers (.register 1 "a.service" (2 ^ 129) owner)),
        at_ 2 owner (.token (.transfer delegator (2 ^ 129))),
        at_ 2 delegator (.token (.approve wiring.staking (2 ^ 129))),
        at_ 2 delegator (.delegation (.delegateStake owner (2 ^ 129)))])

theorem reachable_largelyDelegated : Reachable wiring largelyDelegated :=
  ⟨largeDeployment, _, _, eq_ok_valueOf _ _, rfl⟩

end Scenario

open Scenario

theorem slash_proportional_half :
    let s := (after delegated).state
    let slash := DelegateManagerV2.slash wiring ⟨wiring.governance, 3⟩ (55 * 10 ^ 23) owner s
    Succeeds slash ∧ ∀ s', slash = .ok s' → s.Slashed s' (55 * 10 ^ 23) owner := by
  intro s slash
  have hlist : (s.delegateManager.spDelegateInfo owner).delegators = [delegator] := by
    decide +kernel
  have hfits : s.SlashFits 3 (55 * 10 ^ 23) owner := by
    refine ⟨by decide +kernel, ?_, ?_⟩
    · rw [hlist, List.forall_mem_singleton]
      decide +kernel
    · rw [hlist, List.toFinset_cons, List.toFinset_nil, insert_empty_eq, Finset.sum_singleton]
      decide +kernel
  exact And.imp_left (fun hsucceeds ↦ hsucceeds hfits)
    (slash_proportional (reachable_after delegated) (by decide +kernel) rfl (by decide +kernel)
      (by decide +kernel) (by decide +kernel))

/-- A slash that nothing in the session speaks against: the stake is there and no claim pending. -/
def System.MayBeSlashed (ss : Session System) (blockNumber amount : ℕ) (sp : Address) : Prop :=
  ss.now ≤ blockNumber ∧ 0 < amount ∧ amount ≤ ss.state.staking.totalStakedFor sp ∧
    ClaimsManager.claimPending sp ss.state = false ∧
    0 < (ss.state.spFactory.spDetails sp).deployerStake

instance (ss : Session System) (blockNumber amount : ℕ) (sp : Address) :
    Decidable (System.MayBeSlashed ss blockNumber amount sp) :=
  inferInstanceAs (Decidable (_ ∧ _ ∧ _ ∧ _ ∧ _))

/-- A slash of one takes more from two delegators together than it burns, and reverts; a slash
reverts when a product or the block number is too large; a slash of a million goes through and
leaves the request to remove a delegator pending. -/
theorem slash_reverts_and_keeps_removal :
    let slash (blockNumber : ℕ) := DelegateManagerV2.slash wiring ⟨wiring.governance, blockNumber⟩
    (Reachable wiring (after shared) ∧ Reachable wiring largelyDelegated) ∧
    (System.MayBeSlashed (after shared) 3 1 owner ∧
      ¬ Succeeds (slash 3 1 owner (after shared).state)) ∧
    (System.MayBeSlashed largelyDelegated 3 1 owner ∧
      ¬ Succeeds (slash 3 1 owner largelyDelegated.state)) ∧
    (System.MayBeSlashed (after shared) (2 ^ 64) (10 ^ 24) owner ∧
      ¬ Succeeds (slash (2 ^ 64) (10 ^ 24) owner (after shared).state)) ∧
    System.MayBeSlashed (after shared) 3 (10 ^ 24) owner ∧
      ∃ s', slash 3 (10 ^ 24) owner (after shared).state = .ok s' ∧
        s'.delegateManager.removeDelegatorRequests owner delegator ≠ 0 := by
  intro slash
  refine ⟨⟨reachable_after shared, reachable_largelyDelegated⟩, ⟨by decide +kernel, ?_⟩,
    ⟨by decide +kernel, ?_⟩, ⟨by decide +kernel, ?_⟩, by decide +kernel, ?_⟩
  · apply not_succeeds
    decide +kernel
  · apply not_succeeds
    decide +kernel
  · apply not_succeeds
    decide +kernel
  · exact ⟨valueOf (slash 3 (10 ^ 24) owner (after shared).state) (by decide +kernel),
      eq_ok_valueOf _ _, by decide +kernel⟩

end ColivingSpec
