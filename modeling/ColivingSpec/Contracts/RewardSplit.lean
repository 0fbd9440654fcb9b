import ColivingSpec.Contracts.LockedStake
import ColivingSpec.Lib.Proportional

/-!
# How a reward is split

The loop over the delegators gives each of them its part of the reward by active stake, less the
cut of the provider, both rounded down. Address zero holds no share, so the deleted slots of a list
get nothing, and every delegator of the list is credited once.
-/

namespace ColivingSpec

open Lib ServiceProviderFactory

namespace DelegateManagerV2

/-- What `a` has delegated to `sp` and not asked back. -/
def activeShare (d : DelegateManagerV2) (a sp : Address) : ℕ :=
  d.delegateInfo a sp - d.lockedBy a sp

variable (totalActiveFunds totalRewards deployerCut : ℕ)

/-- Part of a reward for an active stake, `DelegateManagerV2.sol:1252–1254`. -/
def rewardsPriorToSPCut (stake : ℕ) : ℕ :=
  stake * totalRewards / totalActiveFunds

/-- Cut of the provider from this part, `DelegateManagerV2.sol:1262–1266`. -/
def spDeployerCut (stake : ℕ) : ℕ :=
  stake * totalRewards * deployerCut / (totalActiveFunds * ServiceProviderFactory.deployerCutBase)

/-- What the delegator gets for an active stake. -/
def delegatePart (stake : ℕ) : ℕ :=
  rewardsPriorToSPCut totalActiveFunds totalRewards stake
    - spDeployerCut totalActiveFunds totalRewards deployerCut stake

/-- What `a` gets when the loop runs over the delegators `l` of `sp`. -/
def increase (d : DelegateManagerV2) (sp : Address) (totalActiveFunds totalRewards deployerCut : ℕ)
    (l : List Address) (a : Address) : ℕ :=
  if a ∈ l then delegatePart totalActiveFunds totalRewards deployerCut (d.activeShare a sp) else 0

variable {sp a : Address} {d d' : DelegateManagerV2} {funds rewards cut stake : ℕ}

/-- The cut is at most what it is taken from. -/
theorem spDeployerCut_le (hcut : cut ≤ deployerCutBase) :
    spDeployerCut funds rewards cut stake ≤ rewardsPriorToSPCut funds rewards stake := by
  have hbase : 0 < deployerCutBase := by decide
  calc stake * rewards * cut / (funds * deployerCutBase)
      ≤ stake * rewards * deployerCutBase
          / (funds * deployerCutBase) :=
        Nat.div_le_div_right (Nat.mul_le_mul_left _ hcut)
    _ = stake * rewards / funds := Nat.mul_div_mul_right _ _ hbase

/-- No product is too large and there are active funds. -/
def RewardFits (stake : ℕ) : Prop :=
  stake * totalRewards < uint256Bound ∧ stake * totalRewards * deployerCut < uint256Bound ∧
    totalActiveFunds * ServiceProviderFactory.deployerCutBase < uint256Bound ∧
    totalActiveFunds ≠ 0

/-- Nothing but a product that is too large, or no active funds, keeps a delegator from its reward:
the subtraction of the cut goes through. -/
theorem delegateReward_succeeds_iff (hcut : cut ≤ deployerCutBase) :
    Succeeds (delegateReward stake funds rewards cut) ↔ RewardFits funds rewards cut stake := by
  have hle : spDeployerCut funds rewards cut stake ≤ rewardsPriorToSPCut funds rewards stake :=
    spDeployerCut_le hcut
  have hbase : deployerCutBase ≠ 0 := by decide
  unfold Succeeds delegateReward RewardFits
  simp only [mul_bind_eq_ok, div_bind_eq_ok, Checked.sub]
  rw [if_pos (by exact hle)]
  constructor
  · rintro ⟨reward, hfunds, hne, hcutFits, hbaseFits, -⟩
    exact ⟨hfunds, hcutFits, hbaseFits, hne⟩
  · rintro ⟨hfunds, hcutFits, hbaseFits, hne⟩
    exact ⟨_, hfunds, hne, hcutFits, hbaseFits, Nat.mul_ne_zero hne hbase, rfl⟩

/-- A reward that is paid is the part before the cut less the cut. -/
theorem delegateReward_eq_ok {reward : ℕ} (h : delegateReward stake funds rewards cut = .ok reward) :
    reward = delegatePart funds rewards cut stake := by
  unfold delegateReward at h
  simp only [mul_bind_eq_ok, div_bind_eq_ok, Checked.sub] at h
  obtain ⟨-, -, -, -, -, h⟩ := h
  split at h
  · exact (Except.ok.inj h).symm
  · cases h

/-- A stake that is read is the active one. -/
theorem activeStake_eq_ok (h : d.activeStake a sp = .ok stake) : stake = d.activeShare a sp := by
  unfold activeStake at h
  unfold activeShare lockedBy
  dsimp only at h
  split at h
  · next hsp =>
    rw [if_pos hsp]
    unfold SafeMath.sub Checked.sub at h
    split at h
    · exact (Except.ok.inj h).symm
    · cases h
  · next hsp =>
    rw [if_neg hsp, Nat.sub_zero]
    exact (Except.ok.inj h).symm

/-- The active stake of a delegator is read without underflow. -/
theorem activeStake_of_backed (h : d.lockedBy a sp ≤ d.delegateInfo a sp) :
    d.activeStake a sp = .ok (d.activeShare a sp) := by
  unfold activeStake activeShare
  unfold lockedBy at h ⊢
  by_cases hsp : (d.undelegateRequests a).serviceProvider = sp
  · simp only [if_pos hsp] at h ⊢
    exact if_pos h
  · simp only [if_neg hsp, Nat.sub_zero]

/-- Without a share there is no part. -/
theorem delegatePart_zero : delegatePart funds rewards cut 0 = 0 := by
  simp [delegatePart, rewardsPriorToSPCut]

/-- A part is at most the proportional share of the reward before the cut. -/
theorem delegatePart_mul_le : delegatePart funds rewards cut stake * funds ≤ stake * rewards :=
  calc delegatePart funds rewards cut stake * funds
      ≤ rewardsPriorToSPCut funds rewards stake * funds :=
        Nat.mul_le_mul_right funds (Nat.sub_le _ _)
    _ ≤ stake * rewards := Nat.div_mul_le_self _ _

/-- What active stake there is follows from the shares and the requests. -/
theorem activeShare_congr (hrequests : d'.undelegateRequests = d.undelegateRequests)
    (hshare : d'.delegateInfo a sp = d.delegateInfo a sp) :
    d'.activeShare a sp = d.activeShare a sp := by
  unfold activeShare
  rw [hshare, lockedBy_congr hrequests]

/-- What spreading a reward adds to every share: once for each delegator of the list, nothing for
anybody else. -/
theorem _distributeDelegateRewards_increase {total' : ℕ} :
    ∀ {l : List Address} {total : ℕ} {d : DelegateManagerV2}, (live 0 l).Nodup →
      d.delegateInfo 0 sp = 0 →
      d._distributeDelegateRewards sp funds rewards cut l total = .ok (d', total') →
      ∀ a, d'.delegateInfo a sp = d.delegateInfo a sp + d.increase sp funds rewards cut l a := by
  intro l
  induction l with
  | nil =>
    intro total d _ _ h a
    simp only [_distributeDelegateRewards, Except.ok.injEq, Prod.mk.injEq] at h
    rw [h.1]
    simp [increase]
  | cons delegator rest ih =>
    intro total d hnodup hnobody h a
    unfold _distributeDelegateRewards at h
    simp only [bind_eq_ok] at h
    obtain ⟨stake, hactive, reward, hreward, mid, hcredit, next, -, hrest⟩ := h
    obtain rfl := activeStake_eq_ok hactive
    obtain rfl := delegateReward_eq_ok hreward
    have hmid := creditDelegator_eq_ok hcredit
    have hrequests : mid.undelegateRequests = d.undelegateRequests := by
      rw [hmid]
      rfl
    have hshare : ∀ x, mid.delegateInfo x sp = d.delegateInfo x sp
        + if x = delegator then delegatePart funds rewards cut (d.activeShare delegator sp)
          else 0 := by
      intro x
      rw [hmid]
      show (d.setDelegateInfo delegator sp _).delegateInfo x sp = _
      rw [delegateInfo_setDelegateInfo]
      by_cases hx : x = delegator
      · subst hx
        simp
      · simp [hx]
    by_cases hzero : delegator = 0
    · -- a deleted slot: its share is zero and stays so
      subst hzero
      have hnone : delegatePart funds rewards cut (d.activeShare 0 sp) = 0 := by
        have hactive : d.activeShare 0 sp = 0 := by
          unfold activeShare
          omega
        rw [hactive, delegatePart_zero]
      have hsame : ∀ x, mid.delegateInfo x sp = d.delegateInfo x sp := by
        intro x
        rw [hshare, hnone, ite_self, Nat.add_zero]
      have hlive : live 0 (0 :: rest) = live 0 rest := by simp [live]
      have hnext := ih (hlive ▸ hnodup) ((hsame 0).trans hnobody) hrest a
      rw [hnext, hsame]
      unfold increase
      rw [activeShare_congr hrequests (hsame a)]
      by_cases ha : a = 0
      · subst ha
        simp [hnone]
      · simp [ha]
    · have hlive : live 0 (delegator :: rest) = delegator :: live 0 rest := by simp [live, hzero]
      rw [hlive, List.nodup_cons] at hnodup
      have hoff : delegator ∉ rest := fun hmem ↦ hnodup.1 (mem_live.mpr ⟨hmem, hzero⟩)
      have hnobody' : mid.delegateInfo 0 sp = 0 := by
        rw [hshare, hnobody, if_neg (Ne.symm hzero)]
      have hnext := ih hnodup.2 hnobody' hrest a
      rw [hnext]
      unfold increase
      by_cases ha : a = delegator
      · subst ha
        simp [hshare, hoff]
      · have hsame : mid.delegateInfo a sp = d.delegateInfo a sp := by simp [hshare, ha]
        rw [hsame, activeShare_congr hrequests hsame]
        simp [ha]

variable {l : List Address}

/-- Whoever gets a part is in the list. -/
theorem of_increase_ne_zero (h : d.increase sp funds rewards cut l a ≠ 0) :
    a ∈ l := by
  by_contra ha
  exact h (if_neg ha)

/-- Address zero gets nothing. -/
theorem increase_of_nobody (h : d.delegateInfo 0 sp = 0) :
    d.increase sp funds rewards cut l 0 = 0 := by
  have hactive : d.activeShare 0 sp = 0 := by
    unfold activeShare
    omega
  unfold increase
  rw [hactive, delegatePart_zero, ite_self]

/-- What a delegator gets is at most the proportional share. -/
theorem increase_mul_le (a : Address) :
    d.increase sp funds rewards cut l a * funds ≤ d.activeShare a sp * rewards := by
  unfold increase
  split
  · exact delegatePart_mul_le
  · rw [Nat.zero_mul]
    exact Nat.zero_le _

/-- When the active stakes are at most the active funds, the parts are at most the reward. -/
theorem sum_increase_le (hactive : ∑ a ∈ l.toFinset, d.activeShare a sp ≤ funds) :
    ∑ a, d.increase sp funds rewards cut l a ≤ rewards := by
  apply sum_listed_share_le l (fun a ↦ d.activeShare a sp) _ rewards funds _ _ hactive
  · intro a ha
    unfold increase
    rw [if_pos ha]
    exact Nat.sub_le _ _
  · intro a ha
    exact if_neg ha

end DelegateManagerV2

end ColivingSpec
