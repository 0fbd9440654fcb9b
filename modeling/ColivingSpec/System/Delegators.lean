import ColivingSpec.Contracts.RewardSplit
import ColivingSpec.System.Upkeep

/-!
# Requests, shares and lists of delegators

Every function of the delegation contract keeps its records sound: the locked totals are what the
pending requests lock, a request never exceeds the share it is for, and whoever has a share is in
the list of its provider.
-/

namespace ColivingSpec

open Lib

section Delegators

variable [Keccak256] {w : Wiring} {msg : Msg} {s s' : System}

namespace DelegateManagerV2

variable {sp delegator : Address} {amount result : ℕ}

/-! ### One call -/

/-- A delegation enters the delegator and adds to the share. -/
theorem delegateStake_sound (hcaller : w.Caller msg.sender) (hsp : sp ≠ 0)
    (hsound : s.delegateManager.Sound)
    (h : delegateStake w msg sp amount s = .ok (s', result)) : s'.delegateManager.Sound := by
  obtain ⟨mid, d, -, -, henlist, -, rfl⟩ := delegateStake_eq_ok hcaller.ne_staking h
  obtain ⟨hlisted, hmem⟩ := hsound.enlist hcaller.nonzero hsp henlist
  have hshare := delegateInfo_updateDelegatorStake d msg.sender sp
    ((d.spDelegateInfo sp).totalDelegatedStake + amount) (d.delegateInfo msg.sender sp + amount)
    (d.delegatorTotalStake msg.sender + amount)
  refine hlisted.of_grown rfl (fun x ↦ ?_) (fun x ↦ ?_) hlisted.lockup (fun a x ↦ ?_)
    (fun a x hne ↦ ?_)
  · exact totalLockedUpStake_setTotalDelegatedStake _ _ _ x
  · exact delegators_updateDelegatorStake _ _ _ _ _ _ x
  · show d.delegateInfo a x ≤ (d._updateDelegatorStake _ _ _ _ _).delegateInfo a x
    rw [hshare]
    split
    · next heq =>
      rw [heq.1, heq.2]
      exact Nat.le_add_right _ _
    · exact le_rfl
  · by_cases hax : a = msg.sender ∧ x = sp
    · rw [hax.1, hax.2]
      exact ⟨hcaller.nonzero, hmem⟩
    · refine absurd ?_ hne
      exact (hshare a x).trans (if_neg hax)

/-- A request is for a part of the share and is entered in the locked total. -/
theorem requestUndelegateStake_sound (hsound : s.delegateManager.Sound)
    (h : requestUndelegateStake msg sp amount s = .ok (s', result)) :
    s'.delegateManager.Sound := by
  unfold requestUndelegateStake at h
  simp only [↓require_bind_eq_ok, ↓add_bind_eq_ok, ↓sub_bind_eq_ok, pure_eq_ok,
    Prod.mk.injEq] at h
  obtain ⟨-, -, hexists, hnone, hle, -, -, -, rfl, -⟩ := h
  apply hsound.request
  · simpa using hnone
  · simpa [_delegatorExistsForSP] using hexists
  · exact hle

/-- A cancelled request is released. -/
theorem cancelUndelegateStakeRequest_sound (hsound : s.delegateManager.Sound)
    (h : cancelUndelegateStakeRequest msg s = .ok s') : s'.delegateManager.Sound := by
  unfold cancelUndelegateStakeRequest at h
  simp only [↓require_bind_eq_ok, ↓sub_bind_eq_ok, pure_eq_ok] at h
  obtain ⟨-, -, rfl⟩ := h
  exact hsound.release msg.sender

/-- An undelegation pays out what was requested and releases the request. -/
theorem undelegateStake_sound (hcaller : w.Caller msg.sender) (hsound : s.delegateManager.Sound)
    (h : undelegateStake w msg s = .ok (s', result)) : s'.delegateManager.Sound := by
  obtain ⟨mid, d, sp, amount, locked, v, rfl, rfl, -, -, -, hwithdraw, rfl, rfl⟩ :=
    undelegateStake_eq_ok h
  obtain ⟨-, -, -, rfl⟩ := withdraw_eq_ok hwithdraw
  have hreleased := hsound.release msg.sender
  have hfree : (s.delegateManager.release msg.sender).lockedBy msg.sender
      (s.delegateManager.undelegateRequests msg.sender).serviceProvider = 0 := by
    rw [lockedBy_release, if_pos rfl]
  have hreduced := hreleased.reduce hfree 0 0 (Nat.sub_le
    (s.delegateManager.delegateInfo msg.sender
      (s.delegateManager.undelegateRequests msg.sender).serviceProvider)
    (s.delegateManager.undelegateRequests msg.sender).amount)
  unfold delist
  split
  · next hempty =>
    refine (hreduced.removeFromDelegatorsList hempty hcaller.nonzero).of_eq rfl (fun x ↦ ?_)
      (fun x ↦ ?_) rfl rfl
    · simp [_removeFromDelegatorsList, totalLockedUpStake_release, totalLockedUpStake_updateLockup]
    · simp [_removeFromDelegatorsList, delegators_setDelegators]
  · refine hreduced.of_eq rfl (fun x ↦ ?_) (fun x ↦ ?_) rfl rfl
    · simp [totalLockedUpStake_release, totalLockedUpStake_updateLockup]
    · simp

/-- A removal pays out the whole share and releases a request for it. -/
theorem removeDelegator_sound (hsound : s.delegateManager.Sound)
    (h : removeDelegator w msg sp delegator s = .ok s') : s'.delegateManager.Sound := by
  obtain ⟨mid, d, d', amount, rfl, -, -, -, hpos, -, -, hwithdraw, hdrop, rfl⟩ :=
    removeDelegator_eq_ok h
  obtain ⟨-, -, -, rfl⟩ := withdraw_eq_ok hwithdraw
  have hnonzero : delegator ≠ 0 := by
    rintro rfl
    rw [hsound.nobody] at hpos
    exact absurd hpos (Nat.lt_irrefl 0)
  -- what is left of the share is nothing, whatever the request was
  have hstruck : ∀ e : DelegateManagerV2, e.Sound → e.delegateInfo delegator sp = 0 →
      d'.undelegateRequests = e.undelegateRequests → d'.delegateInfo = e.delegateInfo →
      d'.undelegateLockupDuration = e.undelegateLockupDuration →
      (∀ x, (d'.spDelegateInfo x).totalLockedUpStake = (e.spDelegateInfo x).totalLockedUpStake) →
      (∀ x, (d'.spDelegateInfo x).delegators = (e.spDelegateInfo x).delegators) →
      ((d'._removeFromDelegatorsList sp delegator).setRemoveDelegatorRequest sp delegator
        0).Sound := by
    intro e he hempty hrequests hshares hlockup hlocked hlists
    have hd' : d'.Sound := he.of_eq hrequests hlocked hlists hlockup hshares
    have hstruck := hd'.removeFromDelegatorsList (hshares ▸ hempty) hnonzero
    exact hstruck.of_eq rfl (fun _ ↦ rfl) (fun _ ↦ rfl) rfl rfl
  rcases dropRequestFor_eq_ok hdrop with ⟨-, hsp, rfl⟩ | ⟨hnone, rfl⟩
  · have hrequest : (s.delegateManager.undelegateRequests delegator).serviceProvider = sp := hsp
    have hfree : (s.delegateManager.release delegator).lockedBy delegator sp = 0 := by
      rw [lockedBy_release, if_pos rfl]
    have hreduced := (hsound.release delegator).reduce hfree 0 0 (Nat.sub_le
      (s.delegateManager.delegateInfo delegator sp) (s.delegateManager.delegateInfo delegator sp))
    refine hstruck _ hreduced ?_ rfl rfl rfl (fun x ↦ ?_) (fun x ↦ ?_)
    · rw [delegateInfo_updateDelegatorStake, if_pos ⟨rfl, rfl⟩, Nat.sub_self]
    · simp [totalLockedUpStake_release, totalLockedUpStake_updateLockup, hrequest]
    · simp
  · have hfree : s.delegateManager.lockedBy delegator sp = 0 :=
      hsound.counted.lockedBy_eq_zero hnone
    refine hstruck _ (hsound.reduce hfree _ _ (Nat.sub_le _ _)) ?_ rfl rfl rfl (fun _ ↦ rfl)
      (fun _ ↦ rfl)
    rw [delegateInfo_updateDelegatorStake, if_pos ⟨rfl, rfl⟩, Nat.sub_self]

/-- A claim raises the shares of delegators in the list. -/
theorem claimRewards_sound (hsound : s.delegateManager.Sound)
    (h : claimRewards w msg sp s = .ok s') : s'.delegateManager.Sound := by
  obtain ⟨mid, reward, hclaimed, -, -, hresult⟩ := claimRewards_eq_ok h
  have hmanager := hclaimed.records.delegateManager
  rcases hresult with ⟨-, rfl⟩ | ⟨d, increased, v, hspread⟩
  · rw [hmanager]
    exact hsound
  · obtain ⟨⟨funds, cut, hloop⟩, -, rfl⟩ := hspread
    rw [hmanager] at hloop
    obtain ⟨hreshares, honly, -, -⟩ := _distributeDelegateRewards_spec hloop
    have hshares := _distributeDelegateRewards_increase (hsound.nodup sp) (hsound.nobody sp) hloop
    have hd : d.Sound := by
      refine hsound.of_grown (by rw [honly]) (fun x ↦ by rw [honly]) (fun x ↦ by rw [honly])
        (by rw [honly]; exact hsound.lockup) (fun a x ↦ ?_) (fun a x hne ↦ ?_)
      · by_cases hx : x = sp
        · rw [hx, hshares]
          exact Nat.le_add_right _ _
        · rw [hreshares.share_off a x hx]
      · by_cases hx : x = sp
        · subst hx
          rw [hshares] at hne
          have hincrease : s.delegateManager.increase x funds reward cut
              (s.delegateManager.spDelegateInfo x).delegators a ≠ 0 := by
            intro hzero
            rw [hzero] at hne
            exact hne rfl
          refine ⟨?_, of_increase_ne_zero hincrease⟩
          rintro rfl
          exact hincrease (increase_of_nobody (hsound.nobody x))
        · exact absurd (hreshares.share_off a x hx) hne
    refine hd.of_eq rfl (fun x ↦ ?_) (fun x ↦ ?_) rfl rfl
    · exact totalLockedUpStake_setTotalDelegatedStake _ _ _ x
    · exact delegators_setTotalDelegatedStake _ _ _ x

omit [Keccak256] in
/-- One delegator of a slash: the request goes before the smaller share could fail to back it. -/
theorem slashDelegator_dropRequest_sound {d d' d'' : DelegateManagerV2} {pre post total total' : ℕ}
    (hsound : d.Sound) (hslash : d.slashDelegator sp delegator pre post total = .ok (d', total'))
    (hdrop : d'.dropRequest delegator = .ok d'') : d''.Sound := by
  obtain ⟨decrease, -, -, -, rfl⟩ := slashDelegator_eq_ok hslash
  have hshare := delegateInfo_setDelegateInfo d delegator sp
    (d.delegateInfo delegator sp - decrease)
  have hself : (d.setDelegateInfo delegator sp (d.delegateInfo delegator sp - decrease)).delegateInfo
      delegator sp ≤ d.delegateInfo delegator sp := by
    rw [hshare, if_pos ⟨rfl, rfl⟩]
    exact Nat.sub_le _ _
  have hothers : ∀ x y, ¬ (x = delegator ∧ y = sp) → (d.setDelegateInfo delegator sp
      (d.delegateInfo delegator sp - decrease)).delegateInfo x y = d.delegateInfo x y :=
    fun x y hxy ↦ by rw [hshare, if_neg hxy]
  unfold dropRequest at hdrop
  split at hdrop
  · simp only [↓sub_bind_eq_ok, pure_eq_ok] at hdrop
    obtain ⟨-, rfl⟩ := hdrop
    have hfree : (d.release delegator).lockedBy delegator sp = 0 := by
      rw [lockedBy_release, if_pos rfl]
    exact (hsound.release delegator).of_shrunk hfree rfl (fun _ ↦ rfl) (fun _ ↦ rfl) rfl hself
      hothers
  · next hzero =>
    cases hdrop
    have hnothing : (d.undelegateRequests delegator).amount = 0 := not_ne_iff.mp hzero
    have hfree : d.lockedBy delegator sp = 0 := by simp [lockedBy, hnothing]
    exact hsound.of_shrunk hfree rfl (fun _ ↦ rfl) (fun _ ↦ rfl) rfl hself hothers

omit [Keccak256] in
/-- The loop of a slash. -/
theorem slashDelegators_sound {d' : DelegateManagerV2} {pre post total' : ℕ} :
    ∀ {l : List Address} {total : ℕ} {d : DelegateManagerV2}, d.Sound →
      d.slashDelegators sp pre post l total = .ok (d', total') → d'.Sound := by
  intro l
  induction l with
  | nil =>
    intro total d hsound h
    simp only [slashDelegators, Except.ok.injEq, Prod.mk.injEq] at h
    exact h.1 ▸ hsound
  | cons delegator rest ih =>
    intro total d hsound h
    unfold slashDelegators at h
    simp only [bind_eq_ok] at h
    obtain ⟨⟨scaled, next⟩, hscale, dropped, hdrop, hrest⟩ := h
    exact ih (slashDelegator_dropRequest_sound hsound hscale hdrop) hrest

/-- A slash lowers the shares of the delegators in the list and drops their requests. -/
theorem slash_sound (hsound : s.delegateManager.Sound) (h : slash w msg amount sp s = .ok s') :
    s'.delegateManager.Sound := by
  obtain ⟨f, mid, d, decrease, v, -, -, -, -, hloop, -, -, -, rfl⟩ := slash_eq_ok h
  have hd := slashDelegators_sound hsound hloop
  refine hd.of_eq rfl (fun x ↦ ?_) (fun x ↦ ?_) rfl rfl
  · exact totalLockedUpStake_setTotalDelegatedStake _ _ _ x
  · exact delegators_setTotalDelegatedStake _ _ _ x

end DelegateManagerV2

open DelegateManagerV2

/-- Nothing can be delegated to address zero. -/
structure System.DelegatorsSound (s : System) : Prop where
  delegateManager : s.delegateManager.Sound
  unbounded : (s.spFactory.spDetails 0).maxAccountStake = 0

/-- Every call of the delegation contract. -/
theorem DelegationCall.perform_sound {c : DelegationCall} (hcaller : w.Caller msg.sender)
    (hsound : s.DelegatorsSound) (h : c.perform w msg s = .ok s') :
    s'.delegateManager.Sound := by
  have hd := hsound.delegateManager
  cases c with
  | delegateStake sp amount =>
    obtain ⟨⟨s'', n⟩, hcall, rfl⟩ := map_eq_ok.mp h
    refine delegateStake_sound hcaller ?_ hd hcall
    rintro rfl
    obtain ⟨mid, d, -, hpos, -, hmax, -⟩ := delegateStake_eq_ok hcaller.ne_staking hcall
    rw [hsound.unbounded] at hmax
    omega
  | requestUndelegateStake sp amount =>
    obtain ⟨⟨s'', n⟩, hcall, rfl⟩ := map_eq_ok.mp h
    exact requestUndelegateStake_sound hd hcall
  | cancelUndelegateStakeRequest => exact cancelUndelegateStakeRequest_sound hd h
  | undelegateStake =>
    obtain ⟨⟨s'', n⟩, hcall, rfl⟩ := map_eq_ok.mp h
    exact undelegateStake_sound hcaller hd hcall
  | claimRewards sp => exact claimRewards_sound hd h
  | slash amount sp => exact slash_sound hd h
  | requestRemoveDelegator sp delegator =>
    unfold perform DelegateManagerV2.requestRemoveDelegator at h
    simp only [↓require_bind_eq_ok, ↓add_bind_eq_ok, pure_eq_ok] at h
    obtain ⟨-, -, -, -, rfl⟩ := h
    exact hd.of_eq rfl (fun _ ↦ rfl) (fun _ ↦ rfl) rfl rfl
  | cancelRemoveDelegatorRequest sp delegator =>
    unfold perform DelegateManagerV2.cancelRemoveDelegatorRequest at h
    simp only [↓require_bind_eq_ok, pure_eq_ok] at h
    obtain ⟨-, -, rfl⟩ := h
    exact hd.of_eq rfl (fun _ ↦ rfl) (fun _ ↦ rfl) rfl rfl
  | removeDelegator sp delegator => exact removeDelegator_sound hd h
  | updateSPMinDelegationAmount sp amount =>
    unfold perform DelegateManagerV2.updateSPMinDelegationAmount at h
    simp only [↓require_bind_eq_ok, pure_eq_ok] at h
    obtain ⟨-, -, rfl⟩ := h
    exact hd.of_eq rfl (fun _ ↦ rfl) (fun _ ↦ rfl) rfl rfl
  | updateUndelegateLockupDuration duration =>
    obtain ⟨-, d, hset, rfl⟩ := configure_eq_ok h
    unfold DelegateManagerV2._updateUndelegateLockupDuration at hset
    simp only [↓add_bind_eq_ok, ↓require_bind_eq_ok, pure_eq_ok] at hset
    obtain ⟨-, hduration, rfl⟩ := hset
    exact hd.of_grown rfl (fun _ ↦ rfl) (fun _ ↦ rfl) (Nat.zero_lt_of_lt hduration)
      (fun _ _ ↦ le_rfl) (fun _ _ hne ↦ absurd rfl hne)
  | updateRemoveDelegatorLockupDuration duration =>
    obtain ⟨-, d, hset, rfl⟩ := configure_eq_ok h
    unfold DelegateManagerV2._updateRemoveDelegatorLockupDuration at hset
    simp only [↓add_bind_eq_ok, ↓require_bind_eq_ok, pure_eq_ok] at hset
    obtain ⟨-, -, rfl⟩ := hset
    exact hd.of_eq rfl (fun _ ↦ rfl) (fun _ ↦ rfl) rfl rfl
  | updateMaxDelegators _ | updateMinDelegationAmount _ | updateRemoveDelegatorEvalDuration _ =>
    unfold perform at h
    obtain ⟨-, d, hset, rfl⟩ := configure_eq_ok h
    cases hset
    exact hd.of_eq rfl (fun _ ↦ rfl) (fun _ ↦ rfl) rfl rfl

/-! ### Every run -/

variable {ss ss' : Session System} {e : Event}

/-- Sound after deployment. -/
theorem deploy_delegatorsSound {p : Deployment} {start : Session System}
    (h : deploy w p = .ok start) : start.state.DelegatorsSound := by
  obtain ⟨-, hlockup, -, -, token, -, rfl⟩ := deploy_eq_ok h
  refine ⟨⟨⟨fun a hamount ↦ absurd rfl hamount, fun sp ↦ ?_⟩, fun a sp ↦ ?_,
    fun a sp hshare ↦ absurd rfl hshare, fun _ ↦ rfl, fun _ ↦ List.nodup_nil, rfl,
    Nat.zero_lt_of_lt hlockup⟩, rfl⟩
  · refine (Finset.sum_eq_zero fun a _ ↦ ?_).symm
    exact ite_self 0
  · exact (ite_self 0).le

/-- A step keeps the records sound. -/
theorem step_delegatorsSound (hsound : ss.state.DelegatorsSound) (h : step w ss e = .ok ss') :
    ss'.state.DelegatorsSound := by
  cases e with
  | returned =>
    obtain ⟨frame, rest, g, -, -, rfl⟩ := step_returned_eq_ok h
    exact ⟨hsound.delegateManager, hsound.unbounded⟩
  | call msg c =>
    obtain ⟨hadmits, ⟨s', frame⟩, hperform, rfl⟩ := step_call_eq_ok h
    have hcaller := admits_caller hadmits
    have hupkeep := Call.perform_upkeep hcaller hperform
    refine ⟨?_, (hupkeep.factory.maxAccountStake 0 hcaller.nonzero.symm).trans hsound.unbounded⟩
    cases c with
    | delegation c =>
      obtain ⟨hcall, -⟩ := settled_eq_ok.mp hperform
      exact c.perform_sound hcaller hsound hcall
    | providers c =>
      obtain ⟨hcall, -⟩ := settled_eq_ok.mp hperform
      obtain ⟨-, hmanager, -⟩ := c.perform_upkeep hcaller hcall
      exact hmanager ▸ hsound.delegateManager
    | _ =>
      obtain ⟨-, hmanager⟩ := hupkeep.records (by simp) (by simp)
      exact hmanager ▸ hsound.delegateManager

theorem Reachable.delegatorsSound (h : Reachable w ss) : ss.state.DelegatorsSound :=
  h.induction (fun _ _ ↦ deploy_delegatorsSound) (fun _ _ _ ↦ step_delegatorsSound)

/-- In every reachable session the locked total of a provider is the sum of the pending requests for
it, and each of these is positive, covered by the share and made by a listed delegator. -/
theorem locked_undelegations_exact (h : Reachable w ss) :
    let d := ss.state.delegateManager
    (∀ sp, (d.spDelegateInfo sp).totalLockedUpStake
      = ∑ a, if d._undelegateRequestIsPending a = true ∧
            (d.undelegateRequests a).serviceProvider = sp then
          (d.undelegateRequests a).amount
        else 0) ∧
    ∀ a sp, d._undelegateRequestIsPending a = true →
      (d.undelegateRequests a).serviceProvider = sp →
      0 < (d.undelegateRequests a).amount ∧
        (d.undelegateRequests a).amount ≤ d.delegateInfo a sp ∧
        a ∈ (d.spDelegateInfo sp).delegators := by
  intro d
  have hsound : d.Sound := h.delegatorsSound.delegateManager
  constructor
  · intro sp
    rw [hsound.counted.locked]
    refine Finset.sum_congr rfl fun a _ ↦ ?_
    by_cases hpending : d._undelegateRequestIsPending a = true ∧
        (d.undelegateRequests a).serviceProvider = sp
    · rw [if_pos hpending]
      exact if_pos hpending.2
    · rw [if_neg hpending]
      exact hsound.counted.lockedBy_eq_zero hpending
  · intro a sp hpending hsp
    have hamount : (d.undelegateRequests a).amount ≠ 0 := by
      simp only [_undelegateRequestIsPending, decide_eq_true_eq] at hpending
      exact hpending.2.1
    have hbacked := hsound.backed a sp
    unfold lockedBy at hbacked
    rw [if_pos hsp] at hbacked
    refine ⟨Nat.pos_of_ne_zero hamount, hbacked, hsound.listed a sp fun hzero ↦ hamount ?_⟩
    omega

end Delegators

namespace Scenario

/-- Half of a delegation asked back. -/
def halfAskedBack : List Event :=
  delegated ++ [at_ 3 delegator (.delegation (.requestUndelegateStake owner (5 * 10 ^ 23)))]

end Scenario

open Scenario in
theorem locked_undelegations_exact_halfAskedBack :
    let d := (after halfAskedBack).state.delegateManager
    0 < (d.undelegateRequests delegator).amount ∧
      (d.undelegateRequests delegator).amount ≤ d.delegateInfo delegator owner ∧
      delegator ∈ (d.spDelegateInfo owner).delegators :=
  (locked_undelegations_exact (reachable_after halfAskedBack)).2 delegator owner
    (by decide +kernel) (by decide +kernel)

end ColivingSpec
