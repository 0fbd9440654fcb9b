import ColivingSpec.System.Slashes

/-!
# Withdrawals that providers ask for

A withdrawal is taken from the own stake of a provider, and so is what the vote and the claim
leave out for it. The request is checked against the whole stake of the account, delegations
included, and the minimum against the own stake before the withdrawal. A request that takes no more
than the own stake above the minimum stays covered whatever is called until it is served.
-/

namespace ColivingSpec

open Lib ServiceProviderFactory

section DecreaseRequests

variable [Keccak256] {w : Wiring} {msg : Msg} {s s' : System} {sp : Address}

/-! ### One provider -/

/-- The own stake of `sp` covers what `sp` asks to withdraw. -/
def ServiceProviderFactory.Covers (f : ServiceProviderFactory) (sp : Address) : Prop :=
  (f.decreaseStakeRequests sp).decreaseAmount ≤ (f.spDetails sp).deployerStake

namespace ServiceProviderFactory

variable {f f' : ServiceProviderFactory}

/-- The request stands and the own stake grew. -/
theorem Covers.of_le (h : f.Covers sp)
    (hrequest : f'.decreaseStakeRequests sp = f.decreaseStakeRequests sp)
    (hstake : (f.spDetails sp).deployerStake ≤ (f'.spDetails sp).deployerStake) :
    f'.Covers sp := by
  unfold Covers
  rw [hrequest]
  exact h.trans hstake

/-- Nothing is asked for. -/
theorem Covers.of_zero (h : (f.decreaseStakeRequests sp).decreaseAmount = 0) : f.Covers sp := by
  unfold Covers
  omega

/-- The request stands or is dropped. -/
theorem Covers.of_kept (h : f.Covers sp)
    (hrequest : f'.decreaseStakeRequests sp = f.decreaseStakeRequests sp ∨
      f'.decreaseStakeRequests sp = ⟨0, 0⟩)
    (hstake : (f.spDetails sp).deployerStake ≤ (f'.spDetails sp).deployerStake) :
    f'.Covers sp := by
  rcases hrequest with hsame | hdropped
  · exact h.of_le hsame hstake
  · apply Covers.of_zero
    rw [hdropped]

/-- The checks of a request, `ServiceProviderFactory.sol:449–482`. -/
@[mk_iff]
structure RequestChecks (msg : Msg) (decreaseStakeAmount : ℕ) (s : System) : Prop where
  positive : 0 < decreaseStakeAmount
  noClaim : ClaimsManager.claimPending msg.sender s = false
  withdrawable : decreaseStakeAmount ≤ s.staking.totalStakedFor msg.sender
  maximum : s.staking.totalStakedFor msg.sender - decreaseStakeAmount
    ≤ (s.spFactory.spDetails msg.sender).maxAccountStake
  minimum : (s.spFactory.spDetails msg.sender).minAccountStake
    ≤ (s.spFactory.spDetails msg.sender).deployerStake
  expires : msg.blockNumber + s.spFactory.decreaseStakeLockupDuration < uint256Bound

instance (msg : Msg) (amount : ℕ) (s : System) : Decidable (RequestChecks msg amount s) :=
  decidable_of_iff' _ (requestChecks_iff msg amount s)

/-- A request that passes its checks is written down, and nothing else. -/
theorem requestDecreaseStake_eq_ok {amount result : ℕ} :
    requestDecreaseStake msg amount s = .ok (s', result) ↔
      RequestChecks msg amount s ∧
        s' = { s with
          spFactory := s.spFactory.setDecreaseStakeRequest msg.sender
            ⟨amount, msg.blockNumber + s.spFactory.decreaseStakeLockupDuration⟩ } ∧
        result = s.staking.totalStakedFor msg.sender - amount := by
  unfold requestDecreaseStake _validateBalanceInternal
  simp only [↓require_bind_eq_ok, ↓sub_bind_eq_ok, ↓add_bind_eq_ok, bind_assoc, pure_eq_ok,
    Prod.mk.injEq, Bool.not_eq_true', requestChecks_iff, and_assoc, eq_comm (a := s'),
    eq_comm (a := result)]

variable {account : Address} {details : ServiceProviderDetails}

/-- What a withdrawal or a new request of the sender leaves to the others. -/
theorem Covers.setDetails_of_ne (h : f.Covers sp) (hsp : sp ≠ account) :
    (f.setDetails account details).Covers sp := by
  refine h.of_le rfl (le_of_eq ?_)
  simp [setDetails, hsp]

/-- Own stake that comes in. -/
theorem Covers.setDetails (h : ∀ x, f.Covers x)
    (hstake : (f.spDetails account).deployerStake ≤ details.deployerStake) (sp : Address) :
    (f.setDetails account details).Covers sp := by
  by_cases hsp : sp = account
  · subst hsp
    refine (h sp).of_le rfl ?_
    simpa [ServiceProviderFactory.setDetails] using hstake
  · exact (h sp).setDetails_of_ne hsp

/-- A new request within the own stake. -/
theorem Covers.setDecreaseStakeRequest (h : ∀ x, f.Covers x) {request : DecreaseStakeRequest}
    (hrequest : request.decreaseAmount ≤ (f.spDetails account).deployerStake) (sp : Address) :
    (f.setDecreaseStakeRequest account request).Covers sp := by
  by_cases hsp : sp = account
  · subst hsp
    simpa [Covers, ServiceProviderFactory.setDecreaseStakeRequest] using hrequest
  · refine (h sp).of_le ?_ le_rfl
    simp [ServiceProviderFactory.setDecreaseStakeRequest, hsp]

end ServiceProviderFactory

/-! ### Calls -/

open ServiceProviderFactory in
/-- The calls of the factory, requests apart. -/
theorem ProviderCall.perform_covers {c : ProviderCall} (hcaller : w.Caller msg.sender)
    (hc : ∀ amount, c ≠ .requestDecreaseStake amount) (hs : ∀ x, s.spFactory.Covers x)
    (h : c.perform w msg s = .ok s') (sp : Address) : s'.spFactory.Covers sp := by
  cases c with
  | register ty endpoint amount wallet =>
    obtain ⟨⟨s'', n⟩, hcall, rfl⟩ := map_eq_ok.mp h
    obtain ⟨mid, -, -, -, rfl⟩ := register_eq_ok hcaller.ne_staking hcall
    exact Covers.setDetails (fun x ↦ (hs x).of_le rfl le_rfl) (Nat.le_add_right _ _) sp
  | increaseStake amount =>
    obtain ⟨⟨s'', n⟩, hcall, rfl⟩ := map_eq_ok.mp h
    obtain ⟨mid, details, -, rfl, hstake, -⟩ := increaseStake_eq_ok hcaller.ne_staking hcall
    exact Covers.setDetails hs (hstake ▸ Nat.le_add_right _ _) sp
  | decreaseStake =>
    obtain ⟨⟨s'', n⟩, hcall, rfl⟩ := map_eq_ok.mp h
    obtain ⟨mid, details, amount, -, -, -, -, -, rfl, -⟩ := decreaseStake_eq_ok hcall
    by_cases hsp : sp = msg.sender
    · apply Covers.of_zero
      simp [setDecreaseStakeRequest, hsp]
    · refine ((hs sp).setDetails_of_ne hsp).of_le ?_ le_rfl
      simp [setDecreaseStakeRequest, hsp]
  | deregister ty endpoint =>
    obtain ⟨⟨s'', n⟩, hcall, rfl⟩ := map_eq_ok.mp h
    obtain ⟨f, details, hlast, -, -, -, -, rfl, hstake, -⟩ := deregister_eq_ok hcall
    -- the request of the last endpoint is for the own stake itself
    have hf : ∀ x, f.Covers x := by
      rcases requestLastStake_eq_ok hlast with rfl | rfl
      · exact hs
      · exact Covers.setDecreaseStakeRequest hs le_rfl
    exact Covers.setDetails (fun x ↦ (hf x).of_le rfl le_rfl) hstake.ge sp
  | requestDecreaseStake amount => exact absurd rfl (hc amount)
  | _ =>
    obtain ⟨f, rfl, hstake, -, -, -, hrequest⟩ := perform_records hcaller rfl h
    exact (hs sp).of_kept (hrequest rfl sp) (hstake sp).ge

open DelegateManagerV2 in
/-- The calls of the delegation contract: a slash drops the request of the provider, a claim adds to
its own stake, and nothing else touches either. -/
theorem DelegationCall.perform_covers {c : DelegationCall} (hcaller : w.Caller msg.sender)
    (hs : ∀ x, s.spFactory.Covers x) (h : c.perform w msg s = .ok s') (sp : Address) :
    s'.spFactory.Covers sp := by
  cases c with
  | delegateStake target amount =>
    obtain ⟨⟨s'', n⟩, hcall, rfl⟩ := map_eq_ok.mp h
    obtain ⟨mid, d, hmoved, -, -, -, rfl⟩ := delegateStake_eq_ok hcaller.ne_staking hcall
    rw [hmoved.records.spFactory]
    exact hs sp
  | undelegateStake =>
    obtain ⟨⟨s'', n⟩, hcall, rfl⟩ := map_eq_ok.mp h
    obtain ⟨mid, d, target, amount, locked, v, -, -, -, -, -, -, -, rfl⟩ :=
      undelegateStake_eq_ok hcall
    apply ServiceProviderFactory.Covers.setDetails hs
    exact le_rfl
  | claimRewards target =>
    obtain ⟨mid, reward, hclaimed, -, -, hresult⟩ := claimRewards_eq_ok h
    rw [← hclaimed.records.spFactory] at hs
    rcases hresult with ⟨-, rfl⟩ | ⟨d, increase, v, hspread⟩
    · exact hs sp
    · rw [hspread.result]
      exact ServiceProviderFactory.Covers.setDetails hs (Nat.le_add_right _ _) sp
  | slash amount target =>
    by_cases hsp : sp = target
    · subst hsp
      exact .of_zero (slash_decreaseAmount h)
    · obtain ⟨f, mid, d, decrease, v, -, hf, -, -, -, -, -, -, rfl⟩ := slash_eq_ok h
      have hcancelled : f.Covers sp := by
        rcases hf with rfl | rfl
        · exact hs sp
        · exact ServiceProviderFactory.Covers.setDecreaseStakeRequest hs (Nat.zero_le _) sp
      exact hcancelled.setDetails_of_ne hsp
  | removeDelegator target delegator =>
    obtain ⟨mid, d, d', amount, -, -, -, -, -, -, hmoved, -, -, rfl⟩ := removeDelegator_eq_ok h
    rw [hmoved.records.spFactory]
    exact hs sp
  | _ =>
    obtain ⟨d, rfl, -⟩ := perform_records rfl h
    exact hs sp

/-- Every call, requests apart. -/
theorem Call.perform_covers {c : Call} {frame : Option Frame} (hcaller : w.Caller msg.sender)
    (hc : ∀ amount, c ≠ .providers (.requestDecreaseStake amount))
    (hs : ∀ x, s.spFactory.Covers x) (h : c.perform w msg s = .ok (s', frame)) (sp : Address) :
    s'.spFactory.Covers sp := by
  cases c with
  | providers c =>
    exact c.perform_covers hcaller (fun amount heq ↦ hc amount (by rw [heq])) hs
      (settled_eq_ok.mp h).1 sp
  | delegation c => exact c.perform_covers hcaller hs (settled_eq_ok.mp h).1 sp
  | _ =>
    rw [(perform_frame hcaller (by simp) (by simp) h).1]
    exact hs sp

/-! ### Every run -/

/-- The subtractions of what `sp` asks to withdraw do not underflow: from the own stake in a vote
and in the withdrawal (`GovernanceV2.sol:1123`, `ServiceProviderFactory.sol:549–551`), from the
stake of the account in the withdrawal, and together with the locked delegations from all that a
claim is spread over (`DelegateManagerV2.sol:1110`). -/
structure System.WithdrawalCovered (s : System) (sp : Address) : Prop where
  own : (s.spFactory.decreaseStakeRequests sp).decreaseAmount
    ≤ (s.spFactory.spDetails sp).deployerStake
  staked : (s.spFactory.decreaseStakeRequests sp).decreaseAmount ≤ s.staking.totalStakedFor sp
  active : (s.delegateManager.spDelegateInfo sp).totalLockedUpStake
      + (s.spFactory.decreaseStakeRequests sp).decreaseAmount
    ≤ (s.spFactory.spDetails sp).deployerStake
      + (s.delegateManager.spDelegateInfo sp).totalDelegatedStake

/-- A request that goes through leaves the own stake at the minimum at least, and the stake of the
account at the maximum at most. -/
def RequestKeepsBounds (w : Wiring) (ss : Session System) : Event → Prop
  | .call msg (.providers (.requestDecreaseStake amount)) =>
    Succeeds (step w ss (.call msg (.providers (.requestDecreaseStake amount)))) →
      (ss.state.spFactory.spDetails msg.sender).minAccountStake + amount
          ≤ (ss.state.spFactory.spDetails msg.sender).deployerStake ∧
        ss.state.staking.totalStakedFor msg.sender
          ≤ (ss.state.spFactory.spDetails msg.sender).maxAccountStake + amount
  | _ => True

/-- A request that the checks let pass, for more than the own stake above the minimum. -/
def AsksPastMinimum (w : Wiring) (ss : Session System) : Event → Prop
  | .call msg (.providers (.requestDecreaseStake amount)) =>
    ss.Admits w.Outside w.governance msg ∧
      ServiceProviderFactory.RequestChecks msg amount ss.state ∧
      (ss.state.spFactory.spDetails msg.sender).deployerStake
        < (ss.state.spFactory.spDetails msg.sender).minAccountStake + amount
  | _ => False

instance (w : Wiring) (ss : Session System) (e : Event) : Decidable (AsksPastMinimum w ss e) := by
  unfold AsksPastMinimum
  split <;> infer_instance

variable {ss ss' start : Session System} {e : Event}

/-- A request goes through just when it can arrive and passes its checks. -/
theorem step_requestDecreaseStake_succeeds_iff {amount : ℕ} :
    Succeeds (step w ss (.call msg (.providers (.requestDecreaseStake amount)))) ↔
      ss.Admits w.Outside w.governance msg ∧
        RequestChecks msg amount ss.state := by
  constructor
  · rintro ⟨ss', h⟩
    obtain ⟨hadmits, ⟨s', frame⟩, hperform, -⟩ := step_call_eq_ok h
    obtain ⟨hcall, -⟩ := settled_eq_ok.mp hperform
    obtain ⟨⟨s'', n⟩, hrequest, -⟩ := map_eq_ok.mp hcall
    exact ⟨hadmits, (requestDecreaseStake_eq_ok.mp hrequest).1⟩
  · rintro ⟨hadmits, hchecks⟩
    have hrequest := requestDecreaseStake_eq_ok.mpr ⟨hchecks, rfl, rfl⟩
    have hperform : (Call.providers (.requestDecreaseStake amount)).perform w msg ss.state
        = .ok (_, none) :=
      settled_eq_ok.mpr ⟨map_eq_ok.mpr ⟨_, hrequest, rfl⟩, rfl⟩
    exact ⟨_, step_call_of_ok hadmits hperform⟩

/-- The maximum is checked as it is meant, and the minimum is not. -/
theorem requestKeepsBounds_iff : RequestKeepsBounds w ss e ↔ ¬ AsksPastMinimum w ss e := by
  unfold RequestKeepsBounds AsksPastMinimum
  split
  · rw [step_requestDecreaseStake_succeeds_iff]
    constructor
    · rintro hkeeps ⟨hadmits, hchecks, hpast⟩
      have hbounds := hkeeps ⟨hadmits, hchecks⟩
      omega
    · rintro hnot ⟨hadmits, hchecks⟩
      have hwithin := not_lt.mp fun hpast ↦ hnot ⟨hadmits, hchecks, hpast⟩
      have hmaximum := hchecks.maximum
      exact ⟨hwithin, by omega⟩
  · exact iff_of_true trivial id

/-- A step that asks for no more than the own stake above the minimum keeps withdrawals covered. -/
theorem step_covers (hs : ∀ x, ss.state.spFactory.Covers x) (hasks : ¬ AsksPastMinimum w ss e)
    (h : step w ss e = .ok ss') (sp : Address) : ss'.state.spFactory.Covers sp := by
  cases e with
  | returned =>
    obtain ⟨frame, rest, g, -, -, rfl⟩ := step_returned_eq_ok h
    exact hs sp
  | call msg c =>
    obtain ⟨hadmits, ⟨s', frame⟩, hperform, rfl⟩ := step_call_eq_ok h
    by_cases hc : ∃ amount, c = .providers (.requestDecreaseStake amount)
    · obtain ⟨amount, rfl⟩ := hc
      obtain ⟨hcall, -⟩ := settled_eq_ok.mp hperform
      obtain ⟨⟨s'', n⟩, hrequest, rfl⟩ := map_eq_ok.mp hcall
      obtain ⟨hchecks, rfl, -⟩ := requestDecreaseStake_eq_ok.mp hrequest
      apply ServiceProviderFactory.Covers.setDecreaseStakeRequest hs
      have hwithin := not_lt.mp fun hpast ↦ hasks ⟨hadmits, hchecks, hpast⟩
      show amount ≤ _
      omega
    · exact c.perform_covers (admits_caller hadmits) (fun amount heq ↦ hc ⟨amount, heq⟩) hs
        hperform sp

/-- Nothing is asked for at first. -/
theorem deploy_covers {p : Deployment} (hp : deploy w p = .ok start) (sp : Address) :
    start.state.spFactory.Covers sp := by
  obtain ⟨-, -, -, -, token, -, rfl⟩ := deploy_eq_ok hp
  exact .of_zero rfl

/-- The locked delegations are delegated. -/
theorem Reachable.locked_le (h : Reachable w ss) (sp : Address) :
    (ss.state.delegateManager.spDelegateInfo sp).totalLockedUpStake
      ≤ (ss.state.delegateManager.spDelegateInfo sp).totalDelegatedStake := by
  have hsound := h.delegatorsSound.delegateManager
  have hshares : (ss.state.delegateManager.spDelegateInfo sp).totalDelegatedStake
      = ∑ d, ss.state.delegateManager.delegateInfo d sp := h.accounted.ledger.shares sp
  rw [hsound.counted.locked, hshares]
  exact Finset.sum_le_sum fun a _ ↦ hsound.backed a sp

/-- A request within the own stake is within all that it is subtracted from. -/
theorem Reachable.withdrawalCovered (h : Reachable w ss)
    (hcovers : ss.state.spFactory.Covers sp) : ss.state.WithdrawalCovered sp := by
  have hsplit : ss.state.staking.totalStakedFor sp
      = (ss.state.spFactory.spDetails sp).deployerStake
        + (ss.state.delegateManager.spDelegateInfo sp).totalDelegatedStake :=
    h.accounted.ledger.split sp
  have hlocked := h.locked_le sp
  unfold ServiceProviderFactory.Covers at hcovers
  refine ⟨hcovers, ?_, ?_⟩ <;> omega

/-- In a run from any accepted deployment all pending withdrawals are covered at all times, and
every request that goes through is made within the bounds, just when no request that the checks let
pass is for more than the own stake above the minimum. -/
theorem withdrawals_covered_iff {p : Deployment} {es : List Event}
    (hp : deploy w p = .ok start) :
    ((∀ fs, fs <+: es → ∀ sp, (replay (step w) start fs).state.WithdrawalCovered sp) ∧
        Along (step w) (RequestKeepsBounds w) start es) ↔
      Along (step w) (fun ss e ↦ ¬ AsksPastMinimum w ss e) start es := by
  constructor
  · rintro ⟨-, hkeeps⟩
    exact hkeeps.imp fun ss e ↦ requestKeepsBounds_iff.mp
  · intro hes
    refine ⟨?_, hes.imp fun ss e ↦ requestKeepsBounds_iff.mpr⟩
    rintro fs ⟨rest, rfl⟩ sp
    have hreachable : Reachable w (replay (step w) start fs) := ⟨p, start, fs, hp, rfl⟩
    have hcovers : ∀ x, (replay (step w) start fs).state.spFactory.Covers x :=
      replay_invariant (fun ss : Session System ↦ ∀ x, ss.state.spFactory.Covers x)
        (fun _ _ _ hs hasks hstep ↦ step_covers hs hasks hstep) (deploy_covers hp)
        (along_append.mp hes).1
    exact hreachable.withdrawalCovered (hcovers sp)

end DecreaseRequests

namespace Scenario

/-- A request of `owner`, who staked ten million tokens itself and holds one million of others. -/
def asked (amount : ℕ) : List Event :=
  delegated ++ [at_ 3 owner (.providers (.requestDecreaseStake amount))]

end Scenario

open Scenario in
/-- A request may take delegated stake, and is not covered then. -/
theorem withdrawals_not_covered : ¬ ∀ ss : Session System, Reachable wiring ss →
    (∀ sp, ss.state.WithdrawalCovered sp) ∧ ∀ e, RequestKeepsBounds wiring ss e := by
  intro h
  have hcovered := (h _ (reachable_after (asked (105 * 10 ^ 23)))).1 owner
  exact absurd hcovered.own (by decide +kernel)

open Scenario in
theorem withdrawals_covered_iff_asked :
    (∀ fs, fs <+: asked (10 ^ 24) → ∀ sp,
        (replay (step wiring) start fs).state.WithdrawalCovered sp) ∧
      Along (step wiring) (RequestKeepsBounds wiring) start (asked (10 ^ 24)) :=
  (withdrawals_covered_iff deploy_start).mpr (by decide +kernel)

end ColivingSpec
