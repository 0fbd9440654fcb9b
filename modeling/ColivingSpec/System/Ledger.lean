import ColivingSpec.System.Effects

/-!
# The system keeps one ledger

Staking, the provider records and the delegation records are the copies of one
double-entry ledger, and the token balance of Staking is its custody. Every call either
revalues the column of one provider or leaves the ledger as it is, so the copies agree
in every reachable session.
-/

namespace ColivingSpec

open Lib

section Ledger

variable [Keccak256]

/-- The ledger the contracts keep between them. -/
def System.ledger (w : Wiring) (s : System) : Ledger Address where
  staked := s.staking.totalStakedFor
  totalStaked := s.staking.totalStaked
  owned sp := (s.spFactory.spDetails sp).deployerStake
  delegated sp := (s.delegateManager.spDelegateInfo sp).totalDelegatedStake
  share := s.delegateManager.delegateInfo
  delegatorTotal := s.delegateManager.delegatorTotalStake
  custody := s.token.balances w.staking

variable {w : Wiring} {msg : Msg} {sp : Address} {s s' mid : System}

/-- What an operation on `sp` does to funds and ledger. -/
structure Revaluation (w : Wiring) (blockNumber : ℕ) (sp : Address) (s s' : System) : Prop where
  funds : Funds w blockNumber sp s s'
  ledger : (s.ledger w).Revalues sp (s'.ledger w)

/-- Funds that move in the column of `sp` revalue it, when the two record keepers follow. -/
theorem Funds.revaluation {blockNumber : ℕ} (h : Funds w blockNumber sp s mid)
    (htoken : s'.token = mid.token) (hstaking : s'.staking = mid.staking)
    (howned : ∀ x, x ≠ sp → (s'.spFactory.spDetails x).deployerStake
      = (s.spFactory.spDetails x).deployerStake)
    (hdelegated : ∀ x, x ≠ sp → (s'.delegateManager.spDelegateInfo x).totalDelegatedStake
      = (s.delegateManager.spDelegateInfo x).totalDelegatedStake)
    (hshare : DelegateManagerV2.Reshares sp s.delegateManager s'.delegateManager)
    (hsplit : mid.staking.totalStakedFor sp = (s'.spFactory.spDetails sp).deployerStake
      + (s'.delegateManager.spDelegateInfo sp).totalDelegatedStake)
    (hshares : (s'.delegateManager.spDelegateInfo sp).totalDelegatedStake
      = ∑ d, s'.delegateManager.delegateInfo d sp) :
    Revaluation w blockNumber sp s s' := by
  have hfunds : Funds w blockNumber sp s s' := h.trans (.of_eq htoken hstaking)
  refine ⟨hfunds, ?_⟩
  exact
    { staked_off := hfunds.staked_off
      owned_off := howned
      delegated_off := hdelegated
      share_off := hshare.share_off
      split := by
        simp only [System.ledger, hstaking]
        exact hsplit
      shares := hshares
      delegators := hshare.totals
      total := hfunds.total
      custody := hfunds.custody }

/-- The invariant of token, histories and ledger. -/
structure Accounted (w : Wiring) (now : ℕ) (s : System) : Prop where
  token : s.token.Sound w.staking w.claimsManager
  histories : s.staking.Consistent now
  ledger : (s.ledger w).Balanced

namespace Accounted

variable {now : ℕ}

theorem of_revaluation {blockNumber : ℕ} (h : Accounted w now s) (hnow : now ≤ blockNumber)
    (hr : Revaluation w blockNumber sp s s') : Accounted w blockNumber s' :=
  ⟨hr.funds.sound h.token, hr.funds.consistent hnow h.histories, hr.ledger.balanced h.ledger⟩

variable {later : ℕ}

/-- Nothing in the ledger moves but custody, which may grow. -/
theorem of_steady (h : Accounted w now s) (hnow : now ≤ later)
    (htoken : s'.token.Sound w.staking w.claimsManager)
    (hcustody : s.token.balances w.staking ≤ s'.token.balances w.staking)
    (hstaking : s'.staking = s.staking) (howned : ∀ x, (s'.spFactory.spDetails x).deployerStake
      = (s.spFactory.spDetails x).deployerStake)
    (hdelegated : ∀ x, (s'.delegateManager.spDelegateInfo x).totalDelegatedStake
      = (s.delegateManager.spDelegateInfo x).totalDelegatedStake)
    (hshare : s'.delegateManager.delegateInfo = s.delegateManager.delegateInfo)
    (htotal : s'.delegateManager.delegatorTotalStake = s.delegateManager.delegatorTotalStake) :
    Accounted w later s' where
  token := htoken
  histories := hstaking ▸ h.histories.mono hnow
  ledger := by
    refine h.ledger.of_custody_le ?_ ?_ (funext howned) (funext hdelegated) hshare htotal hcustody
    · simp only [System.ledger, hstaking]
    · simp only [System.ledger, hstaking]

/-- Only the provider records change, and no deployer stake. -/
theorem of_spFactory (h : Accounted w now s) (hnow : now ≤ later) {f : ServiceProviderFactory}
    (howned : ∀ x, (f.spDetails x).deployerStake = (s.spFactory.spDetails x).deployerStake) :
    Accounted w later { s with spFactory := f } :=
  h.of_steady hnow h.token le_rfl rfl howned (fun _ ↦ rfl) rfl rfl

/-- Only the delegation records change, and no share or total. -/
theorem of_delegateManager (h : Accounted w now s) (hnow : now ≤ later) {d : DelegateManagerV2}
    (hdelegated : ∀ x, (d.spDelegateInfo x).totalDelegatedStake
      = (s.delegateManager.spDelegateInfo x).totalDelegatedStake)
    (hshare : d.delegateInfo = s.delegateManager.delegateInfo)
    (htotal : d.delegatorTotalStake = s.delegateManager.delegatorTotalStake) :
    Accounted w later { s with delegateManager := d } :=
  h.of_steady hnow h.token le_rfl rfl (fun _ ↦ rfl) hdelegated hshare htotal

end Accounted

/-! ### Providers -/

section Providers

open ServiceProviderFactory

variable {result : ℕ} (hledger : (s.ledger w).Balanced)

include hledger

/-- Direct stake of `sp` moves; no delegation does. -/
private theorem Moved.revaluation_own {blockNumber stake : ℕ}
    (h : Moved w blockNumber sp stake s mid) {f : ServiceProviderFactory}
    (howned : ∀ x, x ≠ sp → (f.spDetails x).deployerStake
      = (s.spFactory.spDetails x).deployerStake)
    (hstake : stake + (s.spFactory.spDetails sp).deployerStake
      = s.staking.totalStakedFor sp + (f.spDetails sp).deployerStake) :
    Revaluation w blockNumber sp s { mid with spFactory := f } := by
  have hsplit := hledger.split sp
  have hshares := hledger.shares sp
  simp only [System.ledger] at hsplit hshares
  refine h.funds.revaluation rfl rfl howned (fun x _ ↦ ?_) ?_ ?_ ?_
  · rw [h.records.delegateManager]
  · rw [h.records.delegateManager]
    exact .of_eq rfl rfl
  · simp only [h.stake, h.records.delegateManager]
    omega
  · rw [h.records.delegateManager]
    exact hshares

theorem register_revaluation {serviceType : Bytes32} {endpoint : String} {amount : ℕ}
    {wallet : Address} (hsender : msg.sender ≠ w.staking)
    (h : register w msg serviceType endpoint amount wallet s = .ok (s', result)) :
    Revaluation w msg.blockNumber msg.sender s s' := by
  obtain ⟨mid, hmoved, -, -, rfl⟩ := register_eq_ok hsender h
  refine hmoved.revaluation_own hledger (fun x hx ↦ ?_) ?_
  · simp [setTypeID, setInfo, setEndpointId, setIds, setDetails, hx]
  · simp only [setTypeID, setInfo, setEndpointId, setIds, setDetails, Function.update_self,
      registeredDetails]
    omega

theorem increaseStake_revaluation {amount : ℕ} (hsender : msg.sender ≠ w.staking)
    (h : increaseStake w msg amount s = .ok (s', result)) :
    Revaluation w msg.blockNumber msg.sender s s' := by
  obtain ⟨mid, details, hmoved, rfl, hdeployer, -⟩ := increaseStake_eq_ok hsender h
  refine hmoved.revaluation_own hledger (fun x hx ↦ ?_) ?_
  · simp [setDetails, hx]
  · simp only [setDetails, Function.update_self, hdeployer]
    omega

theorem decreaseStake_revaluation (h : decreaseStake w msg s = .ok (s', result)) :
    Revaluation w msg.blockNumber msg.sender s s' := by
  obtain ⟨mid, details, amount, -, -, hleStake, hle, hmoved, rfl, hdeployer, -⟩ :=
    decreaseStake_eq_ok h
  refine hmoved.revaluation_own hledger (fun x hx ↦ ?_) ?_
  · simp [setDetails, setDecreaseStakeRequest, hx]
  · simp only [setDetails, setDecreaseStakeRequest, Function.update_self, hdeployer]
    omega

end Providers

/-! ### Delegations -/

section Delegations

open DelegateManagerV2

variable {result : ℕ} (hledger : (s.ledger w).Balanced)

include hledger

/-- A share of `sp` moves with its totals; no direct stake does. -/
private theorem Moved.revaluation_share {blockNumber stake : ℕ}
    (h : Moved w blockNumber sp stake s mid) {f : ServiceProviderFactory} {d : DelegateManagerV2}
    (delegator : Address) (total share delegatorTotal : ℕ)
    (howned : ∀ x, (f.spDetails x).deployerStake = (s.spFactory.spDetails x).deployerStake)
    (hdelegated : ∀ x, (d.spDelegateInfo x).totalDelegatedStake
      = if x = sp then total else (s.delegateManager.spDelegateInfo x).totalDelegatedStake)
    (hshare : ∀ a x, d.delegateInfo a x
      = if a = delegator ∧ x = sp then share else s.delegateManager.delegateInfo a x)
    (htotal : ∀ a, d.delegatorTotalStake a
      = if a = delegator then delegatorTotal else s.delegateManager.delegatorTotalStake a)
    (hstake : stake + (s.delegateManager.spDelegateInfo sp).totalDelegatedStake
      = s.staking.totalStakedFor sp + total)
    (hsame : share + (s.delegateManager.spDelegateInfo sp).totalDelegatedStake
      = s.delegateManager.delegateInfo delegator sp + total)
    (hsameTotal : delegatorTotal + s.delegateManager.delegateInfo delegator sp
      = s.delegateManager.delegatorTotalStake delegator + share) :
    Revaluation w blockNumber sp s { mid with spFactory := f, delegateManager := d } := by
  have hsplit := hledger.split sp
  have hshares := hledger.shares sp
  simp only [System.ledger] at hsplit hshares
  have hsum := sum_add_eq_of_off (fun a ↦ s.delegateManager.delegateInfo a sp)
    (fun a ↦ d.delegateInfo a sp) delegator (fun a ha ↦ by simp [hshare, ha])
  refine h.funds.revaluation rfl rfl (fun x _ ↦ howned x) (fun x hx ↦ by simp [hdelegated, hx])
    ⟨fun a x hx ↦ by simp [hshare, hx], fun a ↦ ?_⟩ ?_ ?_
  · by_cases ha : a = delegator
    · subst ha
      simp only [hshare, htotal, and_self, if_true]
      exact hsameTotal
    · simp [hshare, htotal, ha]
  · simp only [h.stake, howned, hdelegated, if_true]
    omega
  · simp only [hdelegated, if_true]
    simp only [hshare, and_self, if_true] at hsum ⊢
    omega

variable {amount : ℕ}

theorem delegateStake_revaluation (hsender : msg.sender ≠ w.staking)
    (h : delegateStake w msg sp amount s = .ok (s', result)) :
    Revaluation w msg.blockNumber sp s s' := by
  obtain ⟨mid, d, hmoved, -, henlist, -, rfl⟩ := delegateStake_eq_ok hsender h
  have hsame : (∀ x, (d.spDelegateInfo x).totalDelegatedStake
      = (s.delegateManager.spDelegateInfo x).totalDelegatedStake) ∧
      d.delegateInfo = s.delegateManager.delegateInfo ∧
      d.delegatorTotalStake = s.delegateManager.delegatorTotalStake := by
    rcases enlist_eq_ok henlist with ⟨-, rfl⟩ | ⟨-, rfl⟩
    · exact ⟨fun _ ↦ rfl, rfl, rfl⟩
    · exact ⟨fun x ↦ totalDelegatedStake_setDelegators _ _ _ x, rfl, rfl⟩
  obtain ⟨hdelegated, hshare, htotal⟩ := hsame
  refine hmoved.revaluation_share hledger msg.sender
    ((d.spDelegateInfo sp).totalDelegatedStake + amount) (d.delegateInfo msg.sender sp + amount)
    (d.delegatorTotalStake msg.sender + amount) (fun x ↦ by rw [hmoved.records.spFactory])
    (fun x ↦ ?_) (fun a x ↦ ?_) (fun a ↦ ?_) ?_ ?_ ?_
  · rw [totalDelegatedStake_updateDelegatorStake, hdelegated x]
  · rw [delegateInfo_updateDelegatorStake, hshare]
  · rw [delegatorTotalStake_updateDelegatorStake, htotal]
  · rw [hdelegated]
    omega
  · rw [hdelegated, hshare]
    omega
  · rw [hshare, htotal]
    omega

/-- A withdrawn share leaves the ledger, whatever becomes of lists and requests. -/
private theorem Moved.revaluation_withdraw {delegator : Address} {blockNumber : ℕ}
    {d d' : DelegateManagerV2} {f : ServiceProviderFactory}
    (hle : amount ≤ s.staking.totalStakedFor sp)
    (h : Moved w blockNumber sp (s.staking.totalStakedFor sp - amount) s mid)
    (hwithdraw : s.delegateManager.withdraw delegator sp amount = .ok d)
    (howned : ∀ x, (f.spDetails x).deployerStake = (s.spFactory.spDetails x).deployerStake)
    (hdelegated : ∀ x, (d'.spDelegateInfo x).totalDelegatedStake
      = (d.spDelegateInfo x).totalDelegatedStake) (hshare : d'.delegateInfo = d.delegateInfo)
    (htotal : d'.delegatorTotalStake = d.delegatorTotalStake) :
    Revaluation w blockNumber sp s { mid with spFactory := f, delegateManager := d' } := by
  obtain ⟨hleTotal, hleShare, hleDelegator, rfl⟩ := withdraw_eq_ok hwithdraw
  refine h.revaluation_share hledger delegator
    ((s.delegateManager.spDelegateInfo sp).totalDelegatedStake - amount)
    (s.delegateManager.delegateInfo delegator sp - amount)
    (s.delegateManager.delegatorTotalStake delegator - amount) howned (fun x ↦ ?_)
    (fun a x ↦ ?_) (fun a ↦ ?_) ?_ ?_ ?_
  · rw [hdelegated x, totalDelegatedStake_updateDelegatorStake]
  · rw [hshare, delegateInfo_updateDelegatorStake]
  · rw [htotal, delegatorTotalStake_updateDelegatorStake]
  all_goals omega

theorem undelegateStake_revaluation (h : undelegateStake w msg s = .ok (s', result)) :
    Revaluation w msg.blockNumber
      (s.delegateManager.undelegateRequests msg.sender).serviceProvider s s' := by
  obtain ⟨mid, d, sp, amount, locked, v, rfl, -, -, hle, hmoved, hwithdraw, -, rfl⟩ :=
    undelegateStake_eq_ok h
  refine hmoved.revaluation_withdraw hledger hle hwithdraw (fun x ↦ ?_) (fun x ↦ ?_) ?_ ?_
  · by_cases hx : x = (s.delegateManager.undelegateRequests msg.sender).serviceProvider
    · rw [hx]
      simp [ServiceProviderFactory.setDetails]
    · simp [ServiceProviderFactory.setDetails, hx]
  · unfold delist
    split <;> simp [_resetUndelegateStakeRequest, _updateUndelegateStakeRequest,
      _removeFromDelegatorsList]
  · unfold delist
    split <;> rfl
  · unfold delist
    split <;> rfl

theorem removeDelegator_revaluation {delegator : Address}
    (h : removeDelegator w msg sp delegator s = .ok s') :
    Revaluation w msg.blockNumber sp s s' := by
  obtain ⟨mid, d, d', amount, -, -, -, -, -, hle, hmoved, hwithdraw, hdrop, rfl⟩ :=
    removeDelegator_eq_ok h
  obtain ⟨hdelegated, hshare, htotal⟩ := dropRequestFor_records hdrop
  refine hmoved.revaluation_withdraw hledger hle hwithdraw
    (fun x ↦ by rw [hmoved.records.spFactory]) (fun x ↦ ?_) hshare htotal
  rw [← hdelegated x]
  exact totalDelegatedStake_setDelegators _ _ _ x

theorem claimRewards_revaluation (h : claimRewards w msg sp s = .ok s') :
    Revaluation w msg.blockNumber sp s s' := by
  obtain ⟨mid, reward, hclaimed, -, -, hresult⟩ := claimRewards_eq_ok h
  have hsplit := hledger.split sp
  have hshares := hledger.shares sp
  simp only [System.ledger] at hsplit hshares
  have hstake := hclaimed.stake
  rcases hresult with ⟨hzero, rfl⟩ | ⟨d, increase, v, hspread⟩
  · refine hclaimed.funds.revaluation rfl rfl (fun x _ ↦ by rw [hclaimed.records.spFactory])
      (fun x _ ↦ by rw [hclaimed.records.delegateManager]) ?_ ?_ ?_
    · rw [hclaimed.records.delegateManager]
      exact .of_eq rfl rfl
    · rw [hclaimed.records.delegateManager, hclaimed.records.spFactory]
      omega
    · rw [hclaimed.records.delegateManager]
      exact hshares
  · obtain ⟨⟨funds, cut, hloop⟩, hle, rfl⟩ := hspread
    rw [hclaimed.records.delegateManager] at hloop
    obtain ⟨hreshares, honly, -, hsum⟩ := _distributeDelegateRewards_spec hloop
    have hinfo : d.spDelegateInfo = s.delegateManager.spDelegateInfo := by
      rw [honly]
    refine hclaimed.funds.revaluation rfl rfl (fun x hx ↦ ?_) (fun x hx ↦ ?_) ?_ ?_ ?_
    · simp [ServiceProviderFactory.setDetails, hx, hclaimed.records.spFactory]
    · rw [totalDelegatedStake_setTotalDelegatedStake, if_neg hx, hinfo]
    · exact hreshares.trans (.of_eq rfl rfl)
    · simp only [ServiceProviderFactory.setDetails, Function.update_self,
        totalDelegatedStake_setTotalDelegatedStake, if_true, hinfo, hclaimed.records.spFactory]
      omega
    · simp only [totalDelegatedStake_setTotalDelegatedStake, if_true, hinfo]
      have hstands : (d.setTotalDelegatedStake sp
          ((s.delegateManager.spDelegateInfo sp).totalDelegatedStake + increase)).delegateInfo
            = d.delegateInfo := rfl
      rw [hstands]
      omega

theorem slash_revaluation (h : slash w msg amount sp s = .ok s') :
    Revaluation w msg.blockNumber sp s s' := by
  obtain ⟨f, mid, d, decrease, v, -, hf, hle, hmoved, hloop, hleDelegated, hleDecrease, hleOwn,
    rfl⟩ := slash_eq_ok h
  have hsplit := hledger.split sp
  have hshares := hledger.shares sp
  simp only [System.ledger] at hsplit hshares
  obtain ⟨hreshares, honly, -, -, -, hsum⟩ := slashDelegators_spec hloop
  have hdetails : f.spDetails = s.spFactory.spDetails := by
    rcases hf with rfl | rfl <;> rfl
  have hcancel : Funds w msg.blockNumber sp s { s with spFactory := f } := .of_eq rfl rfl
  have hfunds := hcancel.trans hmoved.funds
  have hstake := hmoved.stake
  have hdelegated := honly.delegated sp
  refine hfunds.revaluation rfl rfl (fun x hx ↦ ?_) (fun x hx ↦ ?_) ?_ ?_ ?_
  · simp [ServiceProviderFactory.setDetails, hx, hdetails]
  · rw [totalDelegatedStake_setTotalDelegatedStake, if_neg hx, honly.delegated x]
  · exact hreshares.trans (.of_eq rfl rfl)
  · simp only [ServiceProviderFactory.setDetails, Function.update_self,
      totalDelegatedStake_setTotalDelegatedStake, if_true]
    omega
  · simp only [totalDelegatedStake_setTotalDelegatedStake, if_true]
    have hstands : (d.setTotalDelegatedStake sp
        ((d.spDelegateInfo sp).totalDelegatedStake - decrease)).delegateInfo
          = d.delegateInfo := rfl
    rw [hstands]
    omega

end Delegations

/-! ### Every call -/

section Calls

variable {now : ℕ} (hcaller : w.Caller msg.sender) (hnow : now ≤ msg.blockNumber)
  (hs : Accounted w now s)

include hcaller hnow hs

theorem ClaimsCall.perform_accounted {c : ClaimsCall} (h : c.perform w msg s = .ok s') :
    Accounted w msg.blockNumber s' := by
  rcases c.perform_cases hcaller h with ⟨-, hround⟩ | ⟨-, m, rfl, -⟩
  · obtain ⟨-, token, hsound, hcustody, rfl⟩ := ClaimsManager.initiateRound_eq_ok hround
    exact hs.of_steady hnow (hsound hs.token) hcustody rfl (fun _ ↦ rfl) (fun _ ↦ rfl) rfl rfl
  · exact hs.of_steady hnow hs.token le_rfl rfl (fun _ ↦ rfl) (fun _ ↦ rfl) rfl rfl

theorem ProviderCall.perform_accounted {c : ProviderCall} (h : c.perform w msg s = .ok s') :
    Accounted w msg.blockNumber s' := by
  cases c with
  | register ty endpoint amount wallet =>
    obtain ⟨⟨s'', n⟩, hcall, rfl⟩ := map_eq_ok.mp h
    exact hs.of_revaluation hnow (register_revaluation hs.ledger hcaller.ne_staking hcall)
  | increaseStake amount =>
    obtain ⟨⟨s'', n⟩, hcall, rfl⟩ := map_eq_ok.mp h
    exact hs.of_revaluation hnow (increaseStake_revaluation hs.ledger hcaller.ne_staking hcall)
  | decreaseStake =>
    obtain ⟨⟨s'', n⟩, hcall, rfl⟩ := map_eq_ok.mp h
    exact hs.of_revaluation hnow (decreaseStake_revaluation hs.ledger hcall)
  | _ =>
    obtain ⟨f, rfl, howned, -⟩ := perform_records hcaller rfl h
    exact hs.of_spFactory hnow howned

theorem DelegationCall.perform_accounted {c : DelegationCall} (h : c.perform w msg s = .ok s') :
    Accounted w msg.blockNumber s' := by
  cases c with
  | delegateStake sp amount =>
    obtain ⟨⟨s'', n⟩, hcall, rfl⟩ := map_eq_ok.mp h
    exact hs.of_revaluation hnow (delegateStake_revaluation hs.ledger hcaller.ne_staking hcall)
  | undelegateStake =>
    obtain ⟨⟨s'', n⟩, hcall, rfl⟩ := map_eq_ok.mp h
    exact hs.of_revaluation hnow (undelegateStake_revaluation hs.ledger hcall)
  | claimRewards sp => exact hs.of_revaluation hnow (claimRewards_revaluation hs.ledger h)
  | slash amount sp => exact hs.of_revaluation hnow (slash_revaluation hs.ledger h)
  | removeDelegator sp delegator =>
    exact hs.of_revaluation hnow (removeDelegator_revaluation hs.ledger h)
  | _ =>
    obtain ⟨d, rfl, hdelegated, -, hshare, htotal, -⟩ := perform_records rfl h
    exact hs.of_delegateManager hnow hdelegated hshare htotal

theorem Call.perform_accounted {c : Call} {frame : Option Frame}
    (h : c.perform w msg s = .ok (s', frame)) : Accounted w msg.blockNumber s' := by
  cases c with
  | token c =>
    obtain ⟨token, htoken, rfl, -⟩ := perform_token_eq_ok h
    obtain ⟨hsound, hcustody⟩ := TokenCall.perform_sound hcaller htoken hs.token
    exact hs.of_steady hnow hsound hcustody rfl (fun _ ↦ rfl) (fun _ ↦ rfl) rfl rfl
  | staking c =>
    exact absurd (settled_eq_ok.mp h).1 (StakingCall.perform_reverts hcaller)
  | claims c =>
    obtain ⟨hcall, -⟩ := settled_eq_ok.mp h
    exact ClaimsCall.perform_accounted hcaller hnow hs hcall
  | types c =>
    obtain ⟨m, -, rfl, -⟩ := perform_types_eq_ok h
    exact hs.of_steady hnow hs.token le_rfl rfl (fun _ ↦ rfl) (fun _ ↦ rfl) rfl rfl
  | providers c =>
    obtain ⟨hcall, -⟩ := settled_eq_ok.mp h
    exact ProviderCall.perform_accounted hcaller hnow hs hcall
  | delegation c =>
    obtain ⟨hcall, -⟩ := settled_eq_ok.mp h
    exact DelegationCall.perform_accounted hcaller hnow hs hcall
  | governance environment a =>
    obtain ⟨g, -, rfl⟩ := perform_governance_eq_ok h
    exact hs.of_steady hnow hs.token le_rfl rfl (fun _ ↦ rfl) (fun _ ↦ rfl) rfl rfl

end Calls

/-- A step keeps the accounts. -/
theorem step_accounted {ss ss' : Session System} {e : Event} (hs : Accounted w ss.now ss.state)
    (h : step w ss e = .ok ss') : Accounted w ss'.now ss'.state := by
  cases e with
  | call msg c =>
    obtain ⟨hadmits, ⟨s', frame⟩, hperform, rfl⟩ := step_call_eq_ok h
    exact Call.perform_accounted (admits_caller hadmits) hadmits.2.1 hs hperform
  | returned =>
    obtain ⟨frame, rest, g, -, -, rfl⟩ := step_returned_eq_ok h
    exact hs.of_steady le_rfl hs.token le_rfl rfl (fun _ ↦ rfl) (fun _ ↦ rfl) rfl rfl

/-- Nothing is staked after deployment, and the claims contract mints. -/
theorem deploy_accounted {p : Deployment} {start : Session System}
    (h : deploy w p = .ok start) : Accounted w start.now start.state := by
  obtain ⟨-, -, -, -, token, hmint, rfl⟩ := deploy_eq_ok h
  have hgenesis : (ERC20.genesis w.governance).Sound w.staking w.governance :=
    ⟨by simp [ERC20.genesis], fun _ ↦ rfl, by simp [ERC20.genesis]⟩
  have htoken := ERC20._mint_sound hmint hgenesis
  refine ⟨⟨htoken.supply, htoken.unapproved, by simp⟩, Staking.consistent_initialStorage _, ?_⟩
  refine ⟨fun _ ↦ rfl, fun _ ↦ ?_, fun _ ↦ ?_, ?_, Nat.zero_le _⟩ <;>
    simp [System.ledger, DelegateManagerV2.empty, Staking.initialStorage, Staking.totalStaked,
      Staking.totalStakedFor]

theorem Reachable.accounted {ss : Session System} (h : Reachable w ss) :
    Accounted w ss.now ss.state :=
  h.induction (fun _ _ hp ↦ deploy_accounted hp) (fun _ _ _ hs hstep ↦ step_accounted hs hstep)

/-- In every reachable session the four records of stake agree, and the tokens Staking holds
cover them. -/
theorem stake_records_agree {ss : Session System} (h : Reachable w ss) :
    (∀ sp, ss.state.staking.totalStakedFor sp
      = (ss.state.spFactory.spDetails sp).deployerStake
        + (ss.state.delegateManager.spDelegateInfo sp).totalDelegatedStake) ∧
    (∀ sp, (ss.state.delegateManager.spDelegateInfo sp).totalDelegatedStake
      = ∑ d, ss.state.delegateManager.delegateInfo d sp) ∧
    (∀ d, ss.state.delegateManager.delegatorTotalStake d
      = ∑ sp, ss.state.delegateManager.delegateInfo d sp) ∧
    ss.state.staking.totalStaked = ∑ a, ss.state.staking.totalStakedFor a ∧
    ∑ a, ss.state.staking.totalStakedFor a ≤ ss.state.token.balances w.staking := by
  have hledger := h.accounted.ledger
  have htotal : ss.state.staking.totalStaked = ∑ a, ss.state.staking.totalStakedFor a :=
    hledger.total
  exact ⟨hledger.split, hledger.shares, hledger.delegators, htotal,
    htotal ▸ hledger.covered⟩

end Ledger

open Scenario in
theorem stake_records_agree_opening :
    (after opening).state.staking.totalStakedFor owner = 10 ^ 25 ∧
      ∑ a, (after opening).state.staking.totalStakedFor a
        ≤ (after opening).state.token.balances wiring.staking :=
  ⟨by decide +kernel, (stake_records_agree (reachable_after opening)).2.2.2.2⟩

end ColivingSpec
