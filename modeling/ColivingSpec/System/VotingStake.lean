import ColivingSpec.Governance.Votes
import ColivingSpec.System.Ledger
import ColivingSpec.System.Lockups

/-!
# The stake behind the votes

A vote weighs the stake of its voter less the withdrawals the voter has asked for. A
withdrawal asked for later is locked past the voting window, so until the window ends the
stake stays where it was counted. The removal of a delegator is asked for by the
provider and is not subtracted.
-/

namespace ColivingSpec

open Lib ServiceProviderFactory DelegateManagerV2

section Withdrawals

variable [Keccak256] {w : Wiring} {msg : Msg} {s s' : System} {lastBlock : ℕ}

/-- Own stake whose withdrawal is unlocked by `lastBlock`. -/
def ServiceProviderFactory.dueBy (lastBlock : ℕ) (f : ServiceProviderFactory) (a : Address) : ℕ :=
  if (f.decreaseStakeRequests a).lockupExpiryBlock ≤ lastBlock
    then (f.decreaseStakeRequests a).decreaseAmount else 0

omit [Keccak256] in
/-- Delegated stake whose withdrawal is unlocked by `lastBlock`. -/
def DelegateManagerV2.dueBy (lastBlock : ℕ) (d : DelegateManagerV2) (a : Address) : ℕ :=
  if (d.undelegateRequests a).lockupExpiryBlock ≤ lastBlock
    then (d.undelegateRequests a).amount else 0

/-- What the account can withdraw by `lastBlock`. -/
def System.dueBy (lastBlock : ℕ) (s : System) (a : Address) : ℕ :=
  s.spFactory.dueBy lastBlock a + s.delegateManager.dueBy lastBlock a

/-- The stake of an account, its own and what it delegates. -/
def System.held (s : System) (a : Address) : ℕ :=
  (s.spFactory.spDetails a).deployerStake + s.delegateManager.delegatorTotalStake a

/-- What is due is at most what is asked for. -/
theorem System.dueBy_le_requested (s : System) (lastBlock : ℕ) (a : Address) :
    s.dueBy lastBlock a ≤ (s.spFactory.decreaseStakeRequests a).decreaseAmount
      + (s.delegateManager.undelegateRequests a).amount := by
  unfold System.dueBy ServiceProviderFactory.dueBy DelegateManagerV2.dueBy
  split <;> split <;> omega

/-- A request made now is locked past `lastBlock`. -/
theorem FactoryUpkeep.dueBy_le {f : ServiceProviderFactory} (h : FactoryUpkeep msg s f)
    (hlock : lastBlock < msg.blockNumber + s.spFactory.decreaseStakeLockupDuration)
    (a : Address) : f.dueBy lastBlock a ≤ s.spFactory.dueBy lastBlock a := by
  unfold ServiceProviderFactory.dueBy
  rcases h.decreaseRequest a with hsame | hzero | hlater
  · rw [hsame]
  · simp [hzero]
  · rw [hlater, if_neg (by omega)]
    exact Nat.zero_le _

@[inherit_doc FactoryUpkeep.dueBy_le]
theorem ManagerUpkeep.dueBy_le {d : DelegateManagerV2} (h : ManagerUpkeep msg s d)
    (hlock : lastBlock < msg.blockNumber + s.delegateManager.undelegateLockupDuration)
    (a : Address) : d.dueBy lastBlock a ≤ s.delegateManager.dueBy lastBlock a := by
  unfold DelegateManagerV2.dueBy
  rcases h.request a with hsame | hzero | ⟨target, amount, -, -, -, hlater⟩
  · rw [hsame]
  · simp [hzero]
  · rw [hlater, if_neg (by dsimp only; omega)]
    exact Nat.zero_le _

/-- What the account holds beyond what it can withdraw by `lastBlock` does not shrink. -/
def Retains (lastBlock : ℕ) (a : Address) (s s' : System) : Prop :=
  s.held a + s'.dueBy lastBlock a ≤ s'.held a + s.dueBy lastBlock a

/-- Nothing is taken from the account and nothing more falls due. -/
theorem Retains.of_le {a : Address} (hheld : s.held a ≤ s'.held a)
    (hdue : s'.dueBy lastBlock a ≤ s.dueBy lastBlock a) : Retains lastBlock a s s' :=
  add_le_add hheld hdue

/-- Calls that take stake from the account without its request. -/
def TakesFrom (a : Address) : Call → Prop
  | .delegation (.slash ..) => True
  | .delegation (.removeDelegator _ delegator) => delegator = a
  | _ => False

omit [Keccak256] in
/-- A total grows when no share of it shrinks. -/
theorem DelegateManagerV2.Reshares.delegatorTotal_le {sp : Address} {d d' : DelegateManagerV2}
    (h : Reshares sp d d') (hgrow : ∀ a, d.delegateInfo a sp ≤ d'.delegateInfo a sp)
    (a : Address) : d.delegatorTotalStake a ≤ d'.delegatorTotalStake a := by
  have htotal := h.totals a
  have hshare := hgrow a
  omega

namespace ServiceProviderFactory

variable {result : ℕ}

/-- The withdrawal of own stake takes what was due. -/
theorem decreaseStake_retains (hblock : msg.blockNumber ≤ lastBlock)
    (hdue : ∀ a, s'.dueBy lastBlock a ≤ s.dueBy lastBlock a) (a : Address)
    (h : decreaseStake w msg s = .ok (s', result)) : Retains lastBlock a s s' := by
  obtain ⟨mid, details, amount, hamount, hexpiry, -, hle, hmoved, rfl, hstake, -⟩ :=
    decreaseStake_eq_ok h
  have hmanager := hmoved.records.delegateManager
  by_cases ha : a = msg.sender
  · subst ha
    have hold : s.spFactory.dueBy lastBlock msg.sender = amount := by
      rw [dueBy, if_pos (hexpiry.trans hblock), hamount]
    unfold Retains System.held System.dueBy
    rw [hold]
    simp only [dueBy, setDecreaseStakeRequest, setDetails, Function.update_self, hstake, hmanager,
      Nat.zero_le, if_true]
    omega
  · refine .of_le ?_ (hdue a)
    simp [System.held, setDecreaseStakeRequest, setDetails, ha, hmanager]

end ServiceProviderFactory

/-- The calls of the factory. -/
theorem ProviderCall.perform_retains {c : ProviderCall} (hcaller : w.Caller msg.sender)
    (hblock : msg.blockNumber ≤ lastBlock)
    (hdue : ∀ a, s'.dueBy lastBlock a ≤ s.dueBy lastBlock a) (a : Address)
    (h : c.perform w msg s = .ok s') : Retains lastBlock a s s' := by
  cases c with
  | register ty endpoint amount wallet =>
    obtain ⟨⟨s'', n⟩, hcall, rfl⟩ := map_eq_ok.mp h
    obtain ⟨mid, hmoved, -, -, rfl⟩ :=
      register_eq_ok hcaller.ne_staking hcall
    refine .of_le ?_ (hdue a)
    by_cases ha : a = msg.sender
    · subst ha
      simp [System.held, setDetails, registeredDetails, hmoved.records.delegateManager]
    · simp [System.held, setDetails, setIds, setEndpointId, setInfo,
        setTypeID, ha, hmoved.records.delegateManager]
  | increaseStake amount =>
    obtain ⟨⟨s'', n⟩, hcall, rfl⟩ := map_eq_ok.mp h
    obtain ⟨mid, details, hmoved, rfl, hstake, -⟩ :=
      increaseStake_eq_ok hcaller.ne_staking hcall
    refine .of_le ?_ (hdue a)
    by_cases ha : a = msg.sender
    · subst ha
      simp [System.held, setDetails, hstake, hmoved.records.delegateManager]
    · simp [System.held, setDetails, ha, hmoved.records.delegateManager]
  | decreaseStake =>
    obtain ⟨⟨s'', n⟩, hcall, rfl⟩ := map_eq_ok.mp h
    exact decreaseStake_retains hblock hdue a hcall
  | _ =>
    obtain ⟨f, rfl, hstake, -⟩ := perform_records hcaller rfl h
    exact .of_le (by simp [System.held, hstake]) (hdue a)

namespace DelegateManagerV2

variable {sp : Address} {amount result : ℕ}

theorem delegateStake_retains (hsender : msg.sender ≠ w.staking)
    (hdue : ∀ a, s'.dueBy lastBlock a ≤ s.dueBy lastBlock a) (a : Address)
    (h : delegateStake w msg sp amount s = .ok (s', result)) : Retains lastBlock a s s' := by
  obtain ⟨mid, d, hmoved, -, henlist, -, rfl⟩ := delegateStake_eq_ok hsender h
  have htotal : d.delegatorTotalStake = s.delegateManager.delegatorTotalStake := by
    rcases enlist_eq_ok henlist with ⟨-, rfl⟩ | ⟨-, rfl⟩ <;> rfl
  refine .of_le ?_ (hdue a)
  unfold System.held
  simp only [hmoved.records.spFactory, delegatorTotalStake_updateDelegatorStake, htotal]
  split
  · next ha =>
    rw [ha]
    omega
  · exact le_rfl

/-- The withdrawal of a delegation takes what was due. -/
theorem undelegateStake_retains (hblock : msg.blockNumber ≤ lastBlock)
    (hdue : ∀ a, s'.dueBy lastBlock a ≤ s.dueBy lastBlock a) (a : Address)
    (h : undelegateStake w msg s = .ok (s', result)) : Retains lastBlock a s s' := by
  obtain ⟨mid, d, sp, amount, locked, v, -, hamount, hexpiry, -, hmoved, hwithdraw, -, rfl⟩ :=
    undelegateStake_eq_ok h
  obtain ⟨-, -, hle, hd⟩ := withdraw_eq_ok hwithdraw
  have htotal : ∀ x, (d.delist msg.sender sp).delegatorTotalStake x
      = if x = msg.sender then s.delegateManager.delegatorTotalStake msg.sender - amount
        else s.delegateManager.delegatorTotalStake x := fun x ↦ by
    rw [delist_eq, hd, delegatorTotalStake_updateDelegatorStake]
  have howned : ((s.spFactory.setDetails sp
      { s.spFactory.spDetails sp with validBounds := v }).spDetails a).deployerStake
        = (s.spFactory.spDetails a).deployerStake := by
    by_cases ha : a = sp
    · simp [ha, setDetails]
    · simp [ha, setDetails]
  by_cases ha : a = msg.sender
  · subst ha
    have hold : s.delegateManager.dueBy lastBlock msg.sender = amount := by
      rw [dueBy, if_pos (hexpiry.trans hblock), hamount]
    have hown : (s.spFactory.setDetails sp { s.spFactory.spDetails sp with
        validBounds := v }).dueBy lastBlock msg.sender
          = s.spFactory.dueBy lastBlock msg.sender := rfl
    unfold Retains System.held System.dueBy
    rw [hold, howned, hown]
    simp only [dueBy, _resetUndelegateStakeRequest, _updateUndelegateStakeRequest,
      _updateServiceProviderLockupAmount, setSpInfo, Function.update_self, htotal, if_true,
      Nat.zero_le]
    omega
  · refine .of_le ?_ (hdue a)
    unfold System.held
    rw [howned]
    simp [_resetUndelegateStakeRequest, _updateUndelegateStakeRequest,
      _updateServiceProviderLockupAmount, setSpInfo, htotal, ha]

theorem claimRewards_retains (hdue : ∀ a, s'.dueBy lastBlock a ≤ s.dueBy lastBlock a) (a : Address)
    (h : claimRewards w msg sp s = .ok s') : Retains lastBlock a s s' := by
  obtain ⟨mid, reward, hclaimed, -, -, hresult⟩ := claimRewards_eq_ok h
  refine .of_le ?_ (hdue a)
  rcases hresult with ⟨-, rfl⟩ | ⟨d, increase, v, hspread⟩
  · unfold System.held
    rw [hclaimed.records.spFactory, hclaimed.records.delegateManager]
  · obtain ⟨funds, cut, hdistribute⟩ := hspread.distributed
    obtain ⟨hreshares, -, hgrow, -⟩ := _distributeDelegateRewards_spec hdistribute
    have htotal := hreshares.delegatorTotal_le hgrow a
    rw [hclaimed.records.delegateManager] at htotal
    rw [hspread.result]
    refine add_le_add ?_ htotal
    rw [hclaimed.records.spFactory]
    by_cases ha : a = sp
    · subst ha
      simp [setDetails]
    · simp [setDetails, ha]

/-- A removal takes from the delegator alone. -/
theorem removeDelegator_retains {delegator : Address}
    (hdue : ∀ a, s'.dueBy lastBlock a ≤ s.dueBy lastBlock a) {a : Address} (ha : a ≠ delegator)
    (h : removeDelegator w msg sp delegator s = .ok s') : Retains lastBlock a s s' := by
  obtain ⟨mid, d, d', amount, -, -, -, -, -, -, hmoved, hwithdraw, hdrop, rfl⟩ :=
    removeDelegator_eq_ok h
  obtain ⟨-, -, -, hd⟩ := withdraw_eq_ok hwithdraw
  have htotal := (dropRequestFor_records hdrop).2.2
  rw [hd] at htotal
  refine .of_le (le_of_eq ?_) (hdue a)
  unfold System.held
  rw [hmoved.records.spFactory]
  change _ = _ + d'.delegatorTotalStake a
  rw [htotal, delegatorTotalStake_updateDelegatorStake, if_neg ha]

end DelegateManagerV2

/-- The calls of the delegation contract. -/
theorem DelegationCall.perform_retains {c : DelegationCall} (hcaller : w.Caller msg.sender)
    (hblock : msg.blockNumber ≤ lastBlock)
    (hdue : ∀ a, s'.dueBy lastBlock a ≤ s.dueBy lastBlock a) {a : Address}
    (hnot : ¬ TakesFrom a (.delegation c)) (h : c.perform w msg s = .ok s') :
    Retains lastBlock a s s' := by
  cases c with
  | delegateStake sp amount =>
    obtain ⟨⟨s'', n⟩, hcall, rfl⟩ := map_eq_ok.mp h
    exact delegateStake_retains hcaller.ne_staking hdue a hcall
  | undelegateStake =>
    obtain ⟨⟨s'', n⟩, hcall, rfl⟩ := map_eq_ok.mp h
    exact undelegateStake_retains hblock hdue a hcall
  | claimRewards sp => exact claimRewards_retains hdue a h
  | slash amount sp => exact absurd trivial hnot
  | removeDelegator sp delegator =>
    exact removeDelegator_retains hdue (fun heq ↦ hnot heq.symm) h
  | _ =>
    obtain ⟨d, rfl, -, -, -, htotal, -⟩ := perform_records rfl h
    exact .of_le (by simp [System.held, htotal]) (hdue a)

/-- While no request made now is unlocked by `lastBlock`, a call leaves the account what it
holds, less what was due. -/
theorem Call.perform_retains {c : Call} {frame : Option Frame} (hcaller : w.Caller msg.sender)
    (hblock : msg.blockNumber ≤ lastBlock)
    (hdecrease : lastBlock < msg.blockNumber + s.spFactory.decreaseStakeLockupDuration)
    (hundelegate : lastBlock < msg.blockNumber + s.delegateManager.undelegateLockupDuration)
    {a : Address} (hnot : ¬ TakesFrom a c) (h : c.perform w msg s = .ok (s', frame)) :
    Retains lastBlock a s s' := by
  have hupkeep := c.perform_upkeep hcaller h
  have hdue : ∀ x, s'.dueBy lastBlock x ≤ s.dueBy lastBlock x := fun x ↦
    add_le_add (hupkeep.factory.dueBy_le hdecrease x) (hupkeep.manager.dueBy_le hundelegate x)
  cases c with
  | providers c => exact c.perform_retains hcaller hblock hdue a (settled_eq_ok.mp h).1
  | delegation c => exact c.perform_retains hcaller hblock hdue hnot (settled_eq_ok.mp h).1
  | _ =>
    obtain ⟨hfactory, hmanager, -⟩ := perform_frame hcaller (by simp) (by simp) h
    exact .of_le (by simp [System.held, hfactory, hmanager]) (hdue a)

end Withdrawals

section Runs

variable [Keccak256] {w : Wiring} {ss ss' : Session System} {id : ℕ}

/-- The last block of the voting window of a proposal. -/
def GovernanceV2.lastVotingBlock (g : GovernanceV2) (id : ℕ) : ℕ :=
  (g.proposals id).submissionBlockNumber + g.votingPeriod

/-- Once the proposal is submitted the voting period stands and nobody is slashed. -/
def StaysSteady (w : Wiring) (id : ℕ) (ss : Session System) (e : Event) : Prop :=
  (step w ss e).isOk = true → ss.state.governance.Submitted id → match e with
    | .call _ (.governance _ (.setVotingPeriod _)) => False
    | .call _ (.delegation (.slash ..)) => False
    | _ => True

/-- No voter on the proposal is removed from a provider before the window ends. -/
def KeepsVoters (w : Wiring) (id : ℕ) (ss : Session System) (e : Event) : Prop :=
  (step w ss e).isOk = true → ss.state.governance.Submitted id → match e with
    | .call msg (.delegation (.removeDelegator _ delegator)) =>
      (ss.state.governance.proposals id).votes delegator = .none ∨
        ss.state.governance.lastVotingBlock id < msg.blockNumber
    | _ => True

/-- Governance reads the stake of the system. -/
structure Wired (w : Wiring) (g : GovernanceV2) : Prop where
  serviceProviderFactoryAddress : g.serviceProviderFactoryAddress = w.serviceProviderFactory
  delegateManagerAddress : g.delegateManagerAddress = w.delegateManager

/-- The active stake is what the account holds less what it asked to withdraw. -/
theorem Wired.activeStake {s : System} {environment : Environment} {a : Address} {stake : ℕ}
    (h : Wired w s.governance)
    (hstake : s.governance._calculateAddressActiveStake (s.world w environment) a = .ok stake) :
    stake + (s.spFactory.decreaseStakeRequests a).decreaseAmount
      + (s.delegateManager.undelegateRequests a).amount = s.held a := by
  unfold GovernanceV2._calculateAddressActiveStake System.world viewAt SafeMath.sub
    SafeMath.add at hstake
  simp only [h.serviceProviderFactoryAddress, h.delegateManagerAddress, if_true, ok_bind,
    ↓sub_bind_eq_ok, add_eq_ok] at hstake
  unfold System.held
  omega

/-- Every voter on the proposal holds its weight beyond what it can withdraw before the
window ends. -/
structure VotersHold (id : ℕ) (ss : Session System) : Prop where
  begun : (ss.state.governance.proposals id).submissionBlockNumber ≤ ss.now
  backed : ss.now ≤ ss.state.governance.lastVotingBlock id →
    ∀ a, (ss.state.governance.proposals id).votes a ≠ .none →
      (ss.state.governance.proposals id).voteMagnitudes a
        + ss.state.dueBy (ss.state.governance.lastVotingBlock id) a ≤ ss.state.held a

/-- Votes that stand stay backed, as long as the voters retain their stake. -/
theorem VotersHold.of_stand (hs : VotersHold id ss)
    (hstand : GovernanceV2.VotesStand id ss.state.governance ss'.state.governance)
    (hperiod : ss'.state.governance.votingPeriod = ss.state.governance.votingPeriod)
    (hnow : ss.now ≤ ss'.now)
    (hretains : ss'.now ≤ ss.state.governance.lastVotingBlock id →
      ∀ a, (ss.state.governance.proposals id).votes a ≠ .none →
        Retains (ss.state.governance.lastVotingBlock id) a ss.state ss'.state) :
    VotersHold id ss' := by
  have hlast : ss'.state.governance.lastVotingBlock id
      = ss.state.governance.lastVotingBlock id := by
    rw [GovernanceV2.lastVotingBlock, hstand.submissionBlockNumber, hperiod]
    rfl
  refine ⟨hstand.submissionBlockNumber ▸ hs.begun.trans hnow, fun hopen a hvoted ↦ ?_⟩
  rw [hlast] at hopen ⊢
  rw [hstand.votes] at hvoted
  rw [hstand.voteMagnitudes]
  have hbacked := hs.backed (hnow.trans hopen) a hvoted
  have hheld := hretains hopen a hvoted
  unfold Retains at hheld
  omega

/-- A ballot is backed by the stake it weighs. -/
theorem VotersHold.of_ballot {g : GovernanceV2} {environment : Environment} {msg : Msg}
    {frames : List Frame} {vote : Vote} {weight : ℕ} (hs : VotersHold id ss)
    (hwired : Wired w ss.state.governance) (hnow : ss.now ≤ msg.blockNumber)
    (hballot : GovernanceV2.Ballot msg.sender vote weight (ss.state.governance.proposals id)
      (g.proposals id))
    (hweight : (ss.state.governance.proposals id).votes msg.sender = .none →
      ss.state.governance._calculateAddressActiveStake (ss.state.world w environment) msg.sender
        = .ok weight)
    (hperiod : g.votingPeriod = ss.state.governance.votingPeriod) :
    VotersHold id ⟨{ ss.state with governance := g }, frames, msg.blockNumber⟩ := by
  have hlast : g.lastVotingBlock id = ss.state.governance.lastVotingBlock id := by
    rw [GovernanceV2.lastVotingBlock, hballot.submissionBlockNumber, hperiod]
    rfl
  refine ⟨?_, fun hopen a hvoted ↦ ?_⟩
  · dsimp only
    rw [hballot.submissionBlockNumber]
    exact hs.begun.trans hnow
  · dsimp only at hopen hvoted ⊢
    rw [hlast] at hopen ⊢
    rw [hballot.votes] at hvoted
    rw [hballot.voteMagnitudes]
    by_cases ha : a = msg.sender
    · subst ha
      rw [Function.update_self]
      by_cases hfirst : (ss.state.governance.proposals id).votes msg.sender = .none
      · have hactive := hwired.activeStake (hweight hfirst)
        have hdue := ss.state.dueBy_le_requested
          (ss.state.governance.lastVotingBlock id) msg.sender
        change weight + ss.state.dueBy _ msg.sender ≤ ss.state.held msg.sender
        omega
      · rw [hballot.keeps hfirst]
        exact hs.backed (hnow.trans hopen) _ hfirst
    · rw [Function.update_of_ne ha] at hvoted ⊢
      exact hs.backed (hnow.trans hopen) a hvoted

/-- No voter loses stake in the window but by its own request. -/
theorem not_takesFrom {msg : Msg} {c : Call} (hsteady : StaysSteady w id ss (.call msg c))
    (hkeeps : KeepsVoters w id ss (.call msg c)) (hok : (step w ss (.call msg c)).isOk = true)
    (hid : ss.state.governance.Submitted id)
    (hopen : msg.blockNumber ≤ ss.state.governance.lastVotingBlock id) {a : Address}
    (hvoted : (ss.state.governance.proposals id).votes a ≠ .none) : ¬ TakesFrom a c := by
  intro htakes
  cases c with
  | delegation c =>
    cases c with
    | slash => exact hsteady hok hid
    | removeDelegator sp delegator =>
      obtain rfl : delegator = a := htakes
      rcases hkeeps hok hid with hnone | hlater
      · exact hvoted hnone
      · omega
    | _ => exact htakes
  | _ => exact htakes

variable {e : Event}

/-- The contracts governance reads stay the contracts of the system. -/
theorem step_wired (hs : Wired w ss.state.governance) (h : step w ss e = .ok ss') :
    Wired w ss'.state.governance := by
  rcases step_governance_cases h with ⟨environment, msg, a, frame, -, heffect⟩ | hsame |
    ⟨frame, hfinish⟩
  · exact ⟨heffect.configured.serviceProviderFactoryAddress.trans hs.1,
      heffect.configured.delegateManagerAddress.trans hs.2⟩
  · exact hsame ▸ hs
  · obtain ⟨-, -, -, hfactory, hmanager⟩ := GovernanceV2.finish_configured hfinish
    exact ⟨hfactory.trans hs.1, hmanager.trans hs.2⟩

/-- The counters of the proposals through a step of the system. -/
theorem step_votesCounted (hs : ss.state.governance.Counted) (h : step w ss e = .ok ss') :
    ss'.state.governance.Counted := by
  rcases step_governance_cases h with ⟨environment, msg, a, frame, -, heffect⟩ | hsame |
    ⟨frame, hfinish⟩
  · exact heffect.counted hs
  · exact hsame ▸ hs
  · exact GovernanceV2.finish_counted hfinish hs

/-- The stake behind the votes through a step that leaves the voters theirs. -/
theorem step_votersHold (hcounted : ss.state.governance.Counted)
    (hwired : Wired w ss.state.governance)
    (hlockups : LockupsExceed ss.state
      (ss.state.governance.votingPeriod + ss.state.governance.executionDelay))
    (hs : ss.state.governance.Submitted id → VotersHold id ss) (hsteady : StaysSteady w id ss e)
    (hkeeps : KeepsVoters w id ss e) (h : step w ss e = .ok ss')
    (hid' : ss'.state.governance.Submitted id) : VotersHold id ss' := by
  have hok : (step w ss e).isOk = true := by
    rw [h]
    rfl
  cases e with
  | returned =>
    obtain ⟨frame, rest, g, -, hfinish, rfl⟩ := step_returned_eq_ok h
    obtain ⟨hstand, hlast⟩ := GovernanceV2.finish_votesStand hfinish id
    have hid : ss.state.governance.Submitted id := ⟨hid'.1, hlast ▸ hid'.2⟩
    exact (hs hid).of_stand hstand (GovernanceV2.finish_configured hfinish).1 le_rfl
      fun _ _ _ ↦ .of_le le_rfl le_rfl
  | call msg c =>
    obtain ⟨hadmits, ⟨s', frame⟩, hperform, rfl⟩ := step_call_eq_ok h
    have hnow := hadmits.2.1
    by_cases hc : ∃ environment a, c = .governance environment a
    · obtain ⟨environment, a, rfl⟩ := hc
      obtain ⟨g, haction, rfl⟩ := perform_governance_eq_ok hperform
      have heffect := GovernanceV2.Action.perform_effect haction
      have hperiod : ss.state.governance.Submitted id →
          g.votingPeriod = ss.state.governance.votingPeriod := fun hid ↦ by
        refine heffect.configured.votingPeriod.resolve_right fun hset ↦ ?_
        subst hset
        exact hsteady hok hid
      rcases heffect.votes_cases hcounted id with ⟨hstand, hback⟩ | ⟨hblock, hnone⟩ |
        ⟨vote, weight, hid, -, hballot, hweight⟩
      · exact (hs (hback hid')).of_stand hstand (hperiod (hback hid')) hnow
          fun _ _ _ ↦ .of_le le_rfl le_rfl
      · exact ⟨hblock.le, fun _ a hvoted ↦ absurd (hnone a) hvoted⟩
      · exact (hs hid).of_ballot hwired hnow hballot hweight (hperiod hid)
    · have hupkeep := Call.perform_upkeep (admits_caller hadmits) hperform
      have hgovernance := (hupkeep.governance fun environment a heq ↦ hc ⟨environment, a, heq⟩).1
      have hsame : (ss.next msg (s', frame)).state.governance = ss.state.governance := hgovernance
      have hid : ss.state.governance.Submitted id := hsame ▸ hid'
      refine (hs hid).of_stand (hsame ▸ ⟨rfl, rfl, rfl⟩) (hsame ▸ rfl) hnow
        fun hopen a hvoted ↦ ?_
      have hbegun := (hs hid).begun
      obtain ⟨hundelegate, -, hdecrease⟩ := hlockups
      have hnot := not_takesFrom hsteady hkeeps hok hid hopen hvoted
      refine Call.perform_retains (admits_caller hadmits) hopen ?_ ?_ hnot hperform
      · unfold GovernanceV2.lastVotingBlock
        omega
      · unfold GovernanceV2.lastVotingBlock
        omega

/-- The votes are backed by stake that is still staked. -/
theorem VotersHold.votes_le {now : ℕ} (hs : VotersHold id ss)
    (hopen : ss.now ≤ ss.state.governance.lastVotingBlock id)
    (hcounted : ss.state.governance.Counted) (haccounted : Accounted w now ss.state) :
    (ss.state.governance.proposals id).voteMagnitudeYes
        + (ss.state.governance.proposals id).voteMagnitudeNo ≤ ss.state.staking.totalStaked := by
  have htallied := hcounted.tallied id
  rw [htallied.yes, htallied.no]
  have hsum : ∑ a, ((ss.state.ledger w).owned a + (ss.state.ledger w).delegatorTotal a)
      = ss.state.staking.totalStaked := haccounted.ledger.sum_holdings
  rw [← hsum]
  refine tally_add_tally_le (by decide) fun a hchoice ↦ ?_
  have hvoted : (ss.state.governance.proposals id).votes a ≠ .none := by
    rcases hchoice with hyes | hno
    · simp [hyes]
    · simp [hno]
  have hbacked := hs.backed hopen a hvoted
  exact (Nat.le_add_right _ _).trans hbacked

/-- In every run from an accepted deployment in which governance keeps the lockups above the
periods: when the voting period stands and nobody is slashed once the proposal is submitted,
and no voter is removed from a provider, the votes on the proposal never outweigh what is
staked while its window lasts. -/
theorem votes_le_totalStaked {p : Deployment} {start : Session System} {es : List Event}
    (hp : deploy w p = .ok start)
    (hes : Along (step w)
      (fun ss e ↦ KeepsPeriods w ss e ∧ StaysSteady w id ss e ∧ KeepsVoters w id ss e) start es)
    (hid : (replay (step w) start es).state.governance.Submitted id)
    (hopen : (replay (step w) start es).now
      ≤ (replay (step w) start es).state.governance.lastVotingBlock id) :
    ((replay (step w) start es).state.governance.proposals id).voteMagnitudeYes
        + ((replay (step w) start es).state.governance.proposals id).voteMagnitudeNo
      ≤ (replay (step w) start es).state.staking.totalStaked := by
  let I (ss : Session System) : Prop := ss.state.governance.Counted ∧
    Wired w ss.state.governance ∧
    LockupsExceed ss.state
      (ss.state.governance.votingPeriod + ss.state.governance.executionDelay) ∧
    (ss.state.governance.Submitted id → VotersHold id ss)
  have hstart : I start := by
    have hlockups := (deploy_lockupsOutlast hp).withdrawals
    obtain ⟨-, -, -, -, token, -, rfl⟩ := deploy_eq_ok hp
    refine ⟨⟨fun _ ↦ .of_none (fun _ ↦ rfl) rfl rfl rfl, fun _ _ _ ↦ rfl⟩, ⟨rfl, rfl⟩, hlockups,
      fun hid ↦ absurd (hid.1.trans_le hid.2) (lt_irrefl 0)⟩
  have hrun : I (replay (step w) start es) := replay_invariant I
    (fun ss e ss' hs hkeeps hstep ↦ ⟨step_votesCounted hs.1 hstep, step_wired hs.2.1 hstep,
      step_withdrawals hs.2.2.1 hkeeps.1 hstep,
      step_votersHold hs.1 hs.2.1 hs.2.2.1 hs.2.2.2 hkeeps.2.1 hkeeps.2.2 hstep⟩) hstart hes
  have hreachable : Reachable w (replay (step w) start es) := ⟨p, start, es, hp, rfl⟩
  exact (hrun.2.2.2 hid).votes_le hopen hrun.1 hreachable.accounted

end Runs

namespace Scenario

/-- A proposal of `owner`, on which `owner` and `delegator` vote in the next block. -/
def votedAt (blockNumber : ℕ) : List Event :=
  [at_ blockNumber owner (.governance environment (.submitProposal 1 "act()" [] "name" "text")),
    at_ (blockNumber + 1) owner (.governance environment (.submitVote 1 .yes)),
    at_ (blockNumber + 1) delegator (.governance environment (.submitVote 1 .no))]

/-- A removal asked for long before the proposal and made after the vote. -/
def removedAfterVote : List Event :=
  delegated ++ [at_ 2 owner (.delegation (.requestRemoveDelegator owner delegator))]
    ++ votedAt 46524
    ++ [at_ 46525 owner (.delegation (.removeDelegator owner delegator))]

end Scenario

/-- The event changes a period or a lockup, or slashes. -/
def Event.changesTerms : Event → Bool
  | .call _ (.governance _ (.setVotingPeriod _)) => true
  | .call _ (.governance _ (.setExecutionDelay _)) => true
  | .call _ (.claims (.updateFundingRoundBlockDiff _)) => true
  | .call _ (.providers (.updateDecreaseStakeLockupDuration _)) => true
  | .call _ (.providers (.updateDeployerCutLockupDuration _)) => true
  | .call _ (.delegation (.updateUndelegateLockupDuration _)) => true
  | .call _ (.delegation (.updateRemoveDelegatorLockupDuration _)) => true
  | .call _ (.delegation (.updateRemoveDelegatorEvalDuration _)) => true
  | .call _ (.delegation (.slash ..)) => true
  | _ => false

open Scenario in
/-- A delegator removed after its vote leaves the vote with less stake behind it. -/
theorem votes_exceed_totalStaked : ¬ ∀ es : List Event, es.all (!·.changesTerms) = true →
    ∀ id, (after es).state.governance.Submitted id →
      (after es).now ≤ (after es).state.governance.lastVotingBlock id →
      ((after es).state.governance.proposals id).voteMagnitudeYes
          + ((after es).state.governance.proposals id).voteMagnitudeNo
        ≤ (after es).state.staking.totalStaked := by
  intro h
  have hsubmitted : (after removedAfterVote).state.governance.Submitted 1 :=
    ⟨by decide +kernel, by decide +kernel⟩
  have hle := h removedAfterVote (by decide +kernel) 1 hsubmitted (by decide +kernel)
  exact absurd hle (by decide +kernel)

open Scenario in
theorem votes_le_totalStaked_delegated :
    ((after (delegated ++ votedAt 3)).state.governance.proposals 1).voteMagnitudeYes
        + ((after (delegated ++ votedAt 3)).state.governance.proposals 1).voteMagnitudeNo
      ≤ (after (delegated ++ votedAt 3)).state.staking.totalStaked := by
  have hquiet : ∀ (ss : Session System) (e : Event), e ∈ delegated ++ votedAt 3 →
      KeepsPeriods wiring ss e ∧ StaysSteady wiring 1 ss e ∧ KeepsVoters wiring 1 ss e := by
    intro ss e he
    simp only [delegated, opening, setting, votedAt, at_, List.cons_append, List.nil_append,
      List.mem_cons, List.not_mem_nil, or_false] at he
    rcases he with rfl | rfl | rfl | rfl | rfl | rfl | rfl | rfl | rfl | rfl | rfl <;>
      exact ⟨trivial, fun _ _ ↦ trivial, fun _ _ ↦ trivial⟩
  exact votes_le_totalStaked deploy_start (along_of_forall hquiet)
    ⟨by decide +kernel, by decide +kernel⟩ (by decide +kernel)

end ColivingSpec
