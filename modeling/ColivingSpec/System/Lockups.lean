import ColivingSpec.System.Upkeep

/-!
# Lockups and the periods they outlast

Withdrawals are locked for longer than a proposal takes, and cuts for longer than the time
between rounds. The setters of the lockups check it; the setters of the periods do not.
-/

namespace ColivingSpec

open Lib GovernanceV2

section Lockups

variable [Keccak256] {w : Wiring} {msg : Msg} {s s' : System}

/-- The three lockups of withdrawals exceed `total`. -/
def LockupsExceed (s : System) (total : ℕ) : Prop :=
  total < s.delegateManager.undelegateLockupDuration ∧
    total < s.delegateManager.removeDelegatorLockupDuration ∧
    total < s.spFactory.decreaseStakeLockupDuration

instance (s : System) (total : ℕ) : Decidable (LockupsExceed s total) :=
  inferInstanceAs (Decidable (_ ∧ _ ∧ _))

/-- The lockups outlast the life of a proposal and the time between rounds. -/
structure LockupsOutlast (s : System) : Prop where
  withdrawals : LockupsExceed s (s.governance.votingPeriod + s.governance.executionDelay)
  cuts : s.claimsManager.fundingRoundBlockDiff < s.spFactory.deployerCutLockupDuration

/-- A period that governance sets for proposals stays below the lockups of withdrawals. -/
def KeepsPeriods (w : Wiring) (ss : Session System) : Event → Prop
  | .call msg (.governance _ (.setVotingPeriod votingPeriod)) => msg.sender = w.governance →
    LockupsExceed ss.state (votingPeriod + ss.state.governance.executionDelay)
  | .call msg (.governance _ (.setExecutionDelay executionDelay)) => msg.sender = w.governance →
    LockupsExceed ss.state (ss.state.governance.votingPeriod + executionDelay)
  | _ => True

/-- A time between rounds that governance sets stays below the lockup of cuts. -/
def KeepsRounds (w : Wiring) (ss : Session System) : Event → Prop
  | .call msg (.claims (.updateFundingRoundBlockDiff diff)) => msg.sender = w.governance →
    diff < ss.state.spFactory.deployerCutLockupDuration
  | _ => True

omit [Keccak256] in
/-- A lockup that stands or is set above `total` exceeds `total`. -/
private theorem lt_of_upkeep {total lockup lockup' : ℕ} (h : lockup' = lockup ∨ total < lockup')
    (hlt : total < lockup) : total < lockup' := by
  rcases h with rfl | h
  · exact hlt
  · exact h

/-- A call that sets no period keeps the lockups of withdrawals above the periods. -/
theorem Upkeep.lockupsExceed {c : Call} {frame : Option Frame}
    (hupkeep : Upkeep w msg c s s' frame)
    (h : LockupsExceed s (s.governance.votingPeriod + s.governance.executionDelay)) :
    LockupsExceed s' (s.governance.votingPeriod + s.governance.executionDelay) :=
  ⟨lt_of_upkeep hupkeep.manager.undelegateLockup h.1,
    lt_of_upkeep hupkeep.manager.removeLockup h.2.1,
    lt_of_upkeep hupkeep.factory.decreaseLockup h.2.2⟩

variable {ss ss' : Session System} {e : Event}

/-- The lockups of withdrawals through a step. -/
theorem step_withdrawals
    (hs : LockupsExceed ss.state
      (ss.state.governance.votingPeriod + ss.state.governance.executionDelay))
    (hkeeps : KeepsPeriods w ss e) (h : step w ss e = .ok ss') :
    LockupsExceed ss'.state
      (ss'.state.governance.votingPeriod + ss'.state.governance.executionDelay) := by
  cases e with
  | returned =>
    obtain ⟨frame, rest, g, -, hfinish, rfl⟩ := step_returned_eq_ok h
    obtain ⟨hvoting, hdelay, -⟩ := finish_configured hfinish
    rw [hvoting, hdelay]
    exact hs
  | call msg c =>
    obtain ⟨hadmits, ⟨s', frame⟩, hperform, rfl⟩ := step_call_eq_ok h
    by_cases hc : ∃ environment a, c = .governance environment a
    · obtain ⟨environment, a, rfl⟩ := hc
      obtain ⟨g, haction, rfl⟩ := perform_governance_eq_ok hperform
      have hconfigured := (GovernanceV2.Action.perform_effect haction).configured
      cases a with
      | setVotingPeriod | setExecutionDelay =>
        obtain ⟨hset, -⟩ := atomic_eq_ok haction
        obtain ⟨hsender, -, rfl⟩ := configure_eq_ok hset
        exact hkeeps hsender
      | _ =>
        have hvoting := hconfigured.votingPeriod.resolve_right (by simp)
        have hdelay := hconfigured.executionDelay.resolve_right (by simp)
        dsimp only [Session.next]
        rw [hvoting, hdelay]
        exact hs
    · have hupkeep := Call.perform_upkeep (admits_caller hadmits) hperform
      have hgovernance := (hupkeep.governance fun environment a heq ↦ hc ⟨environment, a, heq⟩).1
      dsimp only [Session.next]
      rw [hgovernance]
      exact hupkeep.lockupsExceed hs

/-- The lockup of cuts through a step. -/
theorem step_cuts
    (hs : ss.state.claimsManager.fundingRoundBlockDiff
      < ss.state.spFactory.deployerCutLockupDuration)
    (hkeeps : KeepsRounds w ss e) (h : step w ss e = .ok ss') :
    ss'.state.claimsManager.fundingRoundBlockDiff
      < ss'.state.spFactory.deployerCutLockupDuration := by
  cases e with
  | returned =>
    obtain ⟨frame, rest, g, -, -, rfl⟩ := step_returned_eq_ok h
    exact hs
  | call msg c =>
    obtain ⟨hadmits, ⟨s', frame⟩, hperform, rfl⟩ := step_call_eq_ok h
    have hupkeep := Call.perform_upkeep (admits_caller hadmits) hperform
    rcases hupkeep.fundingRoundBlockDiff with hdiff | ⟨hsender, hset⟩
    · dsimp only [Session.next]
      rw [hdiff]
      exact lt_of_upkeep hupkeep.factory.cutLockup hs
    · obtain ⟨diff, rfl⟩ : ∃ diff, c = .claims (.updateFundingRoundBlockDiff diff) := ⟨_, hset⟩
      obtain ⟨hcall, -⟩ := settled_eq_ok.mp hperform
      have hconfigure : ClaimsManager.updateFundingRoundBlockDiff w msg diff ss.state
          = .ok s' := hcall
      obtain ⟨-, rfl⟩ := ClaimsManager.configure_eq_ok hconfigure
      exact hkeeps hsender

/-- The lockups the initialisers accept outlast the periods. -/
theorem deploy_lockupsOutlast {p : Deployment} {start : Session System}
    (hp : deploy w p = .ok start) : LockupsOutlast start.state := by
  obtain ⟨hdecrease, hundelegate, hremove, hcut, token, -, rfl⟩ := deploy_eq_ok hp
  exact ⟨⟨hundelegate, hremove, hdecrease⟩, hcut⟩

/-- From any accepted deployment on, the lockups outlast the life of a proposal and the time
between rounds, as long as governance sets no period past a lockup. -/
theorem lockups_outlast {p : Deployment} {start : Session System} {es : List Event}
    (hp : deploy w p = .ok start)
    (hes : Along (step w) (fun ss e ↦ KeepsPeriods w ss e ∧ KeepsRounds w ss e) start es) :
    LockupsOutlast (replay (step w) start es).state := by
  let I (ss : Session System) : Prop := LockupsOutlast ss.state
  have hrun : I (replay (step w) start es) := replay_invariant I
    (fun _ _ _ hs hkeeps hstep ↦
      ⟨step_withdrawals hs.withdrawals hkeeps.1 hstep, step_cuts hs.cuts hkeeps.2 hstep⟩)
    (deploy_lockupsOutlast hp) hes
  exact hrun

end Lockups

open Scenario in
/-- A longer voting period is accepted without a look at the lockups. -/
theorem lockups_outlived : ¬ ∀ ss : Session System, Reachable wiring ss →
    ss.state.governance.votingPeriod + ss.state.governance.executionDelay
      < ss.state.delegateManager.undelegateLockupDuration := by
  intro h
  have hlong := h _ (reachable_after (setting 1 (.governance environment (.setVotingPeriod 1000))))
  exact absurd hlong (by decide +kernel)

open Scenario in
theorem lockups_outlast_setting :
    LockupsOutlast (replay (step wiring) start
      (setting 1 (.governance environment (.setVotingPeriod 8)))).state := by
  refine lockups_outlast deploy_start ⟨⟨trivial, trivial⟩, ⟨fun _ ↦ ?_, trivial⟩,
    ⟨trivial, trivial⟩, trivial⟩
  decide +kernel

end ColivingSpec
