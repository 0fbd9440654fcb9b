import ColivingSpec.Governance.Clearing
import ColivingSpec.Governance.Votes

/-!
# What governance executes

The transaction of a proposal runs once at most, and only from an evaluation that finds the
proposal approved by the votes that were cast on it. Every recorded vote was cast by its voter
within the voting window, and the proposals in progress stay within a maximum that was in force.
-/

namespace ColivingSpec

open Lib

/-- The transaction of the proposal has been executed or is running. -/
def Outcome.Executed (outcome : Outcome) : Prop :=
  outcome = .evaluating ∨ outcome = .approvedExecuted ∨ outcome = .approvedExecutionFailed

instance (outcome : Outcome) : Decidable outcome.Executed :=
  inferInstanceAs (Decidable (_ ∨ _ ∨ _))

namespace GovernanceV2

/-- The proposal is approved when it is evaluated in a block: its periods are over, its target is
the one it was submitted for, and so is the decision of the votes that were cast on it. -/
structure Approved (world : World) (blockNumber : ℕ) (g : GovernanceV2) (id : ℕ) : Prop where
  submitted : g.Submitted id
  inProgress : (g.proposals id).outcome = .inProgress
  ended : (g.proposals id).submissionBlockNumber + g.votingPeriod + g.executionDelay < blockNumber
  target : world.getContract g.registry (g.proposals id).targetContractRegistryKey
    = .ok (g.proposals id).targetContractAddress
  code : world.codeHash (g.proposals id).targetContractAddress = (g.proposals id).contractHash
  quorum : ∃ totalStaked,
    world.totalStakedAt g.stakingAddress (g.proposals id).submissionBlockNumber = .ok totalStaked ∧
      totalStaked ≠ 0 ∧ g.votingQuorumPercent * totalStaked
        ≤ (tally (g.proposals id).votes (g.proposals id).voteMagnitudes .yes
          + tally (g.proposals id).votes (g.proposals id).voteMagnitudes .no) * 100
  majority : tally (g.proposals id).votes (g.proposals id).voteMagnitudes .no
    < tally (g.proposals id).votes (g.proposals id).voteMagnitudes .yes

section Steps

variable {world : World} {self : Address} {msg : Msg} {g g' : GovernanceV2} {p : Proposal}
  {id : ℕ} {a : Action} {frame : Option Frame} {frames : List Frame}

/-- An evaluation closes the proposal without its transaction, or the proposal is approved. -/
theorem openEvaluation_cases {evaluation : Evaluation} (hcounted : Counted g)
    (h : g.openEvaluation world msg id = .ok (g', evaluation)) :
    (∃ outcome : Outcome, evaluation = .close outcome ∧ ¬ outcome.Executed) ∨
      Approved world msg.blockNumber g id := by
  unfold openEvaluation _requireValidProposalId SafeMath.add at h
  obtain ⟨_, -, h⟩ := bind_eq_ok.mp h
  simp only [↓require_bind_eq_ok, ↓add_bind_eq_ok, setOutcome, proposals_setProposal, if_true] at h
  obtain ⟨hvalid, hopen, -, -, hended, h⟩ := h
  obtain ⟨_, h, heq⟩ := bind_eq_ok.mp h
  obtain ⟨rfl, rfl⟩ := heq
  obtain ⟨target, htarget, h⟩ := bind_eq_ok.mp h
  split at h
  · cases h
    exact .inl ⟨_, rfl, by decide⟩
  · next hsame =>
    obtain rfl := not_not.mp hsame
    split at h
    · cases h
      exact .inl ⟨_, rfl, by decide⟩
    · next hcode =>
      obtain ⟨quorumMet, hquorum, h⟩ := bind_eq_ok.mp h
      split at h
      · cases h
        exact .inl ⟨_, rfl, by decide⟩
      · next hmet =>
        split at h
        · next hmajority =>
          rw [Bool.eq_true_of_not_eq_false hmet] at hquorum
          unfold _quorumMet SafeMath.add SafeMath.mul SafeMath.div at hquorum
          simp only [↓add_bind_eq_ok, ↓mul_bind_eq_ok] at hquorum
          obtain ⟨-, -, hquorum⟩ := hquorum
          obtain ⟨totalStaked, htotal, hquorum⟩ := bind_eq_ok.mp hquorum
          simp only [↓div_bind_eq_ok, pure_eq_ok, decide_eq_true_eq] at hquorum
          have hmany := (Nat.le_div_iff_mul_le (Nat.pos_of_ne_zero hquorum.1)).mp hquorum.2
          have htallied := hcounted.tallied id
          refine .inr ⟨⟨hvalid.2, hvalid.1⟩, hopen, hended, htarget, not_not.mp hcode,
            ⟨totalStaked, htotal, hquorum.1, ?_⟩, ?_⟩
          · rw [← htallied.yes, ← htallied.no]
            exact hmany
          · rw [← htallied.yes, ← htallied.no]
            exact hmajority
        · cases h
          exact .inl ⟨_, rfl, by decide⟩

/-- Closing an open proposal leaves what is known of the execution of the others. -/
theorem outcome_close {proposalId : ℕ} {outcome : Outcome}
    (h : (g.setOutcome proposalId outcome)._removeFromInProgressProposals proposalId = .ok g') :
    (g'.proposals id).outcome = if id = proposalId then outcome else (g.proposals id).outcome := by
  rw [(close_eq_ok h).1]
  split <;> rfl

/-- Closing a proposal makes no room for a longer list. -/
theorem length_close {proposalId : ℕ} {outcome : Outcome}
    (h : (g.setOutcome proposalId outcome)._removeFromInProgressProposals proposalId = .ok g') :
    g'.inProgressProposals.length ≤ g.inProgressProposals.length := by
  unfold _removeFromInProgressProposals at h
  split at h
  · cases h
  · cases h
    simp [setOutcome, setProposal]

/-- An evaluation that executes a transaction is of an approved proposal. -/
theorem beginEvaluation_cases {proposalId : ℕ} {returns : Bool} (hcounted : Counted g)
    (h : g.beginEvaluation world msg proposalId returns = .ok (g', frame)) :
    g'.inProgressProposals.length ≤ g.inProgressProposals.length ∧
      (∀ id, id ≠ proposalId → (g'.proposals id).outcome = (g.proposals id).outcome) ∧
      (Approved world msg.blockNumber g proposalId ∨
        ((g'.proposals proposalId).outcome.Executed ↔
          (g.proposals proposalId).outcome.Executed)) := by
  obtain ⟨⟨marked, evaluation⟩, hevaluate, h⟩ := bind_eq_ok.mp h
  obtain ⟨-, hopen, hmarked, -⟩ := openEvaluation_eq_ok hevaluate
  have hcases := openEvaluation_cases hcounted hevaluate
  have hclosed : ∀ {outcome g'}, marked.closeEvaluation proposalId outcome = .ok g' →
      g'.inProgressProposals.length ≤ g.inProgressProposals.length ∧ ∀ id,
        (g'.proposals id).outcome
          = if id = proposalId then outcome else (g.proposals id).outcome := fun hclose ↦ by
    rw [hmarked, closeEvaluation, setOutcome_setOutcome] at hclose
    exact ⟨length_close hclose, fun id ↦ outcome_close hclose⟩
  cases evaluation with
  | close outcome =>
    obtain ⟨g'', hclose, h⟩ := bind_eq_ok.mp h
    cases h
    obtain ⟨hlength, houtcome⟩ := hclosed hclose
    refine ⟨hlength, fun id hne ↦ by rw [houtcome, if_neg hne], hcases.symm.imp_right ?_⟩
    rintro ⟨outcome', heq, hnot⟩
    cases heq
    rw [houtcome, if_pos rfl, hopen]
    exact iff_of_false hnot (by decide)
  | execute t =>
    have happroved : Approved world msg.blockNumber g proposalId :=
      hcases.resolve_left (by rintro ⟨_, heq, -⟩; cases heq)
    cases returns with
    | true =>
      cases h
      subst hmarked
      refine ⟨le_rfl, fun id hne ↦ ?_, .inl happroved⟩
      rw [setOutcome, proposals_setProposal, if_neg hne]
    | false =>
      obtain ⟨g'', hclose, h⟩ := bind_eq_ok.mp h
      cases h
      obtain ⟨hlength, houtcome⟩ := hclosed hclose
      exact ⟨hlength, fun id hne ↦ by rw [houtcome, if_neg hne], .inl happroved⟩

/-- A new proposal is in progress, within the maximum. -/
theorem submitProposal_eq_ok {key : Bytes32} {functionSignature : String} {callData : List UInt8}
    {name description : String} {newId : ℕ}
    (h : g.submitProposal world msg key functionSignature callData name description
      = .ok (g', newId)) :
    g.inProgressProposals.length < g.maxInProgressProposals ∧
      g'.inProgressProposals.length = g.inProgressProposals.length + 1 ∧
      ∀ id, (g'.proposals id).outcome
        = if id = g.lastProposalId + 1 then .inProgress else (g.proposals id).outcome := by
  obtain ⟨_, -, h⟩ := bind_eq_ok.mp h
  obtain ⟨_, -, h⟩ := bind_eq_ok.mp h
  simp only [↓require_bind_eq_ok] at h
  obtain ⟨-, hroom, h⟩ := h
  obtain ⟨_, -, h⟩ := bind_eq_ok.mp h
  simp only [↓require_bind_eq_ok] at h
  obtain ⟨-, h⟩ := h
  obtain ⟨_, -, h⟩ := bind_eq_ok.mp h
  simp only [↓require_bind_eq_ok, ↓add_bind_eq_ok, pure_eq_ok, Prod.mk.injEq] at h
  obtain ⟨-, -, -, -, -, rfl, -⟩ := h
  refine ⟨hroom, List.length_append, fun id ↦ ?_⟩
  rw [proposals_setProposal]
  split <;> rfl

/-- Only a new proposal makes the list longer, within the maximum, and only the evaluation of a
proposal executes it. -/
theorem Action.perform_cases (hg : LifeCycle g frames) (hcounted : Counted g)
    (h : a.perform world self msg g = .ok (g', frame)) :
    (g'.inProgressProposals.length ≤ g.inProgressProposals.length ∨
        g.inProgressProposals.length < g.maxInProgressProposals ∧
          g'.inProgressProposals.length = g.inProgressProposals.length + 1) ∧
      ∀ id, ((∃ returns, a = .evaluateProposalOutcome id returns) ∧
          Approved world msg.blockNumber g id) ∨
        ((g'.proposals id).outcome.Executed ↔ (g.proposals id).outcome.Executed) := by
  have hvoted : ∀ {proposalId id vote weight} {p : Proposal},
      Ballot msg.sender vote weight (g.proposals proposalId) p →
      (((g.setProposal proposalId p).proposals id).outcome.Executed ↔
        (g.proposals id).outcome.Executed) := fun hballot ↦ by
    rw [proposals_setProposal]
    split
    · next heq => rw [hballot.outcome, heq]
    · rfl
  cases a with
  | submitProposal key functionSignature callData name description =>
    obtain ⟨⟨g'', newId⟩, hsubmit, heq⟩ := bind_eq_ok.mp h
    cases heq
    obtain ⟨hroom, hlength, houtcome⟩ := submitProposal_eq_ok hsubmit
    refine ⟨.inr ⟨hroom, hlength⟩, fun id ↦ .inr ?_⟩
    rw [houtcome id]
    split
    · next heq =>
      have hfresh := hg.fresh id fun hvalid ↦ absurd (heq ▸ hvalid.2) (Nat.not_succ_le_self _)
      rw [hfresh]
    · rfl
  | submitVote proposalId vote =>
    obtain ⟨hvote, rfl⟩ := atomic_eq_ok h
    obtain ⟨weight, p, -, -, -, -, hballot, rfl⟩ := submitVote_eq_ok hvote
    exact ⟨.inl le_rfl, fun _ ↦ .inr (hvoted hballot)⟩
  | updateVote proposalId vote =>
    obtain ⟨hvote, rfl⟩ := atomic_eq_ok h
    obtain ⟨p, -, -, -, hballot, rfl⟩ := updateVote_eq_ok hvote
    exact ⟨.inl le_rfl, fun _ ↦ .inr (hvoted hballot)⟩
  | evaluateProposalOutcome proposalId returns =>
    obtain ⟨hlength, hothers, hown⟩ := beginEvaluation_cases hcounted h
    refine ⟨.inl hlength, fun id ↦ ?_⟩
    by_cases hid : id = proposalId
    · subst hid
      exact hown.imp_left fun happroved ↦ ⟨⟨returns, rfl⟩, happroved⟩
    · rw [hothers id hid]
      exact .inr Iff.rfl
  | vetoProposal proposalId =>
    obtain ⟨hveto, rfl⟩ := atomic_eq_ok h
    unfold GovernanceV2.vetoProposal _requireValidProposalId at hveto
    simp only [↓require_bind_eq_ok] at hveto
    obtain ⟨-, -, hopen, hremove⟩ := hveto
    refine ⟨.inl (length_close hremove), fun id ↦ .inr ?_⟩
    rw [outcome_close hremove]
    split
    · next heq => rw [heq, hopen]; decide
    · rfl
  | guardianExecuteTransaction key callValue functionSignature callData =>
    obtain ⟨_, -, heq⟩ := bind_eq_ok.mp h
    cases heq
    exact ⟨.inl le_rfl, fun _ ↦ .inr Iff.rfl⟩
  | transferGuardianship account =>
    obtain ⟨htransfer, rfl⟩ := atomic_eq_ok h
    unfold GovernanceV2.transferGuardianship at htransfer
    simp only [↓require_bind_eq_ok, pure_eq_ok] at htransfer
    obtain ⟨-, rfl⟩ := htransfer
    exact ⟨.inl le_rfl, fun _ ↦ .inr Iff.rfl⟩
  | _ =>
    obtain ⟨hset, rfl⟩ := atomic_eq_ok h
    obtain ⟨-, -, rfl⟩ := configure_eq_ok hset
    exact ⟨.inl le_rfl, fun _ ↦ .inr Iff.rfl⟩

end Steps

section Runs

variable {self : Address} {ss ss' start : Session GovernanceV2} {e : Event} {es : List Event}
  {id : ℕ}

/-- A contract that its initialiser has accepted, between transactions. -/
def Deployed (start : Session GovernanceV2) : Prop :=
  ∃ registry votingPeriod executionDelay votingQuorumPercent maxInProgressProposals guardian,
    initialStorage registry votingPeriod executionDelay votingQuorumPercent
      maxInProgressProposals guardian = .ok start.state ∧ start.frames = []

theorem Deployed.reachable (h : Deployed start) (es : List Event) :
    Reachable self (replay (step self) start es) := by
  obtain ⟨registry, votingPeriod, executionDelay, percent, number, guardian, hg, hframes⟩ := h
  obtain ⟨g, frames, now⟩ := start
  obtain rfl := hframes
  exact ⟨registry, votingPeriod, executionDelay, percent, number, guardian, g, now, es, hg, rfl⟩

theorem Deployed.empty (h : Deployed start) :
    start.state.inProgressProposals = [] ∧ ∀ id, start.state.proposals id = Proposal.empty := by
  obtain ⟨_, _, _, _, _, _, hg, -⟩ := h
  exact (initialStorage_eq_ok hg).2

/-- One step takes the list no further than the maximum, and executes an approved proposal only. -/
theorem step_progress (hs : LifeCycle ss.state ss.frames) (hcounted : Counted ss.state)
    (h : step self ss e = .ok ss') :
    (ss'.state.inProgressProposals.length ≤ ss.state.inProgressProposals.length ∨
        ss'.state.inProgressProposals.length ≤ ss.state.maxInProgressProposals) ∧
      ∀ id, (∃ world msg returns, e = .call world msg (.evaluateProposalOutcome id returns) ∧
          Approved world msg.blockNumber ss.state id) ∨
        ((ss'.state.proposals id).outcome.Executed ↔
          (ss.state.proposals id).outcome.Executed) := by
  unfold step at h
  split at h
  · next world msg a =>
    simp only [↓require_bind_eq_ok, bind_eq_ok, pure_eq_ok] at h
    obtain ⟨-, ⟨g', frame⟩, hperform, rfl⟩ := h
    obtain ⟨hlength, hexecuted⟩ := a.perform_cases hs hcounted hperform
    refine ⟨hlength.imp_right fun h ↦ h.2.trans_le h.1, fun id ↦ ?_⟩
    refine (hexecuted id).imp_left ?_
    rintro ⟨⟨returns, rfl⟩, happroved⟩
    exact ⟨world, msg, returns, rfl, happroved⟩
  · next msg r =>
    simp only [↓require_bind_eq_ok, bind_eq_ok, pure_eq_ok] at h
    obtain ⟨-, g', hperform, rfl⟩ := h
    have hsame := r.perform_sameProposals hperform
    refine ⟨.inl (congrArg List.length hsame.inProgressProposals).le, fun id ↦ .inr ?_⟩
    exact iff_of_eq (congrArg (fun ps ↦ (ps id).outcome.Executed) hsame.proposals)
  · split at h
    · cases h
    · next frame rest hframes =>
      simp only [bind_eq_ok, pure_eq_ok] at h
      obtain ⟨g', hfinish, rfl⟩ := h
      cases frame with
      | proposal proposalId =>
        refine ⟨.inl (length_close hfinish), fun id ↦ .inr ?_⟩
        change (g'.proposals id).outcome.Executed ↔ _
        rw [outcome_close hfinish]
        split
        · next heq =>
          have hrunning : proposalId ∈ running ss.frames := by simp [hframes]
          rw [heq, (hs.evaluating proposalId).mpr hrunning]
          decide
        · rfl
      | guardian =>
        cases hfinish
        exact ⟨.inl le_rfl, fun id ↦ .inr Iff.rfl⟩

/-- A proposal that is executed at the end of a run was executed by one evaluation, which found it
approved; from there on it is executed, so that no other evaluation of it goes through. -/
theorem executed_approved_once (hstart : Deployed start)
    (hexecuted : ((replay (step self) start es).state.proposals id).outcome.Executed) :
    ∃ before world msg returns after,
      es = before ++ .call world msg (.evaluateProposalOutcome id returns) :: after ∧
        Approved world msg.blockNumber (replay (step self) start before).state id ∧
        ∀ fs, ((replay (step self) start (before ++
          .call world msg (.evaluateProposalOutcome id returns) :: fs)).state.proposals
            id).outcome.Executed := by
  let P (ss : Session GovernanceV2) : Prop := (ss.state.proposals id).outcome.Executed
  have hnone : ¬ P start := by
    simp only [P, hstart.empty.2]
    decide
  obtain ⟨before, e, after, ss', rfl, hbefore, hstep, hafter⟩ :=
    exists_step_of_replay hnone hexecuted
  have hreach : Reachable self (replay (step self) start before) := hstart.reachable before
  rcases (step_progress hreach.lifeCycle hreach.counted hstep).2 id with
    ⟨world, msg, returns, rfl, happroved⟩ | hiff
  · refine ⟨before, world, msg, returns, after, rfl, happroved, fun fs ↦ ?_⟩
    rw [replay_append, replay_cons, attempt_of_ok _ hstep]
    let I (ss : Session GovernanceV2) : Prop := Reachable self ss ∧ P ss
    have hrun : I (replay (step self) ss' fs) := by
      refine replay_invariant' I (fun ss e ss'' hs hstep ↦ ⟨hs.1.step hstep, ?_⟩) fs
        ⟨hreach.step hstep, hafter⟩
      rcases (step_progress hs.1.lifeCycle hs.1.counted hstep).2 id with
        ⟨_, _, _, -, happroved⟩ | hiff
      · have hnow : (ss.state.proposals id).outcome.Executed := hs.2
        rw [happroved.inProgress] at hnow
        exact absurd hnow (by decide)
      · exact hiff.mpr hs.2
    exact hrun.2
  · exact absurd (hiff.mp hafter) hbefore

/-- There are never more proposals in progress than a maximum that was in force allows. -/
theorem inProgressProposals_bounded (es : List Event) (hstart : Deployed start) :
    ∃ fs, fs <+: es ∧ (replay (step self) start es).state.inProgressProposals.length
      ≤ (replay (step self) start fs).state.maxInProgressProposals := by
  induction es using List.reverseRecOn with
  | nil =>
    refine ⟨[], List.prefix_rfl, ?_⟩
    simp only [replay_nil, hstart.empty.1]
    exact Nat.zero_le _
  | append_singleton es e ih =>
    obtain ⟨fs, hfs, hle⟩ := ih
    have hlonger : fs <+: es ++ [e] := hfs.trans (List.prefix_append es [e])
    rw [replay_append]
    rcases attempt_cases (step self) (replay (step self) start es) e with hsame | hok
    · exact ⟨fs, hlonger, by rwa [replay_cons, replay_nil, hsame]⟩
    · have hreach : Reachable self (replay (step self) start es) := hstart.reachable es
      rcases (step_progress hreach.lifeCycle hreach.counted hok).1 with hlength | hlength
      · exact ⟨fs, hlonger, hlength.trans hle⟩
      · exact ⟨es, List.prefix_append es [e], hlength⟩

/-- The event is a ballot of the voter for `vote`, within the voting window. -/
def Casts (id : ℕ) (voter : Address) (vote : Vote) (ss : Session GovernanceV2) (e : Event) : Prop :=
  ∃ world msg a, e = .call world msg a ∧ msg.sender = voter ∧
    (a = .submitVote id vote ∨ a = .updateVote id vote) ∧
    ss.state.VotingOpen (ss.state.proposals id) msg.blockNumber

/-- A vote that a step records is cast by its event. -/
theorem step_casts {voter : Address} {vote : Vote} (hs : Counted ss.state) (hvote : vote ≠ .none)
    (hbefore : (ss.state.proposals id).votes voter ≠ vote) (h : step self ss e = .ok ss')
    (hafter : (ss'.state.proposals id).votes voter = vote) : Casts id voter vote ss e := by
  have hstands : ¬ VotesStand id ss.state ss'.state := fun hstand ↦
    hbefore (hstand.votes ▸ hafter)
  obtain ⟨-, hcase⟩ := step_cases h
  rcases hcase with ⟨world, msg, a, frame, rfl, -, heffect, -⟩ | ⟨hsame, -⟩ | ⟨frame, -, hfinish⟩
  · generalize hstate : ss'.state = g' at heffect hafter hstands
    cases heffect with
    | settings hsame _ =>
      rw [hsame.proposals] at hafter
      exact absurd hafter hbefore
    | guardian => exact absurd hafter hbefore
    | submitted houtcome hblock hyes hno hnumber hvotes =>
      simp only [proposals_setProposal] at hafter
      split at hafter
      · rw [hvotes, hs.fresh _ (Nat.lt_succ_self _)] at hafter
        exact absurd hafter.symm hvote
      · exact absurd hafter hbefore
    | @voted proposalId weight vote' p haction hvalid hopen hballot hweight =>
      rw [proposals_setProposal] at hafter
      split at hafter
      · next heq =>
        subst heq
        rw [hballot.votes] at hafter
        by_cases hsender : voter = msg.sender
        · subst hsender
          rw [Function.update_self] at hafter
          subst hafter
          exact ⟨world, msg, a, rfl, rfl, haction, hopen⟩
        · rw [Function.update_of_ne hsender] at hafter
          exact absurd hafter hbefore
      · exact absurd hafter hbefore
    | closed hvalid hopen hfinal hremove =>
      exact absurd (.of_outcome (close_eq_ok hremove).1 id) hstands
    | opened hvalid hopen => exact absurd (.of_outcome (proposals_setProposal _ _ _) id) hstands
  · rw [hsame.proposals] at hafter
    exact absurd hafter hbefore
  · exact absurd (finish_votesStand hfinish id).1 hstands

/-- A vote that is recorded at the end of a run was cast in the run by its voter, within the
voting window, by a call that went through. -/
theorem recorded_vote_cast {voter : Address} {vote : Vote} (hstart : Deployed start)
    (hvote : vote ≠ .none)
    (hrecorded : ((replay (step self) start es).state.proposals id).votes voter = vote) :
    ∃ before e after, es = before ++ e :: after ∧
      Casts id voter vote (replay (step self) start before) e ∧
      Succeeds (step self (replay (step self) start before) e) := by
  let P (ss : Session GovernanceV2) : Prop := (ss.state.proposals id).votes voter = vote
  have hnone : ¬ P start := by
    simp only [P, hstart.empty.2]
    exact hvote.symm
  obtain ⟨before, e, after, ss', heq, hbefore, hstep, hafter⟩ :=
    exists_step_of_replay hnone hrecorded
  exact ⟨before, e, after, heq,
    step_casts (hstart.reachable before).counted hvote hbefore hstep hafter, ss', hstep⟩

end Runs

open Scenario in
/-- A proposal that is approved, evaluated and executed. -/
def Scenario.carried : List Event := proposed ++
  [at_ 2 alice (.submitVote 1 .yes), at_ 20 bob (.evaluateProposalOutcome 1 true), .returned]

theorem Scenario.deployed : Deployed ⟨contract, [], 1⟩ :=
  ⟨50, 10, 5, 10, 20, guardian, initialStorage_contract, rfl⟩

open Scenario in
theorem executed_approved_once_carried : ∃ before world msg returns after,
    carried = before ++ .call world msg (.evaluateProposalOutcome 1 returns) :: after ∧
      Approved world msg.blockNumber (Scenario.after before).state 1 ∧ ∀ fs,
        ((Scenario.after (before ++ .call world msg (.evaluateProposalOutcome 1 returns)
          :: fs)).state.proposals 1).outcome.Executed :=
  executed_approved_once deployed (by decide +kernel)

open Scenario in
theorem inProgressProposals_bounded_carried : ∃ fs, fs <+: carried ∧
    (Scenario.after carried).state.inProgressProposals.length
      ≤ (Scenario.after fs).state.maxInProgressProposals :=
  inProgressProposals_bounded carried deployed

open Scenario in
theorem recorded_vote_cast_carried : ∃ before e after, carried = before ++ e :: after ∧
    Casts 1 alice .yes (Scenario.after before) e ∧ Succeeds (step self (Scenario.after before) e) :=
  recorded_vote_cast deployed (by decide) (by decide +kernel)

end GovernanceV2

end ColivingSpec
