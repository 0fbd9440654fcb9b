import ColivingSpec.Governance.Machine
import ColivingSpec.Lib.SlotDelete

/-!
# What governance actions do to the proposals

An action that goes through leaves the proposals alone, enters one, takes a ballot on
one, or changes the outcome of one. `Effect` is that list; invariants of the proposals
are shown for each of its cases, and for the return of a transaction.
-/

namespace ColivingSpec

open Lib

namespace GovernanceV2

/-- An id that was given to a proposal. -/
def Submitted (g : GovernanceV2) (proposalId : ℕ) : Prop :=
  0 < proposalId ∧ proposalId ≤ g.lastProposalId

/-- The block lies in the voting window of `p`. -/
def VotingOpen (g : GovernanceV2) (p : Proposal) (blockNumber : ℕ) : Prop :=
  p.submissionBlockNumber < blockNumber ∧ blockNumber ≤ p.submissionBlockNumber + g.votingPeriod

/-- A first or a changed vote of `voter`. A changed vote keeps its weight. -/
structure Ballot (voter : Address) (vote : Vote) (weight : ℕ) (p p' : Proposal) : Prop where
  chosen : vote ≠ .none
  votes : p'.votes = Function.update p.votes voter vote
  voteMagnitudes : p'.voteMagnitudes = Function.update p.voteMagnitudes voter weight
  keeps : p.votes voter ≠ .none → weight = p.voteMagnitudes voter
  yes : p'.voteMagnitudeYes + (if p.votes voter = .yes then p.voteMagnitudes voter else 0)
    = p.voteMagnitudeYes + (if vote = .yes then weight else 0)
  no : p'.voteMagnitudeNo + (if p.votes voter = .no then p.voteMagnitudes voter else 0)
    = p.voteMagnitudeNo + (if vote = .no then weight else 0)
  numVotes : p'.numVotes + (if p.votes voter = .none then 0 else 1) = p.numVotes + 1
  outcome : p'.outcome = p.outcome
  submissionBlockNumber : p'.submissionBlockNumber = p.submissionBlockNumber

/-- The proposals stand. -/
structure SameProposals (g g' : GovernanceV2) : Prop where
  proposals : g'.proposals = g.proposals
  lastProposalId : g'.lastProposalId = g.lastProposalId
  inProgressProposals : g'.inProgressProposals = g.inProgressProposals

/-- The periods are those before or those the action sets, the staking addresses stand. -/
structure Configured (a : Action) (g g' : GovernanceV2) : Prop where
  votingPeriod : g'.votingPeriod = g.votingPeriod ∨ a = .setVotingPeriod g'.votingPeriod
  executionDelay : g'.executionDelay = g.executionDelay ∨ a = .setExecutionDelay g'.executionDelay
  stakingAddress : g'.stakingAddress = g.stakingAddress
  serviceProviderFactoryAddress :
    g'.serviceProviderFactoryAddress = g.serviceProviderFactoryAddress
  delegateManagerAddress : g'.delegateManagerAddress = g.delegateManagerAddress

/-- What an action that goes through leaves, with the frame it opens. -/
inductive Effect (world : World) (msg : Msg) (g : GovernanceV2) (a : Action) :
    GovernanceV2 → Option Frame → Prop where
  | settings {g' : GovernanceV2} (hsame : SameProposals g g') (hconfigured : Configured a g g') :
      Effect world msg g a g' none
  | guardian : Effect world msg g a g (some .guardian)
  | submitted {p : Proposal} (houtcome : p.outcome = .inProgress)
      (hblock : p.submissionBlockNumber = msg.blockNumber)
      (hyes : p.voteMagnitudeYes = 0) (hno : p.voteMagnitudeNo = 0) (hnumber : p.numVotes = 0)
      (hvotes : p.votes = (g.proposals (g.lastProposalId + 1)).votes) :
      Effect world msg g a
        { g.setProposal (g.lastProposalId + 1) p with
          inProgressProposals := g.inProgressProposals ++ [g.lastProposalId + 1]
          lastProposalId := g.lastProposalId + 1 } none
  | voted {proposalId weight : ℕ} {vote : Vote} {p : Proposal}
      (haction : a = .submitVote proposalId vote ∨ a = .updateVote proposalId vote)
      (hvalid : g.Submitted proposalId)
      (hopen : g.VotingOpen (g.proposals proposalId) msg.blockNumber)
      (hballot : Ballot msg.sender vote weight (g.proposals proposalId) p)
      (hweight : (g.proposals proposalId).votes msg.sender = .none →
        g._calculateAddressActiveStake world msg.sender = .ok weight) :
      Effect world msg g a (g.setProposal proposalId p) none
  | closed {proposalId : ℕ} {outcome : Outcome} {g' : GovernanceV2}
      (hvalid : g.Submitted proposalId) (hopen : (g.proposals proposalId).outcome = .inProgress)
      (hfinal : outcome ≠ .inProgress ∧ outcome ≠ .evaluating)
      (hremove : (g.setOutcome proposalId outcome)._removeFromInProgressProposals proposalId
        = .ok g') : Effect world msg g a g' none
  | opened {proposalId : ℕ} (hvalid : g.Submitted proposalId)
      (hopen : (g.proposals proposalId).outcome = .inProgress) :
      Effect world msg g a (g.setOutcome proposalId .evaluating) (some (.proposal proposalId))

section Inversion

variable {world : World} {self : Address} {msg : Msg} {g g' : GovernanceV2} {p : Proposal}
  {vote : Vote} {proposalId : ℕ} {a : Action} {frame : Option Frame} {ss : Session GovernanceV2}

theorem requireVotingOpen_eq_ok {u : Unit} (h : g.requireVotingOpen msg p = .ok u) :
    g.VotingOpen p msg.blockNumber := by
  unfold requireVotingOpen SafeMath.add at h
  simp only [↓add_bind_eq_ok, require_eq_ok] at h
  exact h.2

theorem _increaseVoteMagnitude_eq_ok {weight : ℕ} {p' : Proposal} (hvote : vote = .yes ∨ vote = .no)
    (h : _increaseVoteMagnitude vote weight p = .ok p') :
    p' = { p with
      voteMagnitudeYes := p.voteMagnitudeYes + (if vote = .yes then weight else 0)
      voteMagnitudeNo := p.voteMagnitudeNo + (if vote = .no then weight else 0) } := by
  unfold _increaseVoteMagnitude SafeMath.add at h
  rcases hvote with rfl | rfl
  · simp only [if_true, ↓add_bind_eq_ok, pure_eq_ok] at h
    obtain ⟨-, rfl⟩ := h
    simp
  · simp only [reduceCtorEq, if_false, ↓add_bind_eq_ok, pure_eq_ok] at h
    obtain ⟨-, rfl⟩ := h
    simp

theorem _decreaseVoteMagnitude_eq_ok {weight : ℕ} {p' : Proposal} (hvote : vote ≠ .none)
    (h : _decreaseVoteMagnitude vote weight p = .ok p') :
    (vote = .yes → weight ≤ p.voteMagnitudeYes) ∧ (vote = .no → weight ≤ p.voteMagnitudeNo) ∧
      p' = { p with
        voteMagnitudeYes := p.voteMagnitudeYes - (if vote = .yes then weight else 0)
        voteMagnitudeNo := p.voteMagnitudeNo - (if vote = .no then weight else 0) } := by
  unfold _decreaseVoteMagnitude SafeMath.sub at h
  cases vote with
  | none => exact absurd rfl hvote
  | yes =>
    simp only [if_true, ↓sub_bind_eq_ok, pure_eq_ok] at h
    obtain ⟨hle, rfl⟩ := h
    simp [hle]
  | no =>
    simp only [reduceCtorEq, if_false, ↓sub_bind_eq_ok, pure_eq_ok] at h
    obtain ⟨hle, rfl⟩ := h
    simp [hle]

/-- A first vote weighs the active stake of the voter. -/
theorem submitVote_eq_ok (h : g.submitVote world msg proposalId vote = .ok g') :
    ∃ weight p, g.Submitted proposalId ∧
      g.VotingOpen (g.proposals proposalId) msg.blockNumber ∧
      (g.proposals proposalId).votes msg.sender = .none ∧
      g._calculateAddressActiveStake world msg.sender = .ok weight ∧
      Ballot msg.sender vote weight (g.proposals proposalId) p ∧
      g' = g.setProposal proposalId p := by
  obtain ⟨_, -, h⟩ := bind_eq_ok.mp h
  unfold _requireValidProposalId at h
  simp only [↓require_bind_eq_ok] at h
  obtain ⟨hvalid, h⟩ := h
  obtain ⟨_, hopen, h⟩ := bind_eq_ok.mp h
  obtain ⟨weight, hweight, h⟩ := bind_eq_ok.mp h
  simp only [↓require_bind_eq_ok] at h
  obtain ⟨-, hfirst, hvote, h⟩ := h
  obtain ⟨p, hincrease, h⟩ := bind_eq_ok.mp h
  simp only [↓add_bind_eq_ok, pure_eq_ok] at h
  obtain ⟨-, rfl⟩ := h
  obtain rfl := _increaseVoteMagnitude_eq_ok hvote hincrease
  refine ⟨weight, _, ⟨hvalid.2, hvalid.1⟩, requireVotingOpen_eq_ok hopen, hfirst, hweight, ?_, rfl⟩
  refine ⟨?_, rfl, rfl, fun hne ↦ absurd hfirst hne, ?_, ?_, ?_, rfl, rfl⟩
  · rcases hvote with rfl | rfl <;> simp
  · simp [hfirst]
  · simp [hfirst]
  · simp [hfirst]

/-- A changed vote moves its weight from one side to the other. -/
theorem updateVote_eq_ok (h : g.updateVote msg proposalId vote = .ok g') :
    ∃ p, g.Submitted proposalId ∧ g.VotingOpen (g.proposals proposalId) msg.blockNumber ∧
      (g.proposals proposalId).votes msg.sender ≠ .none ∧
      Ballot msg.sender vote ((g.proposals proposalId).voteMagnitudes msg.sender)
        (g.proposals proposalId) p ∧
      g' = g.setProposal proposalId p := by
  obtain ⟨_, -, h⟩ := bind_eq_ok.mp h
  unfold _requireValidProposalId at h
  simp only [↓require_bind_eq_ok] at h
  obtain ⟨hvalid, h⟩ := h
  obtain ⟨_, hopen, h⟩ := bind_eq_ok.mp h
  simp only [↓require_bind_eq_ok] at h
  obtain ⟨hprevious, hvote, h⟩ := h
  obtain ⟨p, hswitch, h⟩ := bind_eq_ok.mp h
  simp only [pure_eq_ok] at h
  subst h
  refine ⟨p, ⟨hvalid.2, hvalid.1⟩, requireVotingOpen_eq_ok hopen, hprevious, ?_, rfl⟩
  have hchosen : vote ≠ .none := by rcases hvote with rfl | rfl <;> simp
  unfold switchVote at hswitch
  split at hswitch
  · next hsame =>
    cases hswitch
    refine ⟨hchosen, rfl, (Function.update_eq_self _ _).symm, fun _ ↦ rfl, ?_, ?_, ?_, rfl, rfl⟩
    · simp [hsame]
    · simp [hsame]
    · simp [hprevious]
  · next hother =>
    obtain ⟨mid, hdecrease, hincrease⟩ := bind_eq_ok.mp hswitch
    obtain ⟨hyes, hno, rfl⟩ := _decreaseVoteMagnitude_eq_ok hprevious hdecrease
    obtain rfl := _increaseVoteMagnitude_eq_ok hvote hincrease
    simp only at hyes hno
    refine ⟨hchosen, rfl, (Function.update_eq_self _ _).symm, fun _ ↦ rfl, ?_, ?_, ?_, rfl, rfl⟩
    · dsimp only
      split
      · next heq =>
        have hle := hyes heq
        omega
      · omega
    · dsimp only
      split
      · next heq =>
        have hle := hno heq
        omega
      · omega
    · simp [hprevious]

/-- A new proposal starts without votes counted, in the next slot. -/
theorem submitProposal_effect {key : Bytes32} {functionSignature : String} {callData : List UInt8}
    {name description : String} {id : ℕ}
    (h : g.submitProposal world msg key functionSignature callData name description
      = .ok (g', id)) : Effect world msg g a g' none := by
  obtain ⟨_, -, h⟩ := bind_eq_ok.mp h
  obtain ⟨_, -, h⟩ := bind_eq_ok.mp h
  simp only [↓require_bind_eq_ok] at h
  obtain ⟨-, -, h⟩ := h
  obtain ⟨_, -, h⟩ := bind_eq_ok.mp h
  simp only [↓require_bind_eq_ok] at h
  obtain ⟨-, h⟩ := h
  obtain ⟨_, -, h⟩ := bind_eq_ok.mp h
  simp only [↓require_bind_eq_ok, ↓add_bind_eq_ok, pure_eq_ok, Prod.mk.injEq] at h
  obtain ⟨-, -, -, -, -, rfl, -⟩ := h
  exact .submitted rfl rfl rfl rfl rfl rfl

/-- Evaluation before the external call marks an open proposal. -/
theorem openEvaluation_eq_ok {evaluation : Evaluation}
    (h : g.openEvaluation world msg proposalId = .ok (g', evaluation)) :
    g.Submitted proposalId ∧ (g.proposals proposalId).outcome = .inProgress ∧
      g' = g.setOutcome proposalId .evaluating ∧
      ∀ outcome, evaluation = .close outcome → outcome ≠ .inProgress ∧ outcome ≠ .evaluating := by
  unfold openEvaluation _requireValidProposalId SafeMath.add at h
  obtain ⟨_, -, h⟩ := bind_eq_ok.mp h
  simp only [↓require_bind_eq_ok, ↓add_bind_eq_ok] at h
  obtain ⟨hvalid, hopen, -, -, -, h⟩ := h
  obtain ⟨e, hassess, h⟩ := bind_eq_ok.mp h
  obtain ⟨rfl, rfl⟩ := h
  refine ⟨⟨hvalid.2, hvalid.1⟩, hopen, rfl, ?_⟩
  rintro outcome rfl
  obtain ⟨target, -, hassess⟩ := bind_eq_ok.mp hassess
  split at hassess
  · cases hassess
    decide
  · split at hassess
    · cases hassess
      decide
    · obtain ⟨quorumMet, -, hassess⟩ := bind_eq_ok.mp hassess
      split at hassess
      · cases hassess
        decide
      · split at hassess
        · cases hassess
        · cases hassess
          decide

/-- Marking a proposal before closing it leaves no trace. -/
theorem setOutcome_setOutcome (g : GovernanceV2) (proposalId : ℕ) (outcome outcome' : Outcome) :
    (g.setOutcome proposalId outcome).setOutcome proposalId outcome'
      = g.setOutcome proposalId outcome' := by
  simp [setOutcome, setProposal]

theorem beginEvaluation_effect {returns : Bool}
    (h : g.beginEvaluation world msg proposalId returns = .ok (g', frame)) :
    Effect world msg g a g' frame := by
  obtain ⟨⟨marked, evaluation⟩, hevaluate, h⟩ := bind_eq_ok.mp h
  obtain ⟨hvalid, hopen, rfl, hfinal⟩ := openEvaluation_eq_ok hevaluate
  cases evaluation with
  | close outcome =>
    obtain ⟨g'', hclose, h⟩ := bind_eq_ok.mp h
    cases h
    rw [closeEvaluation, setOutcome_setOutcome] at hclose
    exact .closed hvalid hopen (hfinal outcome rfl) hclose
  | execute transaction =>
    cases returns with
    | true =>
      cases h
      exact .opened hvalid hopen
    | false =>
      obtain ⟨g'', hclose, h⟩ := bind_eq_ok.mp h
      cases h
      rw [closeEvaluation, setOutcome_setOutcome] at hclose
      exact .closed hvalid hopen (by decide) hclose

theorem vetoProposal_effect (h : g.vetoProposal msg proposalId = .ok g') :
    Effect world msg g a g' none := by
  unfold vetoProposal _requireValidProposalId at h
  simp only [↓require_bind_eq_ok] at h
  obtain ⟨hvalid, -, hopen, hremove⟩ := h
  exact .closed ⟨hvalid.2, hvalid.1⟩ hopen (by decide) hremove

theorem atomic_eq_ok {x : Except String GovernanceV2} (h : atomic x = .ok (g', frame)) :
    x = .ok g' ∧ frame = none := by
  obtain ⟨g'', hx, heq⟩ := bind_eq_ok.mp h
  cases heq
  exact ⟨hx, rfl⟩

/-- A setting is changed by governance alone. -/
theorem configure_eq_ok {valid : Prop} [Decidable valid] {reason : String}
    {change : GovernanceV2 → GovernanceV2} (h : configure self msg valid reason change g = .ok g') :
    msg.sender = self ∧ valid ∧ g' = change g := by
  unfold configure at h
  simp only [↓require_bind_eq_ok, pure_eq_ok] at h
  exact ⟨h.1, h.2.1, h.2.2.symm⟩

/-- Every action has one of the effects. -/
theorem Action.perform_effect (h : a.perform world self msg g = .ok (g', frame)) :
    Effect world msg g a g' frame := by
  cases a with
  | submitProposal key functionSignature callData name description =>
    obtain ⟨⟨g'', id⟩, hsubmit, heq⟩ := bind_eq_ok.mp h
    cases heq
    exact submitProposal_effect hsubmit
  | submitVote proposalId vote =>
    obtain ⟨hvote, rfl⟩ := atomic_eq_ok h
    obtain ⟨weight, p, hvalid, hopen, -, hweight, hballot, rfl⟩ := submitVote_eq_ok hvote
    exact .voted (.inl rfl) hvalid hopen hballot fun _ ↦ hweight
  | updateVote proposalId vote =>
    obtain ⟨hvote, rfl⟩ := atomic_eq_ok h
    obtain ⟨p, hvalid, hopen, hprevious, hballot, rfl⟩ := updateVote_eq_ok hvote
    exact .voted (.inr rfl) hvalid hopen hballot fun hnone ↦ absurd hnone hprevious
  | evaluateProposalOutcome proposalId returns => exact beginEvaluation_effect h
  | vetoProposal proposalId =>
    obtain ⟨hveto, rfl⟩ := atomic_eq_ok h
    exact vetoProposal_effect hveto
  | guardianExecuteTransaction key callValue functionSignature callData =>
    obtain ⟨_, -, heq⟩ := bind_eq_ok.mp h
    cases heq
    exact .guardian
  | transferGuardianship account =>
    obtain ⟨htransfer, rfl⟩ := atomic_eq_ok h
    unfold GovernanceV2.transferGuardianship at htransfer
    simp only [↓require_bind_eq_ok, pure_eq_ok] at htransfer
    obtain ⟨-, rfl⟩ := htransfer
    exact .settings ⟨rfl, rfl, rfl⟩ ⟨.inl rfl, .inl rfl, rfl, rfl, rfl⟩
  | setVotingPeriod =>
    obtain ⟨hset, rfl⟩ := atomic_eq_ok h
    obtain ⟨-, -, rfl⟩ := configure_eq_ok hset
    exact .settings ⟨rfl, rfl, rfl⟩ ⟨.inr rfl, .inl rfl, rfl, rfl, rfl⟩
  | setVotingQuorumPercent | setRegistryAddress | setMaxInProgressProposals =>
    obtain ⟨hset, rfl⟩ := atomic_eq_ok h
    obtain ⟨-, -, rfl⟩ := configure_eq_ok hset
    exact .settings ⟨rfl, rfl, rfl⟩ ⟨.inl rfl, .inl rfl, rfl, rfl, rfl⟩
  | setExecutionDelay =>
    obtain ⟨hset, rfl⟩ := atomic_eq_ok h
    obtain ⟨-, -, rfl⟩ := configure_eq_ok hset
    exact .settings ⟨rfl, rfl, rfl⟩ ⟨.inl rfl, .inr rfl, rfl, rfl, rfl⟩

/-- The setters of the staking addresses leave the proposals alone. -/
theorem Rewiring.perform_sameProposals {r : Rewiring} (h : r.perform self msg g = .ok g') :
    SameProposals g g' := by
  cases r with
  | setStakingAddress a =>
    have hset : g.setStakingAddress self msg a = .ok g' := h
    obtain ⟨-, -, rfl⟩ := configure_eq_ok hset
    exact ⟨rfl, rfl, rfl⟩
  | setServiceProviderFactoryAddress a =>
    have hset : g.setServiceProviderFactoryAddress self msg a = .ok g' := h
    obtain ⟨-, -, rfl⟩ := configure_eq_ok hset
    exact ⟨rfl, rfl, rfl⟩
  | setDelegateManagerAddress a =>
    have hset : g.setDelegateManagerAddress self msg a = .ok g' := h
    obtain ⟨-, -, rfl⟩ := configure_eq_ok hset
    exact ⟨rfl, rfl, rfl⟩

/-- An event is an action with its effect, a change of the wiring, or the return of the
innermost transaction. -/
theorem step_cases {ss' : Session GovernanceV2} {e : Event} (h : step self ss e = .ok ss') :
    ss.now ≤ ss'.now ∧
      ((∃ world msg a frame, e = .call world msg a ∧ ss'.now = msg.blockNumber ∧
          Effect world msg ss.state a ss'.state frame ∧ ss'.frames = frame.toList ++ ss.frames) ∨
        (SameProposals ss.state ss'.state ∧ ss'.frames = ss.frames) ∨
        (∃ frame, ss.frames = frame :: ss'.frames ∧ ss.state.finish frame = .ok ss'.state)) := by
  unfold step at h
  split at h
  · next world msg a =>
    simp only [↓require_bind_eq_ok, bind_eq_ok, pure_eq_ok] at h
    obtain ⟨hadmits, ⟨g', frame⟩, hperform, rfl⟩ := h
    exact ⟨hadmits.2.1, .inl ⟨world, msg, a, frame, rfl, rfl, a.perform_effect hperform, rfl⟩⟩
  · next msg r =>
    simp only [↓require_bind_eq_ok, bind_eq_ok, pure_eq_ok] at h
    obtain ⟨hadmits, g', hperform, rfl⟩ := h
    exact ⟨hadmits.2.1, .inr (.inl ⟨r.perform_sameProposals hperform, rfl⟩)⟩
  · split at h
    · cases h
    · next frame rest hframes =>
      simp only [bind_eq_ok, pure_eq_ok] at h
      obtain ⟨g', hfinish, rfl⟩ := h
      exact ⟨le_rfl, .inr (.inr ⟨frame, hframes, hfinish⟩)⟩

/-- What holds of a new contract and is kept by every step holds of every reachable session. -/
theorem Reachable.induction {I : Session GovernanceV2 → Prop}
    (hinit : ∀ registry votingPeriod executionDelay percent number guardian g start,
      initialStorage registry votingPeriod executionDelay percent number guardian = .ok g →
      I ⟨g, [], start⟩) (hstep : ∀ ss e ss', I ss → step self ss e = .ok ss' → I ss')
    (h : Reachable self ss) : I ss := by
  obtain ⟨_, _, _, _, _, _, g, start, es, hg, rfl⟩ := h
  exact replay_invariant' I hstep es (hinit _ _ _ _ _ _ g start hg)

theorem Reachable.replay (h : Reachable self ss) (es : List Event) :
    Reachable self (replay (step self) ss es) := by
  obtain ⟨registry, votingPeriod, executionDelay, percent, number, guardian, g, start, fs, hg,
    rfl⟩ := h
  exact ⟨registry, votingPeriod, executionDelay, percent, number, guardian, g, start, fs ++ es, hg,
    (replay_append _ _ _ _).symm⟩

/-- A new contract has no proposals. -/
theorem initialStorage_eq_ok {registry guardian : Address}
    {votingPeriod executionDelay percent number : ℕ}
    (h : initialStorage registry votingPeriod executionDelay percent number guardian = .ok g) :
    g.lastProposalId = 0 ∧ g.inProgressProposals = [] ∧ ∀ id, g.proposals id = Proposal.empty := by
  unfold initialStorage at h
  simp only [↓require_bind_eq_ok, pure_eq_ok] at h
  obtain ⟨-, -, -, -, -, rfl⟩ := h
  exact ⟨rfl, rfl, fun _ ↦ rfl⟩

/-! ### Proposals after an effect -/

@[simp] theorem proposals_setProposal (g : GovernanceV2) (proposalId : ℕ) (p : Proposal) (id : ℕ) :
    (g.setProposal proposalId p).proposals id
      = if id = proposalId then p else g.proposals id := by
  by_cases hid : id = proposalId
  · simp [setProposal, hid]
  · simp [setProposal, hid]

theorem _removeFromInProgressProposals_eq_ok
    (h : g._removeFromInProgressProposals proposalId = .ok g') :
    ∃ l, g' = { g with inProgressProposals := l } ∧
      (proposalId ∈ g.inProgressProposals → l.Perm (g.inProgressProposals.erase proposalId)) := by
  unfold _removeFromInProgressProposals at h
  split at h
  · cases h
  · next last hlast =>
    cases h
    exact ⟨_, rfl, fun hmem ↦ swapPop_perm hmem hlast⟩

/-- Closing a proposal writes its outcome and erases its id from the list. -/
theorem close_eq_ok {outcome : Outcome}
    (h : (g.setOutcome proposalId outcome)._removeFromInProgressProposals proposalId = .ok g') :
    (∀ id, g'.proposals id
      = if id = proposalId then { g.proposals proposalId with outcome } else g.proposals id) ∧
      g'.lastProposalId = g.lastProposalId ∧
      (proposalId ∈ g.inProgressProposals →
        g'.inProgressProposals.Perm (g.inProgressProposals.erase proposalId)) := by
  obtain ⟨l, rfl, hperm⟩ := _removeFromInProgressProposals_eq_ok h
  exact ⟨fun id ↦ proposals_setProposal g _ _ id, rfl, hperm⟩

/-- What only one proposal differs in is configured alike. -/
theorem configured_close {outcome : Outcome}
    (h : (g.setOutcome proposalId outcome)._removeFromInProgressProposals proposalId = .ok g') :
    Configured a g g' := by
  obtain ⟨l, rfl, -⟩ := _removeFromInProgressProposals_eq_ok h
  exact ⟨.inl rfl, .inl rfl, rfl, rfl, rfl⟩

theorem Effect.configured (h : Effect world msg g a g' frame) :
    Configured a g g' := by
  cases h with
  | settings hsame hconfigured => exact hconfigured
  | closed hvalid hopen hfinal hremove => exact configured_close hremove
  | _ => exact ⟨.inl rfl, .inl rfl, rfl, rfl, rfl⟩

/-- A transaction that returns changes no setting. -/
theorem finish_configured {f : Frame} (h : g.finish f = .ok g') :
    g'.votingPeriod = g.votingPeriod ∧ g'.executionDelay = g.executionDelay ∧
      g'.stakingAddress = g.stakingAddress ∧
      g'.serviceProviderFactoryAddress = g.serviceProviderFactoryAddress ∧
      g'.delegateManagerAddress = g.delegateManagerAddress := by
  cases f with
  | proposal proposalId =>
    obtain ⟨l, rfl, -⟩ := _removeFromInProgressProposals_eq_ok h
    exact ⟨rfl, rfl, rfl, rfl, rfl⟩
  | guardian =>
    cases h
    exact ⟨rfl, rfl, rfl, rfl, rfl⟩

end Inversion

end GovernanceV2

end ColivingSpec
