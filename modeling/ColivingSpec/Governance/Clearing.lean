import Mathlib.Data.Finset.Card
import ColivingSpec.Governance.LifeCycle

/-!
# Clearing stale proposals

A proposal whose voting period and delay have ended keeps others from being submitted
until it is evaluated. Evaluation divides by the stake recorded for the block of
submission, so it completes for proposals submitted while something was staked; the
others stay in the way.
-/

namespace ColivingSpec

open Lib List

namespace GovernanceV2

/-- `GovernanceV2.sol:505`. -/
def endBlockNumber (g : GovernanceV2) (id : ℕ) : ℕ :=
  (g.proposals id).submissionBlockNumber + g.votingPeriod + g.executionDelay

/-- A proposal in progress whose voting period and delay have ended. -/
structure Stale (g : GovernanceV2) (blockNumber id : ℕ) : Prop where
  submitted : g.Submitted id
  inProgress : (g.proposals id).outcome = .inProgress
  ended : g.endBlockNumber id < blockNumber

/-- The registry answers, and unless the contract or its code changed, there is stake on
record for the block of submission and the votes are in the range of the arithmetic. -/
def Assessable (world : World) (g : GovernanceV2) (p : Proposal) : Prop :=
  ∃ target, world.getContract g.registry p.targetContractRegistryKey = .ok target ∧
    (target = p.targetContractAddress → world.codeHash target = p.contractHash →
      (p.voteMagnitudeYes + p.voteMagnitudeNo) * 100 < uint256Bound ∧
        ∃ total, world.totalStakedAt g.stakingAddress p.submissionBlockNumber = .ok total ∧
          0 < total)

/-- The proposal is closed for good, with the open calls as they were. -/
structure Closed (id : ℕ) (frames : List Frame) (ss : Session GovernanceV2) : Prop where
  frames : ss.frames = frames
  final : (ss.state.proposals id).outcome.Final
  unlisted : id ∉ ss.state.inProgressProposals

/-- The event that evaluates a proposal. -/
def evaluation (world : World) (msg : Msg) (id : ℕ) (returns : Bool) : Event :=
  .call world msg (.evaluateProposalOutcome id returns)

/-- Evaluation goes through: with a transaction that fails, which is then the outcome, and with
one that returns, whatever calls it makes. -/
structure Completes (governance : Address) (world : World) (msg : Msg) (id : ℕ)
    (ss : Session GovernanceV2) : Prop where
  failing : ∃ ss', step governance ss (evaluation world msg id false) = .ok ss' ∧
    Closed id ss.frames ss' ∧
      ∀ transaction, ss.state.assess world (ss.state.proposals id) = .ok (.execute transaction) →
        (ss'.state.proposals id).outcome = .approvedExecutionFailed
  returning : ∃ opened, step governance ss (evaluation world msg id true) = .ok opened ∧
    (Closed id ss.frames opened ∨ opened.frames = .proposal id :: ss.frames ∧
      ∀ inner, (replay (step governance) opened inner).frames = .proposal id :: ss.frames →
        ∃ ss', step governance (replay (step governance) opened inner) .returned = .ok ss' ∧
          Closed id ss.frames ss')

/-- An evaluation as a whole: closed at once, or with the calls of its transaction. -/
inductive Evaluated (governance : Address) (world : World) (msg : Msg) (id : ℕ)
    (ss : Session GovernanceV2) : Session GovernanceV2 → Prop where
  | closed {returns : Bool} {ss' : Session GovernanceV2}
      (hstep : step governance ss (evaluation world msg id returns) = .ok ss')
      (hframes : ss'.frames = ss.frames) : Evaluated governance world msg id ss ss'
  | executed {inner : List Event} {opened ss' : Session GovernanceV2}
      (hstep : step governance ss (evaluation world msg id true) = .ok opened)
      (hframes : (replay (step governance) opened inner).frames = .proposal id :: ss.frames)
      (hreturn : step governance (replay (step governance) opened inner) .returned = .ok ss') :
      Evaluated governance world msg id ss ss'

/-- The deadlines of the listed proposals are in the range of the arithmetic. -/
def DeadlinesFit (g : GovernanceV2) : Prop :=
  ∀ id ∈ g.inProgressProposals, g.endBlockNumber id < uint256Bound

/-- The list can be brought up to date within the block by evaluations of `sender`, whatever the
transactions do, as long as each proposal whose turn comes can be assessed. -/
inductive Clearable (governance sender : Address) (now : ℕ) : Session GovernanceV2 → Prop where
  | upToDate {ss : Session GovernanceV2}
      (h : ss.state.inProgressProposalsAreUpToDate now = .ok true) :
      Clearable governance sender now ss
  | evaluate {ss : Session GovernanceV2} {id : ℕ} (hstale : ss.state.Stale now id)
      (hcompletes : ∀ world, Assessable world ss.state (ss.state.proposals id) →
        Completes governance world ⟨sender, now⟩ id ss)
      (hnext : ∀ world ss', Assessable world ss.state (ss.state.proposals id) →
        Evaluated governance world ⟨sender, now⟩ id ss ss' → ss'.state.DeadlinesFit →
          Clearable governance sender now ss') : Clearable governance sender now ss

section Assessing

variable {world : World} {msg : Msg} {g : GovernanceV2} {id : ℕ}

theorem _quorumMet_succeeds {p : Proposal} :
    Succeeds (g._quorumMet world p) ↔
      (p.voteMagnitudeYes + p.voteMagnitudeNo) * 100 < uint256Bound ∧
        ∃ total, world.totalStakedAt g.stakingAddress p.submissionBlockNumber = .ok total ∧
          0 < total := by
  unfold Succeeds _quorumMet SafeMath.add SafeMath.mul SafeMath.div
  simp only [↓add_bind_eq_ok, ↓mul_bind_eq_ok, ↓div_bind_eq_ok, bind_eq_ok, pure_eq_ok]
  constructor
  · rintro ⟨met, -, hscaled, total, htotal, hnonzero, -⟩
    exact ⟨hscaled, total, htotal, Nat.pos_of_ne_zero hnonzero⟩
  · rintro ⟨hscaled, total, htotal, hpositive⟩
    have hsum : p.voteMagnitudeYes + p.voteMagnitudeNo < uint256Bound := by omega
    exact ⟨_, hsum, hscaled, total, htotal, hpositive.ne', rfl⟩

/-- What stands between a proposal and its outcome. -/
theorem assess_succeeds {p : Proposal} :
    Succeeds (g.assess world p) ↔ Assessable world g p := by
  unfold Succeeds assess Assessable
  simp only [bind_eq_ok]
  constructor
  · rintro ⟨evaluation, target, htarget, h⟩
    refine ⟨target, htarget, fun haddress hcode ↦ ?_⟩
    rw [if_neg (not_not.mpr haddress), if_neg (not_not.mpr hcode)] at h
    obtain ⟨met, hmet, -⟩ := bind_eq_ok.mp h
    exact _quorumMet_succeeds.mp ⟨met, hmet⟩
  · rintro ⟨target, htarget, h⟩
    by_cases haddress : target = p.targetContractAddress
    · by_cases hcode : world.codeHash target = p.contractHash
      · obtain ⟨met, hmet⟩ := _quorumMet_succeeds.mpr (h haddress hcode)
        rw [exists_comm]
        refine ⟨target, ?_⟩
        rw [if_neg (not_not.mpr haddress), if_neg (not_not.mpr hcode), hmet, ok_bind]
        simp only [htarget, true_and]
        split
        · exact ⟨_, rfl⟩
        · split
          · exact ⟨_, rfl⟩
          · exact ⟨_, rfl⟩
      · refine ⟨.close .targetContractCodeHashChanged, target, htarget, ?_⟩
        rw [if_neg (not_not.mpr haddress), if_pos hcode]
        rfl
    · refine ⟨.close .targetContractAddressChanged, target, htarget, ?_⟩
      rw [if_pos haddress]
      rfl

/-- The mark of a running evaluation does not enter the decision. -/
theorem assess_setOutcome (outcome : Outcome) :
    (g.setOutcome id outcome).assess world ((g.setOutcome id outcome).proposals id)
      = g.assess world (g.proposals id) := by
  rw [setOutcome, proposals_setProposal, if_pos rfl]
  rfl

/-- Evaluation begins on a stale proposal just when it can be assessed. -/
theorem openEvaluation_succeeds (haddresses : Succeeds g._requireAddressesAreSet)
    (hblock : msg.blockNumber < uint256Bound) (hstale : g.Stale msg.blockNumber id) :
    Succeeds (g.openEvaluation world msg id) ↔ Assessable world g (g.proposals id) := by
  rw [← assess_succeeds]
  unfold Succeeds openEvaluation _requireValidProposalId SafeMath.add
  obtain ⟨u, haddresses⟩ := haddresses
  have hended := hstale.ended
  have hsubmission : ((g.setOutcome id .evaluating).proposals id).submissionBlockNumber
      = (g.proposals id).submissionBlockNumber := by
    rw [setOutcome, proposals_setProposal, if_pos rfl]
  have hperiod : (g.setOutcome id .evaluating).votingPeriod = g.votingPeriod := rfl
  have hdelay : (g.setOutcome id .evaluating).executionDelay = g.executionDelay := rfl
  simp only [haddresses, ok_bind, ↓require_bind_eq_ok, ↓add_bind_eq_ok, bind_eq_ok, pure_eq_ok,
    assess_setOutcome, hsubmission, hperiod, hdelay]
  unfold endBlockNumber at hended
  constructor
  · rintro ⟨_, _, -, -, -, -, -, e, he, -⟩
    exact ⟨e, he⟩
  · rintro ⟨e, he⟩
    have hvalid := (require_eq_ok _ "Governance: Must provide valid non-zero _proposalId" ()).mpr
      (And.intro hstale.submitted.2 hstale.submitted.1)
    exact ⟨_, (), hvalid, hstale.inProgress, by omega, by omega, hended, e, he, rfl⟩

/-- What evaluation arrives at is what the assessment says. -/
theorem assess_of_openEvaluation {evaluation : Evaluation} {g' : GovernanceV2}
    (h : g.openEvaluation world msg id = .ok (g', evaluation)) :
    g.assess world (g.proposals id) = .ok evaluation := by
  unfold openEvaluation _requireValidProposalId SafeMath.add at h
  obtain ⟨_, -, h⟩ := bind_eq_ok.mp h
  simp only [↓require_bind_eq_ok, ↓add_bind_eq_ok, assess_setOutcome] at h
  obtain ⟨-, -, -, -, -, h⟩ := h
  obtain ⟨e, hassess, h⟩ := bind_eq_ok.mp h
  cases h
  exact hassess

/-- A listed proposal can be taken off the list. -/
theorem closeEvaluation_succeeds (outcome : Outcome) (hlisted : id ∈ g.inProgressProposals) :
    Succeeds (g.closeEvaluation id outcome) := by
  unfold Succeeds closeEvaluation _removeFromInProgressProposals
  have hprogress : (g.setOutcome id outcome).inProgressProposals = g.inProgressProposals := rfl
  simp only [hprogress]
  cases hlast : g.inProgressProposals.getLast? with
  | none =>
    rw [getLast?_eq_none_iff] at hlast
    rw [hlast] at hlisted
    cases hlisted
  | some last => exact ⟨_, rfl⟩

end Assessing

section Addresses

variable {world : World} {self : Address} {msg : Msg} {g g' : GovernanceV2}
  {ss ss' : Session GovernanceV2} {e : Event}

/-- The three staking addresses are set. -/
structure AddressesSet (g : GovernanceV2) : Prop where
  stakingAddress : g.stakingAddress ≠ 0
  serviceProviderFactoryAddress : g.serviceProviderFactoryAddress ≠ 0
  delegateManagerAddress : g.delegateManagerAddress ≠ 0

theorem _requireAddressesAreSet_succeeds :
    Succeeds g._requireAddressesAreSet ↔ g.AddressesSet := by
  unfold Succeeds _requireAddressesAreSet
  simp only [↓require_bind_eq_ok, require_eq_ok]
  constructor
  · rintro ⟨-, hstaking, hfactory, hmanager⟩
    exact ⟨hstaking, hfactory, hmanager⟩
  · intro h
    exact ⟨(), h.stakingAddress, h.serviceProviderFactoryAddress, h.delegateManagerAddress⟩

/-- Only a submission gives out an id, and it asks for the addresses. -/
theorem Action.perform_lastProposalId {a : Action} {frame : Option Frame}
    (h : a.perform world self msg g = .ok (g', frame)) :
    g'.lastProposalId = g.lastProposalId ∨ g.AddressesSet := by
  cases a with
  | submitProposal key functionSignature callData name description =>
    obtain ⟨⟨g'', id⟩, hsubmit, -⟩ := bind_eq_ok.mp h
    obtain ⟨u, haddresses, -⟩ := bind_eq_ok.mp hsubmit
    exact .inr (_requireAddressesAreSet_succeeds.mp ⟨u, haddresses⟩)
  | submitVote proposalId vote =>
    obtain ⟨hvote, rfl⟩ := atomic_eq_ok h
    obtain ⟨weight, p, -, -, -, -, -, rfl⟩ := submitVote_eq_ok hvote
    exact .inl rfl
  | updateVote proposalId vote =>
    obtain ⟨hvote, rfl⟩ := atomic_eq_ok h
    obtain ⟨p, -, -, -, -, rfl⟩ := updateVote_eq_ok hvote
    exact .inl rfl
  | evaluateProposalOutcome proposalId returns =>
    obtain ⟨⟨marked, evaluation⟩, hopen, h⟩ := bind_eq_ok.mp h
    obtain ⟨-, -, rfl, -⟩ := openEvaluation_eq_ok hopen
    cases evaluation with
    | close outcome =>
      obtain ⟨g'', hclose, h⟩ := bind_eq_ok.mp h
      cases h
      exact .inl (close_eq_ok hclose).2.1
    | execute transaction =>
      cases returns with
      | true =>
        cases h
        exact .inl rfl
      | false =>
        obtain ⟨g'', hclose, h⟩ := bind_eq_ok.mp h
        cases h
        exact .inl (close_eq_ok hclose).2.1
  | vetoProposal proposalId =>
    obtain ⟨hveto, rfl⟩ := atomic_eq_ok h
    unfold GovernanceV2.vetoProposal _requireValidProposalId at hveto
    simp only [↓require_bind_eq_ok] at hveto
    obtain ⟨-, -, -, hremove⟩ := hveto
    exact .inl (close_eq_ok hremove).2.1
  | guardianExecuteTransaction key callValue functionSignature callData =>
    obtain ⟨_, -, heq⟩ := bind_eq_ok.mp h
    cases heq
    exact .inl rfl
  | transferGuardianship account =>
    obtain ⟨htransfer, rfl⟩ := atomic_eq_ok h
    unfold GovernanceV2.transferGuardianship at htransfer
    simp only [↓require_bind_eq_ok, pure_eq_ok] at htransfer
    obtain ⟨-, rfl⟩ := htransfer
    exact .inl rfl
  | _ =>
    obtain ⟨hset, rfl⟩ := atomic_eq_ok h
    obtain ⟨-, -, rfl⟩ := configure_eq_ok hset
    exact .inl rfl

/-- An address setter leaves the addresses set. -/
theorem Rewiring.perform_addressesSet {r : Rewiring} (h : r.perform self msg g = .ok g')
    (hg : g.AddressesSet) : g'.AddressesSet := by
  cases r with
  | setStakingAddress a =>
    have hset : g.setStakingAddress self msg a = .ok g' := h
    obtain ⟨-, hnonzero, rfl⟩ := configure_eq_ok hset
    exact ⟨hnonzero, hg.serviceProviderFactoryAddress, hg.delegateManagerAddress⟩
  | setServiceProviderFactoryAddress a =>
    have hset : g.setServiceProviderFactoryAddress self msg a = .ok g' := h
    obtain ⟨-, hnonzero, rfl⟩ := configure_eq_ok hset
    exact ⟨hg.stakingAddress, hnonzero, hg.delegateManagerAddress⟩
  | setDelegateManagerAddress a =>
    have hset : g.setDelegateManagerAddress self msg a = .ok g' := h
    obtain ⟨-, hnonzero, rfl⟩ := configure_eq_ok hset
    exact ⟨hg.stakingAddress, hg.serviceProviderFactoryAddress, hnonzero⟩

/-- A step keeps set addresses, and enters a first proposal only where they are set. -/
theorem step_addressesSet (hs : 0 < ss.state.lastProposalId → ss.state.AddressesSet)
    (h : step self ss e = .ok ss') : 0 < ss'.state.lastProposalId → ss'.state.AddressesSet := by
  intro hpositive
  unfold step at h
  split at h
  · next world msg a =>
    simp only [↓require_bind_eq_ok, bind_eq_ok, pure_eq_ok] at h
    obtain ⟨-, ⟨g', frame⟩, hperform, rfl⟩ := h
    have hconfigured := a.perform_effect hperform |>.configured
    have hset : ss.state.AddressesSet := by
      rcases a.perform_lastProposalId hperform with hlast | hset
      · exact hs (hlast ▸ hpositive)
      · exact hset
    exact ⟨hconfigured.stakingAddress ▸ hset.stakingAddress,
      hconfigured.serviceProviderFactoryAddress ▸ hset.serviceProviderFactoryAddress,
      hconfigured.delegateManagerAddress ▸ hset.delegateManagerAddress⟩
  · next msg r =>
    simp only [↓require_bind_eq_ok, bind_eq_ok, pure_eq_ok] at h
    obtain ⟨-, g', hperform, rfl⟩ := h
    have hlast := (r.perform_sameProposals hperform).lastProposalId
    exact r.perform_addressesSet hperform (hs (hlast ▸ hpositive))
  · split at h
    · cases h
    · next frame rest hframes =>
      simp only [bind_eq_ok, pure_eq_ok] at h
      obtain ⟨g', hfinish, rfl⟩ := h
      obtain ⟨-, -, hstaking, hfactory, hmanager⟩ := finish_configured hfinish
      have hlast : g'.lastProposalId = ss.state.lastProposalId := by
        cases frame with
        | proposal proposalId => exact (close_eq_ok hfinish).2.1
        | guardian =>
          cases hfinish
          rfl
      have hset := hs (hlast ▸ hpositive)
      exact ⟨hstaking ▸ hset.stakingAddress, hfactory ▸ hset.serviceProviderFactoryAddress,
        hmanager ▸ hset.delegateManagerAddress⟩

/-- Where a proposal was submitted, the addresses are set. -/
theorem Reachable.addressesSet (h : Reachable self ss) :
    0 < ss.state.lastProposalId → ss.state.AddressesSet := by
  refine h.induction (I := fun ss ↦ 0 < ss.state.lastProposalId → ss.state.AddressesSet)
    (fun _ _ _ _ _ _ g _ hg hpositive ↦ ?_) fun _ _ _ hs hstep ↦ step_addressesSet hs hstep
  rw [(initialStorage_eq_ok hg).1] at hpositive
  exact absurd hpositive (lt_irrefl 0)

end Addresses

section Evaluating

variable {world : World} {self : Address} {msg : Msg} {g g' : GovernanceV2} {id : ℕ}
  {frames : List Frame} {outcome : Outcome} {ss opened : Session GovernanceV2}

/-- A proposal that was closed is final and off the list. -/
theorem closed_of_close (rest : List Frame) (now : ℕ) (hg : LifeCycle g frames)
    (hlisted : id ∈ g.inProgressProposals) (hfinal : outcome.Final)
    (hclose : g.closeEvaluation id outcome = .ok g') : Closed id rest ⟨g', rest, now⟩ := by
  obtain ⟨hproposals, -, hperm⟩ := close_eq_ok hclose
  refine ⟨rfl, ?_, ?_⟩
  · dsimp only
    rw [hproposals, if_pos rfl]
    exact hfinal
  · dsimp only
    rw [(hperm hlisted).mem_iff, hg.nodup.mem_erase_iff]
    exact fun h ↦ h.1 rfl

/-- The calls of a transaction leave its proposal to be closed when it returns. -/
theorem returned_closes (hs : LifeCycle ss.state ss.frames)
    (hframes : ss.frames = .proposal id :: frames) :
    ∃ ss', step self ss .returned = .ok ss' ∧ Closed id frames ss' := by
  rw [hframes] at hs
  have hrunning : id ∈ running (.proposal id :: frames) := mem_cons_self
  have hopen : ¬ (ss.state.proposals id).outcome.Final := by
    rw [(hs.evaluating id).mpr hrunning]
    exact not_final_evaluating
  have hlisted := (hs.listed id).mpr ⟨hs.submitted hrunning, hopen⟩
  obtain ⟨g', hclose⟩ := closeEvaluation_succeeds .approvedExecuted hlisted
  refine ⟨⟨g', frames, ss.now⟩, ?_, closed_of_close frames ss.now hs hlisted (by decide) hclose⟩
  unfold step
  simp only [hframes, finish, hclose, ok_bind]
  rfl

/-- An evaluation that can be assessed goes through. -/
theorem completes_of_assessable (hs : LifeCycle ss.state ss.frames)
    (hadmits : ss.Admits (· ≠ self) self msg) (haddresses : ss.state.AddressesSet)
    (hblock : msg.blockNumber < uint256Bound) (hstale : ss.state.Stale msg.blockNumber id)
    (hassess : Assessable world ss.state (ss.state.proposals id)) :
    Completes self world msg id ss := by
  obtain ⟨⟨marked, evaluation⟩, hopen⟩ := (openEvaluation_succeeds
    (_requireAddressesAreSet_succeeds.mpr haddresses) hblock hstale).mpr hassess
  obtain ⟨-, -, hmarked, hfinal⟩ := openEvaluation_eq_ok hopen
  have hmark := hs.mark hstale.submitted hstale.inProgress
  rw [← hmarked] at hmark
  have hlisted : id ∈ marked.inProgressProposals := by
    rw [hmarked]
    exact (hs.listed id).mpr ⟨hstale.submitted, hstale.inProgress ▸ not_final_inProgress⟩
  have hcall : ∀ returns result, ss.state.beginEvaluation world msg id returns = .ok result →
      step self ss (GovernanceV2.evaluation world msg id returns) = .ok (ss.next msg result) := by
    intro returns result hresult
    simp only [GovernanceV2.evaluation, step, require, hadmits, if_true, ok_bind, Action.perform,
      hresult]
    rfl
  cases evaluation with
  | close outcome =>
    obtain ⟨g', hclose⟩ := closeEvaluation_succeeds outcome hlisted
    have hbegin : ∀ returns, ss.state.beginEvaluation world msg id returns = .ok (g', none) := by
      intro returns
      simp only [beginEvaluation, hopen, ok_bind, hclose]
      rfl
    have hclosed := closed_of_close ss.frames msg.blockNumber hmark hlisted (hfinal outcome rfl)
      hclose
    refine ⟨⟨_, hcall false _ (hbegin false), hclosed, fun transaction h ↦ ?_⟩,
      ⟨_, hcall true _ (hbegin true), .inl hclosed⟩⟩
    rw [assess_of_openEvaluation hopen] at h
    cases h
  | execute transaction =>
    obtain ⟨g', hclose⟩ := closeEvaluation_succeeds .approvedExecutionFailed hlisted
    have hbegin : ss.state.beginEvaluation world msg id false = .ok (g', none) := by
      simp only [beginEvaluation, hopen, ok_bind, hclose]
      rfl
    have hexecute : ss.state.beginEvaluation world msg id true
        = .ok (marked, some (.proposal id)) := by
      simp only [beginEvaluation, hopen, ok_bind]
      rfl
    refine ⟨⟨_, hcall false _ hbegin, closed_of_close _ _ hmark hlisted (by decide) hclose,
      fun _ _ ↦ ?_⟩, ⟨_, hcall true _ hexecute, .inr ⟨rfl, fun inner hinner ↦ ?_⟩⟩⟩
    · have houtcome := (close_eq_ok hclose).1 id
      rw [if_pos rfl] at houtcome
      exact congrArg Proposal.outcome houtcome
    · have hopened : LifeCycle (ss.next msg (marked, some (.proposal id))).state
          (ss.next msg (marked, some (.proposal id))).frames := hmark
      refine returned_closes ?_ hinner
      exact replay_invariant' (fun s ↦ LifeCycle s.state s.frames)
        (fun _ _ _ hs hstep ↦ step_lifeCycle hs hstep) inner hopened

/-- An evaluation that goes through was assessed. -/
theorem assessable_of_completes (haddresses : ss.state.AddressesSet)
    (hblock : msg.blockNumber < uint256Bound) (hstale : ss.state.Stale msg.blockNumber id)
    (h : Completes self world msg id ss) : Assessable world ss.state (ss.state.proposals id) := by
  obtain ⟨ss', hstep, -⟩ := h.failing
  unfold evaluation step at hstep
  simp only [↓require_bind_eq_ok, bind_eq_ok, Action.perform] at hstep
  obtain ⟨-, result, hbegin, -⟩ := hstep
  obtain ⟨opened, hopen, -⟩ := bind_eq_ok.mp hbegin
  exact (openEvaluation_succeeds (_requireAddressesAreSet_succeeds.mpr haddresses) hblock
    hstale).mp ⟨opened, hopen⟩

end Evaluating

/-- The listed proposals of earlier blocks. -/
def older (g : GovernanceV2) (now : ℕ) : List ℕ :=
  g.inProgressProposals.filter fun id ↦ (g.proposals id).submissionBlockNumber < now

section Older

variable {world : World} {self : Address} {msg : Msg} {g g' : GovernanceV2} {a : Action}
  {frame : Option Frame} {frames : List Frame} {id now : ℕ} {ss ss' : Session GovernanceV2}
  {e : Event}

theorem mem_older : id ∈ g.older now ↔
    id ∈ g.inProgressProposals ∧ (g.proposals id).submissionBlockNumber < now := by
  simp [older]

/-- Closing a proposal makes none older. -/
theorem older_close {proposalId : ℕ} {outcome : Outcome}
    (hlisted : proposalId ∈ g.inProgressProposals)
    (h : (g.setOutcome proposalId outcome)._removeFromInProgressProposals proposalId = .ok g') :
    g'.older now ⊆ g.older now := by
  obtain ⟨hproposals, -, hperm⟩ := close_eq_ok h
  intro id hid
  rw [mem_older, (hperm hlisted).mem_iff, hproposals] at hid
  rw [mem_older]
  refine ⟨mem_of_mem_erase hid.1, ?_⟩
  have hbefore := hid.2
  split at hbefore
  · next heq =>
    rw [heq]
    exact hbefore
  · exact hbefore

/-- An action makes no proposal of an earlier block. -/
theorem Effect.older_subset (h : Effect world msg g a g' frame) (hg : LifeCycle g frames) :
    g'.older msg.blockNumber ⊆ g.older msg.blockNumber := by
  intro id hid
  cases h with
  | settings hsame _ =>
    rw [mem_older, hsame.inProgressProposals, hsame.proposals] at hid
    exact mem_older.mpr hid
  | guardian => exact hid
  | submitted houtcome hblock =>
    rw [mem_older] at hid ⊢
    rw [proposals_setProposal, mem_append, mem_singleton] at hid
    obtain ⟨hmem, hbefore⟩ := hid
    split at hbefore
    · omega
    · next hne => exact ⟨hmem.resolve_right hne, hbefore⟩
  | voted haction hvalid hopen hballot hweight =>
    rw [mem_older, proposals_setProposal] at hid
    obtain ⟨hmem, hbefore⟩ := hid
    refine mem_older.mpr ⟨hmem, ?_⟩
    split at hbefore
    · next heq =>
      rw [heq, ← hballot.submissionBlockNumber]
      exact hbefore
    · exact hbefore
  | @closed proposalId outcome _ hvalid hopen hfinal hremove =>
    have hlisted := (hg.listed proposalId).mpr ⟨hvalid, hopen ▸ not_final_inProgress⟩
    exact older_close hlisted hremove hid
  | @opened proposalId hvalid hopen =>
    rw [mem_older, setOutcome, proposals_setProposal] at hid
    obtain ⟨hmem, hbefore⟩ := hid
    refine mem_older.mpr ⟨hmem, ?_⟩
    split at hbefore
    · next heq =>
      rw [heq]
      exact hbefore
    · exact hbefore

/-- A running proposal is listed. -/
theorem LifeCycle.listed_running (h : LifeCycle g frames) (hid : id ∈ running frames) :
    id ∈ g.inProgressProposals := by
  refine (h.listed id).mpr ⟨h.submitted hid, ?_⟩
  rw [(h.evaluating id).mpr hid]
  exact not_final_evaluating

theorem step_older (hs : LifeCycle ss.state ss.frames) (h : step self ss e = .ok ss') :
    ss'.state.older ss'.now ⊆ ss.state.older ss'.now := by
  obtain ⟨-, hcase⟩ := step_cases h
  rcases hcase with ⟨world, msg, a, frame, -, hnow, heffect, -⟩ | ⟨hsame, -⟩ |
    ⟨frame, hframes, hfinish⟩
  · rw [hnow]
    exact heffect.older_subset hs
  · intro id hid
    rw [mem_older, hsame.inProgressProposals, hsame.proposals] at hid
    exact mem_older.mpr hid
  · cases frame with
    | proposal proposalId =>
      rw [hframes] at hs
      exact older_close (hs.listed_running mem_cons_self) hfinish
    | guardian =>
      have hstate : ss.state = ss'.state := Except.ok.inj hfinish
      rw [hstate]
      exact Subset.refl _

/-- Within a transaction the block stands. -/
theorem step_now (hframes : ss.frames ≠ []) (h : step self ss e = .ok ss') : ss'.now = ss.now := by
  unfold step at h
  split at h
  · simp only [↓require_bind_eq_ok, bind_eq_ok, pure_eq_ok] at h
    obtain ⟨hadmits, result, -, rfl⟩ := h
    exact hadmits.2.2 hframes
  · simp only [↓require_bind_eq_ok, bind_eq_ok, pure_eq_ok] at h
    obtain ⟨hadmits, result, -, rfl⟩ := h
    exact hadmits.2.2 hframes
  · split at h
    · cases h
    · simp only [bind_eq_ok, pure_eq_ok] at h
      obtain ⟨g', -, rfl⟩ := h
      rfl

/-- A running proposal runs on, unless its transaction returns. -/
theorem step_running (h : step self ss e = .ok ss') (hid : id ∈ running ss.frames) :
    id ∈ running ss'.frames ∨ (ss'.state.proposals id).outcome.Final := by
  obtain ⟨-, hcase⟩ := step_cases h
  rcases hcase with ⟨world, msg, a, frame, -, -, -, hframes⟩ | ⟨-, hframes⟩ |
    ⟨frame, hframes, hfinish⟩
  · rw [hframes, running, filterMap_append]
    exact .inl (mem_append_right _ hid)
  · rw [hframes]
    exact .inl hid
  · rw [hframes] at hid
    cases frame with
    | proposal proposalId =>
      rw [running_proposal, mem_cons] at hid
      rcases hid with rfl | hid
      · rw [(close_eq_ok hfinish).1, if_pos rfl]
        exact .inr ⟨Outcome.noConfusion, Outcome.noConfusion⟩
      · exact .inl hid
    | guardian => exact .inl hid

/-- A closed proposal stays closed. -/
theorem replay_final (hs : LifeCycle ss.state ss.frames)
    (hfinal : (ss.state.proposals id).outcome.Final) (es : List Event) :
    ((replay (step self) ss es).state.proposals id).outcome.Final := by
  let I (s : Session GovernanceV2) : Prop :=
    LifeCycle s.state s.frames ∧ (s.state.proposals id).outcome.Final
  have hrun : I (replay (step self) ss es) := by
    refine replay_invariant' I (fun s e s' hs hstep ↦ ⟨step_lifeCycle hs.1 hstep, ?_⟩) es
      ⟨hs, hfinal⟩
    rw [(step_closed hs.1 hs.2 hstep).1]
    exact hs.2
  exact hrun.2

/-- The calls of a transaction stay in its block and make no proposal older. -/
theorem replay_older {opened : Session GovernanceV2} (hs : LifeCycle opened.state opened.frames)
    (hid : id ∈ running opened.frames) {inner : List Event}
    (hrunning : id ∈ running (replay (step self) opened inner).frames) :
    (replay (step self) opened inner).now = opened.now ∧
      (replay (step self) opened inner).state.older opened.now ⊆ opened.state.older opened.now := by
  let I (s : Session GovernanceV2) : Prop := LifeCycle s.state s.frames ∧
    ((s.state.proposals id).outcome.Final ∨
      id ∈ running s.frames ∧ s.now = opened.now ∧
        s.state.older opened.now ⊆ opened.state.older opened.now)
  have hrun : I (replay (step self) opened inner) := by
    refine replay_invariant' I (fun s e s' hs hstep ↦ ⟨step_lifeCycle hs.1 hstep, ?_⟩) inner
      ⟨hs, .inr ⟨hid, rfl, Subset.refl _⟩⟩
    rcases hs.2 with hfinal | ⟨hmem, hnow, holder⟩
    · left
      rw [(step_closed hs.1 hfinal hstep).1]
      exact hfinal
    · rcases step_running hstep hmem with hnext | hfinal
      · have hsame := step_now (fun hnil ↦ by simp [hnil] at hmem) hstep
        have hshrinks := step_older hs.1 hstep
        rw [hsame, hnow] at hshrinks
        exact .inr ⟨hnext, hsame.trans hnow, Subset.trans hshrinks holder⟩
      · exact .inl hfinal
  rcases hrun.2 with hfinal | ⟨-, hnow, holder⟩
  · rw [(hrun.1.evaluating id).mpr hrunning] at hfinal
    exact absurd hfinal not_final_evaluating
  · exact ⟨hnow, holder⟩

end Older

section Clearing

variable {world : World} {self sender : Address} {msg : Msg} {g : GovernanceV2} {id now : ℕ}
  {ss ss' : Session GovernanceV2}

/-- With deadlines in range the list is up to date or shows a proposal that is not. -/
theorem upToDate_cases (now : ℕ) {l : List ℕ}
    (hfit : ∀ id ∈ l, g.endBlockNumber id < uint256Bound) :
    g.upToDate now l = .ok true ∨ ∃ id ∈ l, g.endBlockNumber id < now := by
  induction l with
  | nil => exact .inl rfl
  | cons id rest ih =>
    by_cases hended : g.endBlockNumber id < now
    · exact .inr ⟨id, mem_cons_self, hended⟩
    · rcases ih fun x hx ↦ hfit x (mem_cons_of_mem _ hx) with hrest | ⟨x, hx, hlate⟩
      · left
        have hdeadline := hfit id mem_cons_self
        unfold endBlockNumber at hdeadline hended
        unfold upToDate SafeMath.add
        simp only [↓add_bind_eq_ok]
        exact ⟨by omega, hdeadline, by rw [if_neg hended, hrest]⟩
      · exact .inr ⟨x, mem_cons_of_mem _ hx, hlate⟩

theorem Reachable.step {e : Event} (h : Reachable self ss) (hstep : step self ss e = .ok ss') :
    Reachable self ss' := by
  have hone := h.replay [e]
  rwa [replay_cons, replay_nil, attempt_of_ok _ hstep] at hone

/-- A proposal that was evaluated between transactions leaves the list, and no other becomes
one of an earlier block. -/
theorem Evaluated.progress (hreach : Reachable self ss) (hframes : ss.frames = [])
    (hcompletes : Completes self world msg id ss) (h : Evaluated self world msg id ss ss') :
    Reachable self ss' ∧ ss'.frames = [] ∧ ss'.now = msg.blockNumber ∧
      ss'.state.older msg.blockNumber ⊆ ss.state.older msg.blockNumber ∧
        id ∉ ss'.state.inProgressProposals := by
  have hnow : ∀ {returns : Bool} {s : Session GovernanceV2},
      GovernanceV2.step self ss (evaluation world msg id returns) = .ok s →
        s.now = msg.blockNumber := by
    intro returns s hstep
    unfold evaluation GovernanceV2.step at hstep
    simp only [↓require_bind_eq_ok, bind_eq_ok, pure_eq_ok] at hstep
    obtain ⟨-, result, -, rfl⟩ := hstep
    rfl
  cases h with
  | @closed returns _ hstep hsame =>
    have hshrinks := step_older hreach.lifeCycle hstep
    rw [hnow hstep] at hshrinks
    refine ⟨hreach.step hstep, hsame.trans hframes, hnow hstep, hshrinks, ?_⟩
    cases returns with
    | false =>
      obtain ⟨s, hs, hclosed, -⟩ := hcompletes.failing
      rw [Except.ok.inj (hstep.symm.trans hs)]
      exact hclosed.unlisted
    | true =>
      obtain ⟨s, hs, hclosed | ⟨hopen, -⟩⟩ := hcompletes.returning
      · rw [Except.ok.inj (hstep.symm.trans hs)]
        exact hclosed.unlisted
      · rw [← Except.ok.inj (hstep.symm.trans hs), hsame] at hopen
        exact absurd hopen.symm (cons_ne_self _ _)
  | @executed inner opened _ hstep hinner hreturn =>
    have hopened := hreach.step hstep
    have hrunning : id ∈ running (replay (GovernanceV2.step self) opened inner).frames := by
      rw [hinner]
      exact mem_cons_self
    have hafter := (hopened.replay inner).lifeCycle
    obtain ⟨s, hs, hcase⟩ := hcompletes.returning
    obtain rfl := Except.ok.inj (hstep.symm.trans hs)
    rcases hcase with hclosed | ⟨hframe, hreturns⟩
    · -- A proposal closed at once is not running later.
      have hfinal : ((replay (GovernanceV2.step self) opened inner).state.proposals
          id).outcome.Final := replay_final hopened.lifeCycle hclosed.final inner
      rw [(hafter.evaluating id).mpr hrunning] at hfinal
      exact absurd hfinal not_final_evaluating
    · obtain ⟨s', hs', hclosed⟩ := hreturns inner hinner
      obtain rfl := Except.ok.inj (hreturn.symm.trans hs')
      have hmem : id ∈ running opened.frames := by
        rw [hframe]
        exact mem_cons_self
      obtain ⟨hsame, holder⟩ := replay_older hopened.lifeCycle hmem hrunning
      rw [hnow hstep] at hsame holder
      have hreturned := step_now (fun hnil ↦ by simp [hnil] at hinner) hreturn
      have hlast := step_older hafter hreturn
      have hfirst := step_older hreach.lifeCycle hstep
      rw [hreturned, hsame] at hlast
      rw [hnow hstep] at hfirst
      exact ⟨(hopened.replay inner).step hreturn, hclosed.frames.trans hframes,
        hreturned.trans hsame, Subset.trans hlast (Subset.trans holder hfirst),
        hclosed.unlisted⟩

/-- Evaluation after evaluation, the list of proposals of earlier blocks gets shorter. -/
theorem clearable (hsender : sender ≠ self) (hblock : now < uint256Bound)
    (hreach : Reachable self ss) (hframes : ss.frames = []) (hnow : ss.now ≤ now)
    (hfit : ss.state.DeadlinesFit) : Clearable self sender now ss := by
  induction hcount : (ss.state.older now).toFinset.card using Nat.strong_induction_on
    generalizing ss with
  | _ count ih =>
  have hcycle := hreach.lifeCycle
  rcases upToDate_cases now hfit with hdate | ⟨id, hlisted, hended⟩
  · exact .upToDate hdate
  · have hopen : (ss.state.proposals id).outcome = .inProgress := by
      have hlist := (inProgressProposals_exact hreach).1 hframes
      exact ((hlist.2 id).mp hlisted).2
    have hstale : ss.state.Stale now id := ⟨((hcycle.listed id).mp hlisted).1, hopen, hended⟩
    have haddresses : ss.state.AddressesSet :=
      hreach.addressesSet (hstale.submitted.1.trans_le hstale.submitted.2)
    have hadmits : ss.Admits (· ≠ self) self ⟨sender, now⟩ :=
      ⟨.inl hsender, hnow, fun hne ↦ absurd hframes hne⟩
    have hcompletes : ∀ world, Assessable world ss.state (ss.state.proposals id) →
        Completes self world ⟨sender, now⟩ id ss := fun world hassess ↦
      completes_of_assessable hcycle hadmits haddresses hblock hstale hassess
    refine .evaluate hstale hcompletes fun world ss' hassess hevaluated hfit' ↦ ?_
    obtain ⟨hreach', hframes', hnow', holder, hunlisted⟩ :=
      hevaluated.progress hreach hframes (hcompletes world hassess)
    have hold : id ∈ ss.state.older now := by
      refine mem_older.mpr ⟨hlisted, ?_⟩
      unfold endBlockNumber at hended
      omega
    have hfewer : (ss'.state.older now).toFinset.card < count := by
      rw [← hcount]
      refine Finset.card_lt_card ⟨fun x hx ↦ ?_, fun hsub ↦ hunlisted ?_⟩
      · exact mem_toFinset.mpr (holder (mem_toFinset.mp hx))
      · exact (mem_older.mp (mem_toFinset.mp (hsub (mem_toFinset.mpr hold)))).1
    exact ih _ hfewer hreach' hframes' hnow'.le hfit' rfl

/-- In every reachable session the evaluation of a stale proposal completes just when it can be
assessed, and as long as that is so, evaluations bring the list up to date. -/
theorem stale_proposals_cleared (h : Reachable self ss) :
    (∀ world msg id, ss.Admits (· ≠ self) self msg → msg.blockNumber < uint256Bound →
      ss.state.Stale msg.blockNumber id →
        (Completes self world msg id ss ↔
          Assessable world ss.state (ss.state.proposals id))) ∧
    ∀ sender now, sender ≠ self → ss.frames = [] → ss.now ≤ now → now < uint256Bound →
      ss.state.DeadlinesFit → Clearable self sender now ss := by
  refine ⟨fun world msg id hadmits hblock hstale ↦ ?_,
    fun sender now hsender hframes hnow hblock hfit ↦ clearable hsender hblock h hframes hnow hfit⟩
  have haddresses : ss.state.AddressesSet :=
    h.addressesSet (hstale.submitted.1.trans_le hstale.submitted.2)
  constructor
  · exact assessable_of_completes haddresses hblock hstale
  · exact completes_of_assessable h.lifeCycle hadmits haddresses hblock hstale

end Clearing

namespace Scenario

/-- The other contracts before anything was staked. -/
def unstaked : World :=
  { world with
    deployerStake := fun _ _ ↦ .ok 0
    pendingDecreaseStake := fun _ _ ↦ .ok 0
    totalStakedAt := fun _ _ ↦ .ok 0 }

/-- The other contracts when the first stakes were made in block 5. -/
def staked : World :=
  { world with totalStakedAt := fun _ blockNumber ↦ .ok (if blockNumber < 5 then 0 else 2000) }

/-- A proposal of the guardian in block 1, before anything was staked. -/
def proposedUnstaked : List Event :=
  proposed.dropLast ++
    [.call unstaked ⟨guardian, 1⟩ (.submitProposal 0 "act" [] "name" "description")]

end Scenario

open Scenario in
theorem stale_proposals_cleared_proposed :
    Completes self world ⟨bob, 20⟩ 1 (after proposed) ∧ Clearable self bob 20 (after proposed) := by
  have h := stale_proposals_cleared (reachable_after proposed)
  refine ⟨(h.1 world ⟨bob, 20⟩ 1 (by decide +kernel) (by decide +kernel)
    ⟨⟨by decide, by decide +kernel⟩, by decide +kernel, by decide +kernel⟩).mpr
      ⟨60, by decide +kernel, fun _ _ ↦ ⟨by decide +kernel, 2000, by decide +kernel, by decide⟩⟩,
    h.2 bob 20 (by decide) (by decide +kernel) (by decide +kernel) (by decide +kernel) ?_⟩
  have hfit : ∀ id ∈ (after proposed).state.inProgressProposals,
      (after proposed).state.endBlockNumber id < uint256Bound := by decide +kernel
  exact hfit

open Scenario in
/-- The proposal made before anything was staked cannot be evaluated afterwards. -/
theorem unstaked_proposal_stays : ¬ ∀ (ss : Session GovernanceV2) (world : World) (msg : Msg)
      (id stake total : ℕ), Reachable self ss → ss.Admits (· ≠ self) self msg →
      ss.state._calculateAddressActiveStake world msg.sender = .ok stake → 0 < stake →
      world.totalStakedAt ss.state.stakingAddress msg.blockNumber = .ok total → 0 < total →
      ss.state.Stale msg.blockNumber id → Completes self world msg id ss := by
  intro h
  have hcompletes := h (after proposedUnstaked) staked ⟨bob, 20⟩ 1 400 2000 (reachable_after _)
    (by decide +kernel) (by decide +kernel) (by decide) (by decide +kernel) (by decide)
    ⟨⟨by decide, by decide +kernel⟩, by decide +kernel, by decide +kernel⟩
  obtain ⟨ss', hstep, -⟩ := hcompletes.failing
  have hreverts : (GovernanceV2.step self (after proposedUnstaked)
      (evaluation staked ⟨bob, 20⟩ 1 false)).isOk = false := by decide +kernel
  rw [hstep] at hreverts
  cases hreverts

end GovernanceV2

end ColivingSpec
