import ColivingSpec.Governance.Effects

/-!
# The life of a proposal

A proposal is open until it is closed for good; while the transaction of an approved
proposal runs it is marked as evaluating, and its evaluation is an open frame. The
invariant ties outcomes, the list of proposals in progress and the open frames together,
so that it also holds in the middle of a transaction that calls back.
-/

namespace ColivingSpec

open Lib List

/-- An outcome that is not to change any more. -/
def Outcome.Final (outcome : Outcome) : Prop := outcome ≠ .inProgress ∧ outcome ≠ .evaluating

instance (outcome : Outcome) : Decidable outcome.Final := inferInstanceAs (Decidable (_ ∧ _))

/-- The proposal whose evaluation the frame is. -/
def Frame.proposalId? : Frame → Option ℕ
  | .proposal proposalId => some proposalId
  | .guardian => none

/-- The proposals whose transactions are running. -/
def running (frames : List Frame) : List ℕ := frames.filterMap Frame.proposalId?

@[simp] theorem running_nil : running [] = [] := rfl

@[simp] theorem running_proposal (proposalId : ℕ) (frames : List Frame) :
    running (.proposal proposalId :: frames) = proposalId :: running frames := rfl

@[simp] theorem running_guardian (frames : List Frame) :
    running (.guardian :: frames) = running frames := rfl

namespace GovernanceV2

/-- Outcomes, list and frames belong together. -/
structure LifeCycle (g : GovernanceV2) (frames : List Frame) : Prop where
  nodup : g.inProgressProposals.Nodup
  listed : ∀ id, id ∈ g.inProgressProposals ↔
    g.Submitted id ∧ ¬ (g.proposals id).outcome.Final
  evaluating : ∀ id, (g.proposals id).outcome = .evaluating ↔ id ∈ running frames
  nested : (running frames).Nodup
  fresh : ∀ id, ¬ g.Submitted id → (g.proposals id).outcome = .inProgress

section Steps

variable {world : World} {msg : Msg} {a : Action} {g g' : GovernanceV2} {frame : Option Frame}
  {frames frames' : List Frame}

theorem not_final_inProgress : ¬ Outcome.Final .inProgress := fun h ↦ h.1 rfl

theorem not_final_evaluating : ¬ Outcome.Final .evaluating := fun h ↦ h.2 rfl

/-- A running proposal was submitted. -/
theorem LifeCycle.submitted (h : LifeCycle g frames) {id : ℕ} (hid : id ∈ running frames) :
    g.Submitted id := by
  by_contra hnot
  have hevaluating := (h.evaluating id).mpr hid
  rw [h.fresh id hnot] at hevaluating
  cases hevaluating

/-- Outcomes, ids and list that stand keep the invariant. -/
theorem LifeCycle.of_outcomes (h : LifeCycle g frames)
    (houtcomes : ∀ id, (g'.proposals id).outcome = (g.proposals id).outcome)
    (hlast : g'.lastProposalId = g.lastProposalId)
    (hprogress : g'.inProgressProposals = g.inProgressProposals) : LifeCycle g' frames where
  nodup := by rw [hprogress]; exact h.nodup
  listed id := by
    unfold Submitted
    rw [hprogress, hlast, houtcomes]
    exact h.listed id
  evaluating id := by rw [houtcomes]; exact h.evaluating id
  nested := h.nested
  fresh id hid := by
    unfold Submitted at hid
    rw [hlast] at hid
    rw [houtcomes]
    exact h.fresh id hid

/-- A final outcome takes a proposal off the list and out of the running ones. -/
theorem LifeCycle.close {proposalId : ℕ} {outcome : Outcome} (h : LifeCycle g frames)
    (hvalid : g.Submitted proposalId) (hopen : ¬ (g.proposals proposalId).outcome.Final)
    (hfinal : outcome.Final)
    (hremove : (g.setOutcome proposalId outcome)._removeFromInProgressProposals proposalId
      = .ok g')
    (hrunning : ∀ id, id ∈ running frames' ↔ id ∈ running frames ∧ id ≠ proposalId)
    (hnested : (running frames').Nodup) : LifeCycle g' frames' := by
  obtain ⟨hproposals, hlast, hperm⟩ := close_eq_ok hremove
  replace hperm := hperm ((h.listed proposalId).mpr ⟨hvalid, hopen⟩)
  have houtcome : ∀ id, (g'.proposals id).outcome
      = if id = proposalId then outcome else (g.proposals id).outcome := fun id ↦ by
    rw [hproposals]
    split <;> rfl
  refine ⟨hperm.nodup_iff.mpr (h.nodup.erase _), fun id ↦ ?_, fun id ↦ ?_, hnested,
    fun id hid ↦ ?_⟩
  · rw [hperm.mem_iff, h.nodup.mem_erase_iff, h.listed, houtcome]
    unfold Submitted
    rw [hlast]
    by_cases hid : id = proposalId
    · simp [hid, hfinal]
    · simp [hid]
  · rw [hrunning, houtcome]
    by_cases hid : id = proposalId
    · simp [hid, hfinal.2]
    · simp [hid, h.evaluating]
  · unfold Submitted at hid
    rw [hlast] at hid
    have hne : id ≠ proposalId := fun heq ↦ hid (heq ▸ hvalid)
    rw [houtcome, if_neg hne]
    exact h.fresh id hid

/-- A proposal that is not running. -/
theorem LifeCycle.notMem_running (h : LifeCycle g frames) {id : ℕ}
    (hopen : (g.proposals id).outcome = .inProgress) : id ∉ running frames := by
  intro hid
  have hevaluating := (h.evaluating id).mpr hid
  rw [hopen] at hevaluating
  cases hevaluating

/-- Marking an open proposal makes it a running one. -/
theorem LifeCycle.mark {proposalId : ℕ} (h : LifeCycle g frames) (hvalid : g.Submitted proposalId)
    (hopen : (g.proposals proposalId).outcome = .inProgress) :
    LifeCycle (g.setOutcome proposalId .evaluating) (.proposal proposalId :: frames) := by
  have houtcome : ∀ id, ((g.setOutcome proposalId .evaluating).proposals id).outcome
      = if id = proposalId then .evaluating else (g.proposals id).outcome := fun id ↦ by
    rw [setOutcome, proposals_setProposal]
    split <;> rfl
  refine ⟨h.nodup, fun id ↦ ?_, fun id ↦ ?_, ?_, fun id hid ↦ ?_⟩
  · rw [houtcome]
    by_cases hid : id = proposalId
    · subst hid
      have hlisted := (h.listed id).mpr ⟨hvalid, hopen ▸ not_final_inProgress⟩
      refine iff_of_true hlisted ⟨hvalid, ?_⟩
      rw [if_pos rfl]
      exact not_final_evaluating
    · rw [if_neg hid]
      exact h.listed id
  · rw [houtcome, running_proposal, mem_cons]
    by_cases hid : id = proposalId
    · simp [hid]
    · simp [hid, h.evaluating]
  · exact nodup_cons.mpr ⟨h.notMem_running hopen, h.nested⟩
  · have hne : id ≠ proposalId := fun heq ↦ hid (heq ▸ hvalid)
    rw [houtcome, if_neg hne]
    exact h.fresh id hid

/-- A new proposal is open and listed last. -/
theorem LifeCycle.submit {p : Proposal} (h : LifeCycle g frames)
    (houtcome : p.outcome = .inProgress) :
    LifeCycle { g.setProposal (g.lastProposalId + 1) p with
      inProgressProposals := g.inProgressProposals ++ [g.lastProposalId + 1]
      lastProposalId := g.lastProposalId + 1 } frames := by
  have hnew : ¬ g.Submitted (g.lastProposalId + 1) := fun hvalid ↦ by
    have hle := hvalid.2
    omega
  have hunlisted : g.lastProposalId + 1 ∉ g.inProgressProposals := fun hmem ↦
    hnew ((h.listed _).mp hmem).1
  have houtcomes : ∀ id, ((g.setProposal (g.lastProposalId + 1) p).proposals id).outcome
      = (g.proposals id).outcome := fun id ↦ by
    rw [proposals_setProposal]
    split
    · next heq => rw [heq, houtcome, h.fresh _ hnew]
    · rfl
  refine ⟨?_, fun id ↦ ?_, fun id ↦ ?_, h.nested, fun id hid ↦ ?_⟩
  · exact (nodup_append.mpr ⟨h.nodup, nodup_singleton _, fun x hx y hy ↦ by
      rw [mem_singleton.mp hy]
      exact fun heq ↦ hunlisted (heq ▸ hx)⟩)
  · dsimp only
    rw [houtcomes, mem_append, mem_singleton, h.listed]
    unfold Submitted
    by_cases hid : id = g.lastProposalId + 1
    · subst hid
      simp [h.fresh _ hnew, not_final_inProgress]
    · have hle : id ≤ g.lastProposalId + 1 ↔ id ≤ g.lastProposalId := by omega
      simp [hid, hle]
  · dsimp only
    rw [houtcomes]
    exact h.evaluating id
  · dsimp only
    rw [houtcomes]
    exact h.fresh id fun hvalid ↦ hid ⟨hvalid.1, Nat.le_succ_of_le hvalid.2⟩

theorem Effect.lifeCycle (h : Effect world msg g a g' frame) (hg : LifeCycle g frames) :
    LifeCycle g' (frame.toList ++ frames) := by
  cases h with
  | settings hsame _ =>
    exact hg.of_outcomes (fun _ ↦ by rw [hsame.proposals]) hsame.lastProposalId
      hsame.inProgressProposals
  | guardian => exact ⟨hg.nodup, hg.listed, hg.evaluating, hg.nested, hg.fresh⟩
  | submitted houtcome => exact hg.submit houtcome
  | @voted proposalId _ _ p haction hvalid hopen hballot hweight =>
    refine hg.of_outcomes (fun id ↦ ?_) rfl rfl
    rw [proposals_setProposal]
    split
    · next heq => rw [heq, hballot.outcome]
    · rfl
  | @closed proposalId outcome _ hvalid hopen hfinal hremove =>
    refine hg.close hvalid (hopen ▸ not_final_inProgress) hfinal hremove (fun id ↦ ?_) hg.nested
    refine (and_iff_left_of_imp ?_).symm
    rintro hid rfl
    exact hg.notMem_running hopen hid
  | opened hvalid hopen => exact hg.mark hvalid hopen

theorem finish_lifeCycle {f : Frame} (h : g.finish f = .ok g') (hg : LifeCycle g (f :: frames)) :
    LifeCycle g' frames := by
  cases f with
  | proposal proposalId =>
    have hmem : proposalId ∈ running (.proposal proposalId :: frames) := mem_cons_self
    have hrunning := (hg.evaluating proposalId).mpr hmem
    have hnested := hg.nested
    rw [running_proposal, nodup_cons] at hnested
    obtain ⟨hnot, hnested⟩ := hnested
    refine hg.close (hg.submitted hmem) (hrunning ▸ not_final_evaluating) (by decide) h
      (fun id ↦ ?_) hnested
    by_cases hid : id = proposalId
    · simp [hid, hnot]
    · simp [hid]
  | guardian =>
    cases h
    exact ⟨hg.nodup, hg.listed, hg.evaluating, hg.nested, hg.fresh⟩

/-- A closed proposal stands, unless the action is a ballot on it within its window. -/
theorem Effect.closed_cases {id : ℕ} (h : Effect world msg g a g' frame) (hg : LifeCycle g frames)
    (hfinal : (g.proposals id).outcome.Final) :
    g'.proposals id = g.proposals id ∨
      (∃ vote, a = .submitVote id vote ∨ a = .updateVote id vote) ∧
        g.VotingOpen (g.proposals id) msg.blockNumber ∧
        (g'.proposals id).outcome = (g.proposals id).outcome := by
  cases h with
  | settings hsame _ => exact .inl (by rw [hsame.proposals])
  | guardian => exact .inl rfl
  | submitted =>
    have hne : id ≠ g.lastProposalId + 1 := by
      rintro rfl
      refine hfinal.1 (hg.fresh _ fun hvalid ↦ ?_)
      have hle := hvalid.2
      omega
    simp only [proposals_setProposal]
    exact .inl (if_neg hne)
  | @voted proposalId _ vote _ haction hvalid hopen hballot hweight =>
    by_cases hid : id = proposalId
    · subst hid
      refine .inr ⟨⟨vote, haction⟩, hopen, ?_⟩
      rw [proposals_setProposal, if_pos rfl, hballot.outcome]
    · rw [proposals_setProposal, if_neg hid]
      exact .inl rfl
  | @closed proposalId outcome _ hvalid hopen hnext hremove =>
    have hne : id ≠ proposalId := by
      rintro rfl
      exact hfinal.1 hopen
    rw [(close_eq_ok hremove).1, if_neg hne]
    exact .inl rfl
  | @opened proposalId hvalid hopen =>
    have hne : id ≠ proposalId := by
      rintro rfl
      exact hfinal.1 hopen
    rw [setOutcome, proposals_setProposal, if_neg hne]
    exact .inl rfl

theorem finish_closed {f : Frame} {id : ℕ} (h : g.finish f = .ok g')
    (hg : LifeCycle g (f :: frames)) (hfinal : (g.proposals id).outcome.Final) :
    g'.proposals id = g.proposals id := by
  cases f with
  | proposal proposalId =>
    have hne : id ≠ proposalId := by
      rintro rfl
      exact hfinal.2 ((hg.evaluating id).mpr mem_cons_self)
    rw [(close_eq_ok h).1, if_neg hne]
  | guardian =>
    cases h
    rfl

end Steps

section Runs

variable {self : Address} {ss ss' : Session GovernanceV2} {e : Event} {id : ℕ}

theorem step_lifeCycle (hs : LifeCycle ss.state ss.frames) (h : step self ss e = .ok ss') :
    LifeCycle ss'.state ss'.frames := by
  obtain ⟨-, hcase⟩ := step_cases h
  rcases hcase with ⟨world, msg, a, frame, -, -, heffect, hframes⟩ | ⟨hsame, hframes⟩ |
    ⟨frame, hframes, hfinish⟩
  · rw [hframes]
    exact heffect.lifeCycle hs
  · rw [hframes]
    exact hs.of_outcomes (fun _ ↦ by rw [hsame.proposals]) hsame.lastProposalId
      hsame.inProgressProposals
  · rw [hframes] at hs
    exact finish_lifeCycle hfinish hs

theorem lifeCycle_initialStorage {g : GovernanceV2} (hlast : g.lastProposalId = 0)
    (hprogress : g.inProgressProposals = []) (hproposals : ∀ id, g.proposals id = Proposal.empty) :
    LifeCycle g [] where
  nodup := by simp [hprogress]
  listed id := by
    rw [hprogress, hproposals]
    refine iff_of_false not_mem_nil fun h ↦ ?_
    have hvalid := h.1
    unfold Submitted at hvalid
    omega
  evaluating id := by simp [hproposals, Proposal.empty]
  nested := by simp
  fresh id _ := by simp [hproposals, Proposal.empty]

theorem Reachable.lifeCycle (h : Reachable self ss) : LifeCycle ss.state ss.frames :=
  h.induction (fun _ _ _ _ _ _ g _ hg ↦ by
    obtain ⟨hlast, hprogress, hproposals⟩ := initialStorage_eq_ok hg
    exact lifeCycle_initialStorage hlast hprogress hproposals)
    fun _ _ _ hs hstep ↦ step_lifeCycle hs hstep

/-- A ballot on the proposal within its window of blocks. -/
def VotesInWindow (id : ℕ) (ss : Session GovernanceV2) (e : Event) : Prop :=
  ∃ world msg a vote, e = .call world msg a ∧ (a = .submitVote id vote ∨ a = .updateVote id vote) ∧
    ss.state.VotingOpen (ss.state.proposals id) msg.blockNumber

/-- What one step leaves of a closed proposal. -/
theorem step_closed (hs : LifeCycle ss.state ss.frames)
    (hfinal : (ss.state.proposals id).outcome.Final) (h : step self ss e = .ok ss') :
    (ss'.state.proposals id).outcome = (ss.state.proposals id).outcome ∧
      (¬ VotesInWindow id ss e → ss'.state.proposals id = ss.state.proposals id) := by
  obtain ⟨-, hcase⟩ := step_cases h
  rcases hcase with ⟨world, msg, a, frame, rfl, -, heffect, -⟩ | ⟨hsame, -⟩ |
    ⟨frame, hframes, hfinish⟩
  · rcases heffect.closed_cases hs hfinal with heq | ⟨⟨vote, haction⟩, hopen, houtcome⟩
    · exact ⟨by rw [heq], fun _ ↦ heq⟩
    · exact ⟨houtcome, fun hno ↦ absurd ⟨world, msg, a, vote, rfl, haction, hopen⟩ hno⟩
  · exact ⟨by rw [hsame.proposals], fun _ ↦ by rw [hsame.proposals]⟩
  · rw [hframes] at hs
    have heq := finish_closed hfinish hs hfinal
    exact ⟨by rw [heq], fun _ ↦ heq⟩

/-- Between transactions the list holds each open proposal once and no other, and in every
reachable session a final outcome stays. -/
theorem inProgressProposals_exact (h : Reachable self ss) :
    (ss.frames = [] → ss.state.inProgressProposals.Nodup ∧
      ∀ id, id ∈ ss.state.inProgressProposals ↔
        (0 < id ∧ id ≤ ss.state.lastProposalId) ∧
          (ss.state.proposals id).outcome = .inProgress) ∧
    ∀ id, (ss.state.proposals id).outcome ≠ .inProgress →
      (ss.state.proposals id).outcome ≠ .evaluating → ∀ es,
        ((replay (step self) ss es).state.proposals id).outcome
          = (ss.state.proposals id).outcome := by
  refine ⟨fun hframes ↦ ⟨h.lifeCycle.nodup, fun id ↦ ?_⟩, fun id hopen hrunning es ↦ ?_⟩
  · rw [h.lifeCycle.listed]
    refine and_congr_right fun _ ↦ ?_
    have hnone : (ss.state.proposals id).outcome ≠ .evaluating := fun heq ↦ by
      simpa [hframes] using (h.lifeCycle.evaluating id).mp heq
    unfold Outcome.Final
    tauto
  · let I (s : Session GovernanceV2) : Prop := LifeCycle s.state s.frames ∧
      (s.state.proposals id).outcome = (ss.state.proposals id).outcome
    have hrun : I (replay (step self) ss es) := replay_invariant' I
      (fun s e s' hs hstep ↦ ⟨step_lifeCycle hs.1 hstep,
        (step_closed hs.1 (hs.2 ▸ ⟨hopen, hrunning⟩) hstep).1.trans hs.2⟩) es ⟨h.lifeCycle, rfl⟩
    exact hrun.2

/-- A proposal with a final outcome does not change at all, as long as nobody votes on it
within its window of blocks. -/
theorem closed_proposal_frozen (h : Reachable self ss)
    (hfinal : (ss.state.proposals id).outcome.Final) {es : List Event}
    (hes : Along (step self) (fun ss e ↦ ¬ VotesInWindow id ss e) ss es) :
    (replay (step self) ss es).state.proposals id = ss.state.proposals id := by
  let I (s : Session GovernanceV2) : Prop := LifeCycle s.state s.frames ∧
    s.state.proposals id = ss.state.proposals id
  have hrun : I (replay (step self) ss es) := replay_invariant I
    (fun s e s' hs hno hstep ↦ ⟨step_lifeCycle hs.1 hstep,
      ((step_closed hs.1 (hs.2 ▸ hfinal) hstep).2 hno).trans hs.2⟩) ⟨h.lifeCycle, rfl⟩ hes
  exact hrun.2

end Runs

open Scenario in
theorem inProgressProposals_exact_proposed :
    (after (proposed ++ [at_ 2 guardian (.vetoProposal 1)])).state.inProgressProposals.Nodup ∧
      ((replay (step self) (after (proposed ++ [at_ 2 guardian (.vetoProposal 1)]))
          [at_ 20 bob (.evaluateProposalOutcome 1 true)]).state.proposals 1).outcome
        = ((after (proposed ++ [at_ 2 guardian (.vetoProposal 1)])).state.proposals 1).outcome :=
  have h := inProgressProposals_exact
    (reachable_after (proposed ++ [at_ 2 guardian (.vetoProposal 1)]))
  ⟨(h.1 (by decide +kernel)).1, h.2 1 (by decide +kernel) (by decide +kernel) _⟩

open Scenario in
/-- A vote on a vetoed proposal, in the rest of its voting window, is counted. -/
theorem vetoed_proposal_voted : ¬ ∀ (ss : Session GovernanceV2) (id : ℕ) (es : List Event),
      Reachable self ss → (ss.state.proposals id).outcome.Final →
      ((replay (step self) ss es).state.proposals id).numVotes
        = (ss.state.proposals id).numVotes := by
  intro h
  have hfrozen := h (after (proposed ++ [at_ 2 guardian (.vetoProposal 1)])) 1
    [at_ 3 bob (.submitVote 1 .yes)] (reachable_after _) (by decide +kernel)
  exact absurd hfrozen (by decide +kernel)

open Scenario in
theorem closed_proposal_frozen_proposed :
    (replay (step self) (after (proposed ++ [at_ 2 guardian (.vetoProposal 1)]))
        [at_ 20 bob (.submitVote 1 .yes)]).state.proposals 1
      = (after (proposed ++ [at_ 2 guardian (.vetoProposal 1)])).state.proposals 1 := by
  refine closed_proposal_frozen (reachable_after _) (by decide +kernel) ⟨?_, trivial⟩
  rintro ⟨world, msg, a, vote, heq, -, hopen⟩
  cases heq
  exact absurd hopen.2 (by decide +kernel)

end GovernanceV2

end ColivingSpec
