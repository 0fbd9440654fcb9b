import ColivingSpec.Governance.Effects
import ColivingSpec.Lib.Ledger

/-!
# Votes and their counters

Each proposal keeps the weight of its Yes and of its No votes and the number of voters
beside the votes themselves. Ballots move both together, and no other event moves
either; a voter's weight is fixed by the first ballot.
-/

namespace ColivingSpec

open Lib

namespace GovernanceV2

/-- The counters of a proposal agree with the votes recorded. -/
structure Tallied (p : Proposal) : Prop where
  yes : p.voteMagnitudeYes = tally p.votes p.voteMagnitudes .yes
  no : p.voteMagnitudeNo = tally p.votes p.voteMagnitudes .no
  numVotes : p.numVotes = ballots p.votes .none

theorem Tallied.ballot {voter : Address} {vote : Vote} {weight : ℕ} {p p' : Proposal}
    (hp : Tallied p) (h : Ballot voter vote weight p p') : Tallied p' where
  yes := by
    have htally := tally_update_add p.votes p.voteMagnitudes voter vote weight .yes
    have hyes := h.yes
    rw [hp.yes] at hyes
    rw [h.votes, h.voteMagnitudes]
    omega
  no := by
    have htally := tally_update_add p.votes p.voteMagnitudes voter vote weight .no
    have hno := h.no
    rw [hp.no] at hno
    rw [h.votes, h.voteMagnitudes]
    omega
  numVotes := by
    have hballots := ballots_update p.votes voter h.chosen
    have hnumber := h.numVotes
    rw [hp.numVotes] at hnumber
    rw [h.votes]
    omega

/-- Nobody voted and nothing is counted. -/
theorem Tallied.of_none {p : Proposal} (hvotes : ∀ a, p.votes a = .none)
    (hyes : p.voteMagnitudeYes = 0) (hno : p.voteMagnitudeNo = 0) (hnumber : p.numVotes = 0) :
    Tallied p where
  yes := by
    rw [hyes, tally_eq_zero]
    simp [hvotes]
  no := by
    rw [hno, tally_eq_zero]
    simp [hvotes]
  numVotes := by simp [hnumber, ballots, hvotes]

/-- All counters agree, and slots that wait for a proposal hold no votes. -/
structure Counted (g : GovernanceV2) : Prop where
  tallied : ∀ id, Tallied (g.proposals id)
  fresh : ∀ id, g.lastProposalId < id → ∀ a, (g.proposals id).votes a = .none

section Steps

variable {world : World} {msg : Msg} {a : Action} {g g' : GovernanceV2} {frame : Option Frame}

/-- A changed outcome is not counted. -/
theorem Tallied.outcome {p : Proposal} (h : Tallied p) (outcome : Outcome) :
    Tallied { p with outcome } := ⟨h.yes, h.no, h.numVotes⟩

theorem Counted.same (h : Counted g) (hsame : SameProposals g g') : Counted g' where
  tallied id := by
    rw [hsame.proposals]
    exact h.tallied id
  fresh id hid := by
    rw [hsame.lastProposalId] at hid
    rw [hsame.proposals]
    exact h.fresh id hid

variable {proposalId : ℕ} {outcome : Outcome} {f : Frame}

/-- A new outcome in one slot. -/
theorem Counted.of_outcome (h : Counted g) (hproposals : ∀ id, g'.proposals id
      = if id = proposalId then { g.proposals proposalId with outcome } else g.proposals id)
    (hlast : g'.lastProposalId = g.lastProposalId) : Counted g' where
  tallied id := by
    rw [hproposals]
    split
    · exact (h.tallied proposalId).outcome outcome
    · exact h.tallied id
  fresh id hid a := by
    rw [hproposals]
    rw [hlast] at hid
    split
    · next heq => exact heq ▸ h.fresh id hid a
    · exact h.fresh id hid a

theorem Effect.counted (h : Effect world msg g a g' frame) (hg : Counted g) : Counted g' := by
  cases h with
  | settings hsame _ => exact hg.same hsame
  | guardian => exact hg
  | submitted houtcome hblock hyes hno hnumber hvotes =>
    have hnone := hg.fresh (g.lastProposalId + 1) (Nat.lt_succ_self _)
    refine ⟨fun id ↦ ?_, fun id hid ↦ ?_⟩
    · simp only [proposals_setProposal]
      split
      · exact .of_none (hvotes ▸ hnone) hyes hno hnumber
      · exact hg.tallied id
    · simp only at hid
      simp only [proposals_setProposal]
      rw [if_neg (by omega)]
      exact hg.fresh id (by omega)
  | voted haction hvalid hopen hballot hweight =>
    refine ⟨fun id ↦ ?_, fun id hid ↦ ?_⟩
    · rw [proposals_setProposal]
      split
      · exact (hg.tallied _).ballot hballot
      · exact hg.tallied id
    · have hne : id ≠ _ := (hvalid.2.trans_lt hid).ne'
      rw [proposals_setProposal, if_neg hne]
      exact hg.fresh id hid
  | closed hvalid hopen hfinal hremove =>
    obtain ⟨hproposals, hlast, -⟩ := close_eq_ok hremove
    exact hg.of_outcome hproposals hlast
  | opened hvalid hopen => exact hg.of_outcome (proposals_setProposal g _ _) rfl

theorem finish_counted (h : g.finish f = .ok g') (hg : Counted g) : Counted g' := by
  cases f with
  | proposal proposalId =>
    obtain ⟨hproposals, hlast, -⟩ := close_eq_ok h
    exact hg.of_outcome hproposals hlast
  | guardian =>
    cases h
    exact hg

/-- `voter` has voted on the proposal with this weight. -/
def Weighs (g : GovernanceV2) (id : ℕ) (voter : Address) (weight : ℕ) : Prop :=
  (g.proposals id).votes voter ≠ .none ∧ (g.proposals id).voteMagnitudes voter = weight

variable {id weight : ℕ} {voter : Address}

theorem Weighs.same (h : Weighs g id voter weight) (hsame : SameProposals g g') :
    Weighs g' id voter weight := by
  unfold Weighs
  rw [hsame.proposals]
  exact h

theorem Weighs.of_outcome (h : Weighs g id voter weight) (hproposals : ∀ id, g'.proposals id
      = if id = proposalId then { g.proposals proposalId with outcome } else g.proposals id) :
    Weighs g' id voter weight := by
  unfold Weighs
  rw [hproposals]
  split
  · next heq =>
    subst heq
    exact h
  · exact h

/-- No ballot changes a weight once it is set. -/
theorem Weighs.ballot {p p' : Proposal} {sender : Address} {vote : Vote} {n : ℕ}
    (h : p.votes voter ≠ .none ∧ p.voteMagnitudes voter = weight)
    (hballot : Ballot sender vote n p p') :
    p'.votes voter ≠ .none ∧ p'.voteMagnitudes voter = weight := by
  rw [hballot.votes, hballot.voteMagnitudes]
  by_cases hvoter : voter = sender
  · subst hvoter
    simp only [Function.update_self]
    exact ⟨hballot.chosen, (hballot.keeps h.1).trans h.2⟩
  · simp only [Function.update_of_ne hvoter]
    exact h

theorem Effect.weighs (h : Effect world msg g a g' frame) (hg : Counted g)
    (hweighs : Weighs g id voter weight) : Weighs g' id voter weight := by
  cases h with
  | settings hsame _ => exact hweighs.same hsame
  | guardian => exact hweighs
  | submitted =>
    have hne : id ≠ g.lastProposalId + 1 := by
      rintro rfl
      exact hweighs.1 (hg.fresh _ (Nat.lt_succ_self _) voter)
    unfold Weighs
    simp only [proposals_setProposal]
    rw [if_neg hne]
    exact hweighs
  | voted haction hvalid hopen hballot hweight =>
    unfold Weighs
    rw [proposals_setProposal]
    split
    · next heq =>
      subst heq
      exact Weighs.ballot hweighs hballot
    · exact hweighs
  | closed hvalid hopen hfinal hremove => exact hweighs.of_outcome (close_eq_ok hremove).1
  | opened hvalid hopen => exact hweighs.of_outcome (proposals_setProposal g _ _)

theorem finish_weighs (h : g.finish f = .ok g') (hweighs : Weighs g id voter weight) :
    Weighs g' id voter weight := by
  cases f with
  | proposal proposalId => exact hweighs.of_outcome (close_eq_ok h).1
  | guardian =>
    cases h
    exact hweighs

/-- The votes on a proposal and its submission stand. -/
structure VotesStand (id : ℕ) (g g' : GovernanceV2) : Prop where
  votes : (g'.proposals id).votes = (g.proposals id).votes
  voteMagnitudes : (g'.proposals id).voteMagnitudes = (g.proposals id).voteMagnitudes
  submissionBlockNumber :
    (g'.proposals id).submissionBlockNumber = (g.proposals id).submissionBlockNumber

theorem VotesStand.of_outcome (hproposals : ∀ id, g'.proposals id
      = if id = proposalId then { g.proposals proposalId with outcome } else g.proposals id)
    (id : ℕ) : VotesStand id g g' := by
  constructor <;> (rw [hproposals]; split)
  all_goals first | rfl | (next heq => rw [heq])

theorem finish_votesStand (h : g.finish f = .ok g') (id : ℕ) :
    VotesStand id g g' ∧ g'.lastProposalId = g.lastProposalId := by
  cases f with
  | proposal proposalId =>
    obtain ⟨hproposals, hlast, -⟩ := close_eq_ok h
    exact ⟨.of_outcome hproposals id, hlast⟩
  | guardian =>
    cases h
    exact ⟨⟨rfl, rfl, rfl⟩, rfl⟩

/-- What an action does to the votes on one proposal: they stand, the proposal is entered
without votes, or a ballot is taken. -/
theorem Effect.votes_cases (h : Effect world msg g a g' frame) (hg : Counted g) (id : ℕ) :
    VotesStand id g g' ∧ (g'.Submitted id → g.Submitted id) ∨
      (g'.proposals id).submissionBlockNumber = msg.blockNumber ∧
        (∀ voter, (g'.proposals id).votes voter = .none) ∨
      ∃ vote weight, g.Submitted id ∧ g.VotingOpen (g.proposals id) msg.blockNumber ∧
        Ballot msg.sender vote weight (g.proposals id) (g'.proposals id) ∧
        ((g.proposals id).votes msg.sender = .none →
          g._calculateAddressActiveStake world msg.sender = .ok weight) := by
  cases h with
  | settings hsame _ =>
    refine .inl ⟨?_, fun hid ↦ ?_⟩
    · constructor <;> rw [hsame.proposals]
    · exact ⟨hid.1, hsame.lastProposalId ▸ hid.2⟩
  | guardian => exact .inl ⟨⟨rfl, rfl, rfl⟩, fun hid ↦ hid⟩
  | @submitted p houtcome hblock hyes hno hnumber hvotes =>
    by_cases hid : id = g.lastProposalId + 1
    · subst hid
      refine .inr (.inl ⟨?_, fun voter ↦ ?_⟩)
      · simpa using hblock
      · simpa [hvotes] using hg.fresh _ (Nat.lt_succ_self _) voter
    · refine .inl ⟨?_, fun hsubmitted ↦ ?_⟩
      · constructor <;> simp [hid]
      · have hle : id ≤ g.lastProposalId + 1 := hsubmitted.2
        exact ⟨hsubmitted.1, by omega⟩
  | @voted proposalId weight vote p haction hvalid hopen hballot hweight =>
    by_cases hid : id = proposalId
    · subst hid
      exact .inr (.inr ⟨vote, weight, hvalid, hopen, by simpa using hballot, hweight⟩)
    · refine .inl ⟨?_, fun hsubmitted ↦ hsubmitted⟩
      constructor <;> simp [hid]
  | closed hvalid hopen hfinal hremove =>
    obtain ⟨hproposals, hlast, -⟩ := close_eq_ok hremove
    exact .inl ⟨.of_outcome hproposals id, fun hid ↦ ⟨hid.1, hlast ▸ hid.2⟩⟩
  | opened hvalid hopen =>
    exact .inl ⟨.of_outcome (proposals_setProposal g _ _) id, fun hid ↦ hid⟩

end Steps

section Runs

variable {self : Address} {ss ss' : Session GovernanceV2} {e : Event} {id weight : ℕ}
  {voter : Address}

theorem step_counted (hs : Counted ss.state) (h : step self ss e = .ok ss') :
    Counted ss'.state := by
  obtain ⟨-, hcase⟩ := step_cases h
  rcases hcase with ⟨world, msg, a, frame, -, -, heffect, -⟩ | ⟨hsame, -⟩ | ⟨frame, -, hfinish⟩
  · exact heffect.counted hs
  · exact hs.same hsame
  · exact finish_counted hfinish hs

theorem step_weighs (hs : Counted ss.state) (hweighs : Weighs ss.state id voter weight)
    (h : step self ss e = .ok ss') : Weighs ss'.state id voter weight := by
  obtain ⟨-, hcase⟩ := step_cases h
  rcases hcase with ⟨world, msg, a, frame, -, -, heffect, -⟩ | ⟨hsame, -⟩ | ⟨frame, -, hfinish⟩
  · exact heffect.weighs hs hweighs
  · exact hweighs.same hsame
  · exact finish_weighs hfinish hweighs

theorem Reachable.counted (h : Reachable self ss) : Counted ss.state :=
  h.induction (fun _ _ _ _ _ _ g _ hg ↦ by
    obtain ⟨-, -, hproposals⟩ := initialStorage_eq_ok hg
    refine ⟨fun id ↦ ?_, fun id _ a ↦ ?_⟩
    · rw [hproposals]
      exact .of_none (fun _ ↦ rfl) rfl rfl rfl
    · rw [hproposals]
      rfl)
    fun _ _ _ hs hstep ↦ step_counted hs hstep

/-- In every reachable session the counters of every proposal agree with its votes, and the
weight of a voter stays what it was at the first vote. -/
theorem votes_tallied (h : Reachable self ss) :
    (∀ id, Tallied (ss.state.proposals id)) ∧
      ∀ id voter, (ss.state.proposals id).votes voter ≠ .none → ∀ es,
        ((replay (step self) ss es).state.proposals id).voteMagnitudes voter
          = (ss.state.proposals id).voteMagnitudes voter := by
  refine ⟨h.counted.tallied, fun id voter hvoted es ↦ ?_⟩
  let I (s : Session GovernanceV2) : Prop :=
    Counted s.state ∧ Weighs s.state id voter ((ss.state.proposals id).voteMagnitudes voter)
  have hrun : I (replay (step self) ss es) :=
    replay_invariant' I (fun _ _ _ hs hstep ↦ ⟨step_counted hs.1 hstep,
      step_weighs hs.1 hs.2 hstep⟩) es ⟨h.counted, hvoted, rfl⟩
  exact hrun.2.2

end Runs

open Scenario in
theorem votes_tallied_proposed :
    ((after (proposed ++ [at_ 2 alice (.submitVote 1 .yes)])).state.proposals 1).votes alice
        ≠ .none ∧
      ((replay (step self) (after (proposed ++ [at_ 2 alice (.submitVote 1 .yes)]))
        [at_ 3 bob (.submitVote 1 .no), at_ 4 alice (.updateVote 1 .no)]).state.proposals
          1).voteMagnitudes alice
        = ((after (proposed ++ [at_ 2 alice (.submitVote 1 .yes)])).state.proposals
          1).voteMagnitudes alice := by
  have hvoted : ((after (proposed ++ [at_ 2 alice (.submitVote 1 .yes)])).state.proposals 1).votes
      alice ≠ .none := by decide +kernel
  exact ⟨hvoted, (votes_tallied (reachable_after _)).2 1 alice hvoted _⟩

end GovernanceV2

end ColivingSpec
