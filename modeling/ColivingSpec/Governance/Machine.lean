import ColivingSpec.Governance.Actions
import ColivingSpec.Lib.Replay

/-!
# Governance with callbacks

The calls governance takes, one after the other. A call that runs a transaction stays
open while the transaction makes calls of its own, and is finished when the
transaction returns; the open calls are the frames. Calls undone by a revert leave no
trace and are not events: an executed transaction that reverts is part of the call
that executed it. Callers, the views of other contracts and what a transaction does
are arbitrary, except that nobody else signs as governance.
-/

namespace ColivingSpec

open Lib

/-- A call that waits for its transaction to return. -/
inductive Frame where
  | proposal (proposalId : ℕ)
  | guardian
  deriving DecidableEq, Repr

/-- Storage, the open calls and the block reached. -/
structure Session (σ : Type) where
  state : σ
  frames : List Frame
  now : ℕ

namespace Session

variable {σ τ : Type}

/-- A call can arrive: blocks do not go back and stand still within a transaction, and
governance itself calls only from within one. -/
def Admits (outside : Address → Prop) (governance : Address) (msg : Msg) (ss : Session σ) : Prop :=
  (outside msg.sender ∨ ss.frames ≠ [] ∧ msg.sender = governance) ∧
    ss.now ≤ msg.blockNumber ∧ (ss.frames ≠ [] → msg.blockNumber = ss.now)

instance (outside : Address → Prop) [DecidablePred outside] (governance : Address) (msg : Msg)
    (ss : Session σ) : Decidable (ss.Admits outside governance msg) :=
  inferInstanceAs (Decidable (_ ∧ _ ∧ _))

/-- The session after a call that may have opened a frame. -/
def next (ss : Session σ) (msg : Msg) (result : τ × Option Frame) : Session τ :=
  ⟨result.1, result.2.toList ++ ss.frames, msg.blockNumber⟩

end Session

namespace GovernanceV2

/-- The external functions of governance, the setters of the three staking addresses
apart. Evaluation tells whether a transaction it executes returns. -/
inductive Action where
  | submitProposal (targetContractRegistryKey : Bytes32) (functionSignature : String)
      (callData : List UInt8) (name description : String)
  | submitVote (proposalId : ℕ) (vote : Vote)
  | updateVote (proposalId : ℕ) (vote : Vote)
  | evaluateProposalOutcome (proposalId : ℕ) (returns : Bool)
  | vetoProposal (proposalId : ℕ)
  | setVotingPeriod (votingPeriod : ℕ)
  | setVotingQuorumPercent (votingQuorumPercent : ℕ)
  | setRegistryAddress (registry : Address)
  | setMaxInProgressProposals (maxInProgressProposals : ℕ)
  | setExecutionDelay (executionDelay : ℕ)
  | guardianExecuteTransaction (targetContractRegistryKey : Bytes32) (callValue : ℕ)
      (functionSignature : String) (callData : List UInt8)
  | transferGuardianship (newGuardianAddress : Address)

/-- The setters of the three staking addresses. -/
inductive Rewiring where
  | setStakingAddress (stakingAddress : Address)
  | setServiceProviderFactoryAddress (serviceProviderFactoryAddress : Address)
  | setDelegateManagerAddress (delegateManagerAddress : Address)

/-- Evaluation as far as it runs before control passes to the transaction. -/
def beginEvaluation (world : World) (msg : Msg) (proposalId : ℕ) (returns : Bool)
    (g : GovernanceV2) : Except String (GovernanceV2 × Option Frame) := do
  let (g, evaluation) ← g.openEvaluation world msg proposalId
  match evaluation with
  | .close outcome => do
    let g ← g.closeEvaluation proposalId outcome
    return (g, none)
  | .execute _ =>
    if returns then
      return (g, some (.proposal proposalId))
    else do
      let g ← g.closeEvaluation proposalId .approvedExecutionFailed
      return (g, none)

/-- A call that opens no frame. -/
def atomic (result : Except String GovernanceV2) : Except String (GovernanceV2 × Option Frame) := do
  let g ← result
  return (g, none)

/-- What a call does, with the frame it opens. -/
def Action.perform (world : World) (self : Address) (msg : Msg) (g : GovernanceV2) :
    Action → Except String (GovernanceV2 × Option Frame)
  | .submitProposal key functionSignature callData name description => do
    let (g, _) ← g.submitProposal world msg key functionSignature callData name description
    return (g, none)
  | .submitVote proposalId vote => atomic (g.submitVote world msg proposalId vote)
  | .updateVote proposalId vote => atomic (g.updateVote msg proposalId vote)
  | .evaluateProposalOutcome proposalId returns => g.beginEvaluation world msg proposalId returns
  | .vetoProposal proposalId => atomic (g.vetoProposal msg proposalId)
  | .setVotingPeriod votingPeriod => atomic (g.setVotingPeriod self msg votingPeriod)
  | .setVotingQuorumPercent percent => atomic (g.setVotingQuorumPercent self msg percent)
  | .setRegistryAddress registry => atomic (g.setRegistryAddress self msg registry)
  | .setMaxInProgressProposals number => atomic (g.setMaxInProgressProposals self msg number)
  | .setExecutionDelay executionDelay => atomic (g.setExecutionDelay self msg executionDelay)
  | .guardianExecuteTransaction key callValue functionSignature callData => do
    let _ ← g.openGuardianTransaction world msg key callValue functionSignature callData
    return (g, some .guardian)
  | .transferGuardianship account => atomic (g.transferGuardianship msg account)

/-- What an address setter does. -/
def Rewiring.perform (self : Address) (msg : Msg) (g : GovernanceV2) :
    Rewiring → Except String GovernanceV2
  | .setStakingAddress a => g.setStakingAddress self msg a
  | .setServiceProviderFactoryAddress a => g.setServiceProviderFactoryAddress self msg a
  | .setDelegateManagerAddress a => g.setDelegateManagerAddress self msg a

/-- Finish the call of a frame whose transaction returned. -/
def finish (g : GovernanceV2) : Frame → Except String GovernanceV2
  | .proposal proposalId => g.closeEvaluation proposalId .approvedExecuted
  | .guardian => .ok g

/-- What can happen to governance. -/
inductive Event where
  | call (world : World) (msg : Msg) (action : Action)
  | rewire (msg : Msg) (rewiring : Rewiring)
  | returned

/-- One event. -/
def step (self : Address) (ss : Session GovernanceV2) : Event → Except String (Session GovernanceV2)
  | .call world msg action => do
    require (ss.Admits (· ≠ self) self msg) "call cannot arrive"
    let result ← action.perform world self msg ss.state
    return ss.next msg result
  | .rewire msg rewiring => do
    require (ss.Admits (· ≠ self) self msg) "call cannot arrive"
    let g ← rewiring.perform self msg ss.state
    return ss.next msg (g, none)
  | .returned =>
    match ss.frames with
    | [] => .error "no open call"
    | frame :: rest => do
      let g ← ss.state.finish frame
      return ⟨g, rest, ss.now⟩

/-- Sessions reachable from a governance contract at `self` that its initialiser accepted. -/
def Reachable (self : Address) (ss : Session GovernanceV2) : Prop :=
  ∃ registry votingPeriod executionDelay votingQuorumPercent maxInProgressProposals guardian g
      start es,
    initialStorage registry votingPeriod executionDelay votingQuorumPercent
      maxInProgressProposals guardian = .ok g ∧ ss = replay (step self) ⟨g, [], start⟩ es

/-! ### A small contract -/

namespace Scenario

/-- Governance, the guardian and two stakers. -/
def self : Address := 7

@[inherit_doc self] def guardian : Address := 101

@[inherit_doc self] def alice : Address := 102

@[inherit_doc self] def bob : Address := 103

/-- Everybody has the same active stake and one contract is registered under every key. -/
def world : World where
  getContract _ _ := .ok 60
  codeHash _ := 0
  deployerStake _ _ := .ok 500
  pendingDecreaseStake _ _ := .ok 100
  totalDelegatorStake _ _ := .ok 0
  pendingUndelegate _ _ := .ok 0
  totalStakedAt _ _ := .ok 2000

/-- The contract after its initialiser. -/
def contract : GovernanceV2 := valueOf (initialStorage 50 10 5 10 20 guardian) (by decide +kernel)

theorem initialStorage_contract : initialStorage 50 10 5 10 20 guardian = .ok contract :=
  eq_ok_valueOf _ _

/-- An action in a block. -/
def at_ (blockNumber : ℕ) (sender : Address) (a : Action) : Event :=
  .call world ⟨sender, blockNumber⟩ a

/-- A proposal of `alice` in block 1, once the guardian has wired the contract. -/
def proposed : List Event :=
  [at_ 1 guardian (.guardianExecuteTransaction 0 0 "set" []),
    .rewire ⟨self, 1⟩ (.setStakingAddress 2),
    .rewire ⟨self, 1⟩ (.setServiceProviderFactoryAddress 3),
    .rewire ⟨self, 1⟩ (.setDelegateManagerAddress 4),
    .returned,
    at_ 1 alice (.submitProposal 0 "act" [] "name" "description")]

/-- The session after a list of events. -/
def after (es : List Event) : Session GovernanceV2 := replay (step self) ⟨contract, [], 1⟩ es

theorem reachable_after (es : List Event) : Reachable self (after es) :=
  ⟨50, 10, 5, 10, 20, guardian, contract, 1, es, initialStorage_contract, rfl⟩

end Scenario

end GovernanceV2

end ColivingSpec
