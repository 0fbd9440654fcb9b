import ColivingSpec.Governance.Storage

/-!
# Governance actions

`GovernanceV2.sol`: proposals, votes, evaluation, the guardian and the settings. What
governance reads from other contracts comes as a `World` of view functions. The
transaction of an approved proposal is arbitrary code that may call back: evaluation
takes its effect as a function, and is cut in two at that call for the machine in
which the callbacks are calls of their own.
-/

namespace ColivingSpec

open Lib

/-- The views governance calls, by the address of the contract called. -/
structure World where
  /-- `Registry.getContract`. -/
  getContract : Address → Bytes32 → Except String Address
  /-- `extcodehash`. -/
  codeHash : Address → Bytes32
  /-- First field of `ServiceProviderFactory.getServiceProviderDetails`. -/
  deployerStake : Address → Address → Except String ℕ
  /-- First field of `ServiceProviderFactory.getPendingDecreaseStakeRequest`. -/
  pendingDecreaseStake : Address → Address → Except String ℕ
  /-- `DelegateManager.getTotalDelegatorStake`. -/
  totalDelegatorStake : Address → Address → Except String ℕ
  /-- Amount field of `DelegateManager.getPendingUndelegateRequest`. -/
  pendingUndelegate : Address → Address → Except String ℕ
  /-- `Staking.totalStakedAt`. -/
  totalStakedAt : Address → ℕ → Except String ℕ

namespace GovernanceV2

variable (g : GovernanceV2) (proposalId : ℕ)

/-- Replace one proposal. -/
def setProposal (p : Proposal) : GovernanceV2 :=
  { g with proposals := Function.update g.proposals proposalId p }

/-- Write `proposals[proposalId].outcome`. -/
def setOutcome (outcome : Outcome) : GovernanceV2 :=
  g.setProposal proposalId { g.proposals proposalId with outcome }

/-- `GovernanceV2.sol:191–227`. The staking addresses are set later. -/
def initialStorage (registry : Address) (votingPeriod executionDelay votingQuorumPercent
    maxInProgressProposals : ℕ) (guardianAddress : Address) : Except String GovernanceV2 := do
  require (registry ≠ 0) "Governance: Requires non-zero _registryAddress"
  require (0 < votingPeriod) "Governance: Requires non-zero _votingPeriod"
  require (0 < maxInProgressProposals) "Governance: Requires non-zero _maxInProgressProposals"
  require (0 < votingQuorumPercent ∧ votingQuorumPercent ≤ 100)
    "Governance: Requires _votingQuorumPercent between 1 & 100"
  require (guardianAddress ≠ 0) "Governance: Requires non-zero _guardianAddress"
  return {
    registry
    stakingAddress := 0
    serviceProviderFactoryAddress := 0
    delegateManagerAddress := 0
    votingPeriod
    executionDelay
    votingQuorumPercent
    maxInProgressProposals
    guardianAddress
    lastProposalId := 0
    proposals := fun _ ↦ Proposal.empty
    inProgressProposals := [] }

/-! ### Checks and views -/

/-- `GovernanceV2.sol:1077–1096`, the three address checks. -/
def _requireAddressesAreSet : Except String Unit := do
  require (g.stakingAddress ≠ 0) "Governance: stakingAddress is not set"
  require (g.serviceProviderFactoryAddress ≠ 0)
    "Governance: serviceProviderFactoryAddress is not set"
  require (g.delegateManagerAddress ≠ 0) "Governance: delegateManagerAddress is not set"

/-- `GovernanceV2.sol:1098–1103`. -/
def _requireValidProposalId (g : GovernanceV2) : Except String Unit :=
  require (proposalId ≤ g.lastProposalId ∧ 0 < proposalId)
    "Governance: Must provide valid non-zero _proposalId"

/-- `GovernanceV2.sol:1114–1136`. -/
def _calculateAddressActiveStake (world : World) (account : Address) (g : GovernanceV2) :
    Except String ℕ := do
  let directDeployerStake ← world.deployerStake g.serviceProviderFactoryAddress account
  let lockedDeployerStake ← world.pendingDecreaseStake g.serviceProviderFactoryAddress account
  let activeDeployerStake ← SafeMath.sub directDeployerStake lockedDeployerStake
  let totalDelegatorStake ← world.totalDelegatorStake g.delegateManagerAddress account
  let lockedDelegatorStake ← world.pendingUndelegate g.delegateManagerAddress account
  let activeDelegatorStake ← SafeMath.sub totalDelegatorStake lockedDelegatorStake
  SafeMath.add activeDeployerStake activeDelegatorStake

/-- The loop of `GovernanceV2.sol:962–971`. -/
def upToDate (blockNumber : ℕ) (g : GovernanceV2) : List ℕ → Except String Bool
  | [] => .ok true
  | id :: rest => do
    let endOfVoting ← SafeMath.add (g.proposals id).submissionBlockNumber g.votingPeriod
    let endBlockNumber ← SafeMath.add endOfVoting g.executionDelay
    if endBlockNumber < blockNumber then .ok false else g.upToDate blockNumber rest

/-- `GovernanceV2.sol:958–972`. -/
def inProgressProposalsAreUpToDate (blockNumber : ℕ) (g : GovernanceV2) : Except String Bool :=
  g.upToDate blockNumber g.inProgressProposals

/-- `GovernanceV2.sol:1064–1073`. -/
def _quorumMet (world : World) (p : Proposal) (g : GovernanceV2) : Except String Bool := do
  let votes ← SafeMath.add p.voteMagnitudeYes p.voteMagnitudeNo
  let scaled ← SafeMath.mul votes 100
  let totalStaked ← world.totalStakedAt g.stakingAddress p.submissionBlockNumber
  let participation ← SafeMath.div scaled totalStaked
  return g.votingQuorumPercent ≤ participation

/-- `GovernanceV2.sol:1037–1049`: the last id replaces the removed one, or the first one
when the id is not found. -/
def _removeFromInProgressProposals (g : GovernanceV2) : Except String GovernanceV2 := do
  let index := (g.inProgressProposals.idxOf? proposalId).getD 0
  match g.inProgressProposals.getLast? with
  | none => .error "Panic(0x11)"
  | some last =>
    return { g with inProgressProposals := (g.inProgressProposals.set index last).dropLast }

/-! ### Proposals and votes -/

variable (world : World) (self : Address) (msg : Msg)

/-- `GovernanceV2.sol:245–348`. -/
def submitProposal (targetContractRegistryKey : Bytes32) (functionSignature : String)
    (callData : List UInt8) (name description : String) (g : GovernanceV2) :
    Except String (GovernanceV2 × ℕ) := do
  g._requireAddressesAreSet
  let current ← g.inProgressProposalsAreUpToDate msg.blockNumber
  require current
    "Governance: Cannot submit new proposal until all evaluatable InProgress proposals are evaluated."
  require (g.inProgressProposals.length < g.maxInProgressProposals)
    "Governance: Number of InProgress proposals already at max. Please evaluate if possible, or wait for current proposals' votingPeriods to expire."
  let activeStake ← g._calculateAddressActiveStake world msg.sender
  require (0 < activeStake ∨ msg.sender = g.guardianAddress)
    "Governance: Proposer must be address with non-zero total active stake or be guardianAddress."
  let targetContractAddress ← world.getContract g.registry targetContractRegistryKey
  require (targetContractAddress ≠ 0)
    "Governance: _targetContractRegistryKey must point to valid registered contract"
  require (functionSignature ≠ "") "Governance: _functionSignature cannot be empty."
  require (description ≠ "") "Governance: _description length must be > 0"
  require (name ≠ "") "Governance: _name length must be > 0"
  let newProposalId ← SafeMath.add g.lastProposalId 1
  -- The vote mappings of the slot are left as they are.
  let g := g.setProposal newProposalId { g.proposals newProposalId with
    proposalId := newProposalId
    proposer := msg.sender
    submissionBlockNumber := msg.blockNumber
    targetContractRegistryKey
    targetContractAddress
    functionSignature
    callData
    outcome := .inProgress
    voteMagnitudeYes := 0
    voteMagnitudeNo := 0
    numVotes := 0
    contractHash := world.codeHash targetContractAddress }
  return ({ g with
    inProgressProposals := g.inProgressProposals ++ [newProposalId]
    lastProposalId := newProposalId }, newProposalId)

/-- The window check of both voting functions, `GovernanceV2.sol:364–370`. -/
def requireVotingOpen (p : Proposal) (g : GovernanceV2) : Except String Unit := do
  let endBlockNumber ← SafeMath.add p.submissionBlockNumber g.votingPeriod
  require (p.submissionBlockNumber < msg.blockNumber ∧ msg.blockNumber ≤ endBlockNumber)
    "Governance: Proposal votingPeriod has ended"

/-- `GovernanceV2.sol:1008–1018`: add to the magnitude of a Yes or No vote. -/
def _increaseVoteMagnitude (vote : Vote) (voterStake : ℕ) (p : Proposal) :
    Except String Proposal :=
  if vote = .yes then do
    let voteMagnitudeYes ← SafeMath.add p.voteMagnitudeYes voterStake
    return { p with voteMagnitudeYes }
  else do
    let voteMagnitudeNo ← SafeMath.add p.voteMagnitudeNo voterStake
    return { p with voteMagnitudeNo }

/-- `GovernanceV2.sol:1020–1030`: take from the magnitude of a Yes or No vote. -/
def _decreaseVoteMagnitude (vote : Vote) (voterStake : ℕ) (p : Proposal) :
    Except String Proposal :=
  if vote = .yes then do
    let voteMagnitudeYes ← SafeMath.sub p.voteMagnitudeYes voterStake
    return { p with voteMagnitudeYes }
  else do
    let voteMagnitudeNo ← SafeMath.sub p.voteMagnitudeNo voterStake
    return { p with voteMagnitudeNo }

variable (proposalId : ℕ)

/-- `GovernanceV2.sol:355–413`. The outcome of the proposal is not looked at. -/
def submitVote (vote : Vote) (g : GovernanceV2) : Except String GovernanceV2 := do
  g._requireAddressesAreSet
  g._requireValidProposalId proposalId
  let p := g.proposals proposalId
  g.requireVotingOpen msg p
  let voterActiveStake ← g._calculateAddressActiveStake world msg.sender
  require (0 < voterActiveStake)
    "Governance: Voter must be address with non-zero total active stake."
  require (p.votes msg.sender = .none) "Governance: To update previous vote, call updateVote()"
  require (vote = .yes ∨ vote = .no) "Governance: Can only submit a Yes or No vote"
  let p := { p with
    votes := Function.update p.votes msg.sender vote
    voteMagnitudes := Function.update p.voteMagnitudes msg.sender voterActiveStake }
  let p ← _increaseVoteMagnitude vote voterActiveStake p
  let numVotes ← SafeMath.add p.numVotes 1
  return g.setProposal proposalId { p with numVotes }

/-- Move a voter's magnitude when the vote changes sides, `GovernanceV2.sol:455–463`. -/
def switchVote (previousVote vote : Vote) (voteMagnitude : ℕ) (p : Proposal) :
    Except String Proposal :=
  if previousVote = vote then
    .ok p
  else do
    let p ← _decreaseVoteMagnitude previousVote voteMagnitude p
    _increaseVoteMagnitude vote voteMagnitude p

/-- `GovernanceV2.sol:420–475`. -/
def updateVote (vote : Vote) (g : GovernanceV2) : Except String GovernanceV2 := do
  g._requireAddressesAreSet
  g._requireValidProposalId proposalId
  let p := g.proposals proposalId
  g.requireVotingOpen msg p
  let previousVote := p.votes msg.sender
  require (previousVote ≠ .none) "Governance: To submit new vote, call submitVote()"
  require (vote = .yes ∨ vote = .no) "Governance: Can only submit a Yes or No vote"
  let voteMagnitude := p.voteMagnitudes msg.sender
  let p ← switchVote previousVote vote voteMagnitude
    { p with votes := Function.update p.votes msg.sender vote }
  return g.setProposal proposalId p

/-! ### Evaluation -/

/-- The transaction a proposal asks for. -/
structure Transaction where
  targetContractAddress : Address
  callValue : ℕ
  functionSignature : String
  callData : List UInt8

/-- What evaluation arrives at before any call: an outcome, or a transaction to execute. -/
inductive Evaluation where
  | close (outcome : Outcome)
  | execute (transaction : Transaction)

/-- The decision of `GovernanceV2.sol:512–558`. -/
def assess (p : Proposal) (g : GovernanceV2) : Except String Evaluation := do
  let targetContractAddress ← world.getContract g.registry p.targetContractRegistryKey
  if targetContractAddress ≠ p.targetContractAddress then
    return .close .targetContractAddressChanged
  else if world.codeHash targetContractAddress ≠ p.contractHash then
    return .close .targetContractCodeHashChanged
  else do
    let quorumMet ← g._quorumMet world p
    if quorumMet = false then
      return .close .quorumNotMet
    else if p.voteMagnitudeNo < p.voteMagnitudeYes then
      return .execute ⟨targetContractAddress, p.callValue, p.functionSignature, p.callData⟩
    else
      return .close .rejected

/-- Evaluation up to the external call, `GovernanceV2.sol:488–536`. -/
def openEvaluation (g : GovernanceV2) : Except String (GovernanceV2 × Evaluation) := do
  g._requireAddressesAreSet
  g._requireValidProposalId proposalId
  require ((g.proposals proposalId).outcome = .inProgress)
    "Governance: Can only evaluate InProgress proposal."
  let g := g.setOutcome proposalId .evaluating
  let p := g.proposals proposalId
  let endOfVoting ← SafeMath.add p.submissionBlockNumber g.votingPeriod
  let endBlockNumber ← SafeMath.add endOfVoting g.executionDelay
  require (endBlockNumber < msg.blockNumber)
    "Governance: Proposal votingPeriod & executionDelay must end before evaluation."
  let evaluation ← g.assess world p
  return (g, evaluation)

/-- Evaluation after the external call, `GovernanceV2.sol:559–563`. -/
def closeEvaluation (outcome : Outcome) (g : GovernanceV2) : Except String GovernanceV2 :=
  (g.setOutcome proposalId outcome)._removeFromInProgressProposals proposalId

/-- `GovernanceV2.sol:580–600`. -/
def vetoProposal (g : GovernanceV2) : Except String GovernanceV2 := do
  g._requireValidProposalId proposalId
  require (msg.sender = g.guardianAddress) "Governance: Only guardian can veto proposals."
  require ((g.proposals proposalId).outcome = .inProgress)
    "Governance: Cannot veto inactive proposal."
  (g.setOutcome proposalId .vetoed)._removeFromInProgressProposals proposalId

/-! ### Settings -/

/-- A setting only governance itself changes, with its check. -/
def configure (valid : Prop) [Decidable valid] (reason : String)
    (change : GovernanceV2 → GovernanceV2) (g : GovernanceV2) : Except String GovernanceV2 := do
  require (msg.sender = self) "Governance: Only callable by self"
  require valid reason
  return change g

/-- `GovernanceV2.sol:609–615`. -/
def setStakingAddress (stakingAddress : Address) : GovernanceV2 → Except String GovernanceV2 :=
  configure self msg (stakingAddress ≠ 0) "Governance: Requires non-zero _stakingAddress"
    fun g ↦ { g with stakingAddress }

/-- `GovernanceV2.sol:622–631`. -/
def setServiceProviderFactoryAddress (serviceProviderFactoryAddress : Address) :
    GovernanceV2 → Except String GovernanceV2 :=
  configure self msg (serviceProviderFactoryAddress ≠ 0)
    "Governance: Requires non-zero _serviceProviderFactoryAddress"
    fun g ↦ { g with serviceProviderFactoryAddress }

/-- `GovernanceV2.sol:638–647`. -/
def setDelegateManagerAddress (delegateManagerAddress : Address) :
    GovernanceV2 → Except String GovernanceV2 :=
  configure self msg (delegateManagerAddress ≠ 0)
    "Governance: Requires non-zero _delegateManagerAddress"
    fun g ↦ { g with delegateManagerAddress }

/-- `GovernanceV2.sol:654–661`. -/
def setVotingPeriod (votingPeriod : ℕ) : GovernanceV2 → Except String GovernanceV2 :=
  configure self msg (0 < votingPeriod) "Governance: Requires non-zero _votingPeriod"
    fun g ↦ { g with votingPeriod }

/-- `GovernanceV2.sol:668–678`. -/
def setVotingQuorumPercent (votingQuorumPercent : ℕ) :
    GovernanceV2 → Except String GovernanceV2 :=
  configure self msg (0 < votingQuorumPercent ∧ votingQuorumPercent ≤ 100)
    "Governance: Requires _votingQuorumPercent between 1 & 100"
    fun g ↦ { g with votingQuorumPercent }

/-- `GovernanceV2.sol:685–694`. -/
def setRegistryAddress (registry : Address) : GovernanceV2 → Except String GovernanceV2 :=
  configure self msg (registry ≠ 0) "Governance: Requires non-zero _registryAddress"
    fun g ↦ { g with registry }

/-- `GovernanceV2.sol:701–711`. -/
def setMaxInProgressProposals (maxInProgressProposals : ℕ) :
    GovernanceV2 → Except String GovernanceV2 :=
  configure self msg (0 < maxInProgressProposals)
    "Governance: Requires non-zero _newMaxInProgressProposals"
    fun g ↦ { g with maxInProgressProposals }

/-- `GovernanceV2.sol:718–725`. -/
def setExecutionDelay (executionDelay : ℕ) : GovernanceV2 → Except String GovernanceV2 :=
  configure self msg True "" fun g ↦ { g with executionDelay }

/-! ### Guardian -/

/-- `guardianExecuteTransaction` up to the external call, `GovernanceV2.sol:736–761`. -/
def openGuardianTransaction (targetContractRegistryKey : Bytes32) (callValue : ℕ)
    (functionSignature : String) (callData : List UInt8) (g : GovernanceV2) :
    Except String Transaction := do
  require (msg.sender = g.guardianAddress) "Governance: Only guardian."
  let targetContractAddress ← world.getContract g.registry targetContractRegistryKey
  require (targetContractAddress ≠ 0)
    "Governance: _targetContractRegistryKey must point to valid registered contract"
  require (functionSignature ≠ "") "Governance: _functionSignature cannot be empty."
  return ⟨targetContractAddress, callValue, functionSignature, callData⟩

/-- `GovernanceV2.sol:786–797`. -/
def transferGuardianship (newGuardianAddress : Address) (g : GovernanceV2) :
    Except String GovernanceV2 := do
  require (msg.sender = g.guardianAddress) "Governance: Only guardian."
  return { g with guardianAddress := newGuardianAddress }

end GovernanceV2

end ColivingSpec
