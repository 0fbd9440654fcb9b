import ColivingSpec.Eth.Word

/-!
# Governance storage

The proposals of `GovernanceV2.sol` with their votes, and the configuration of the
contract.
-/

namespace ColivingSpec

/-- `GovernanceV2.sol:82–92`. -/
inductive Outcome where
  | inProgress
  | rejected
  | approvedExecuted
  | quorumNotMet
  | approvedExecutionFailed
  | evaluating
  | vetoed
  | targetContractAddressChanged
  | targetContractCodeHashChanged
  deriving DecidableEq, Repr

/-- `GovernanceV2.sol:101`. -/
inductive Vote where
  | none
  | no
  | yes
  deriving DecidableEq, Repr

/-- `GovernanceV2.sol:103–119`. -/
structure Proposal where
  proposalId : ℕ
  proposer : Address
  submissionBlockNumber : ℕ
  targetContractRegistryKey : Bytes32
  targetContractAddress : Address
  callValue : ℕ
  functionSignature : String
  callData : List UInt8
  outcome : Outcome
  voteMagnitudeYes : ℕ
  voteMagnitudeNo : ℕ
  numVotes : ℕ
  votes : Address → Vote
  voteMagnitudes : Address → ℕ
  contractHash : Bytes32

/-- A storage slot nothing was written to. -/
def Proposal.empty : Proposal where
  proposalId := 0
  proposer := 0
  submissionBlockNumber := 0
  targetContractRegistryKey := 0
  targetContractAddress := 0
  callValue := 0
  functionSignature := ""
  callData := []
  outcome := .inProgress
  voteMagnitudeYes := 0
  voteMagnitudeNo := 0
  numVotes := 0
  votes := fun _ ↦ .none
  voteMagnitudes := fun _ ↦ 0
  contractHash := 0

/-- `GovernanceV2.sol:36–130`. -/
structure GovernanceV2 where
  registry : Address
  stakingAddress : Address
  serviceProviderFactoryAddress : Address
  delegateManagerAddress : Address
  votingPeriod : ℕ
  executionDelay : ℕ
  votingQuorumPercent : ℕ
  maxInProgressProposals : ℕ
  guardianAddress : Address
  lastProposalId : ℕ
  proposals : ℕ → Proposal
  inProgressProposals : List ℕ

end ColivingSpec
