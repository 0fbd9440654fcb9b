import ColivingSpec.Contracts.Staking

/-!
# Funding rounds and claims

`ClaimsManager.sol`: a round fixes the block whose stakes share the round's funds; a
claim mints the claimer's share and stakes it. A claim is pending for a provider with
endpoints whose last claim precedes the round.
-/

namespace ColivingSpec

open Lib

namespace ClaimsManager

/-- `ClaimsManager.sol:109–133`. -/
def initialStorage : ClaimsManager where
  fundingRoundBlockDiff := 46523
  fundingAmount := 1342465753420000000000000
  roundNumber := 0
  communityPoolAddress := 0
  recurringCommunityFundingAmount := 0
  currentRound := ⟨0, 0, 0⟩

variable [Keccak256] (w : Wiring) (msg : Msg)

/-- `ClaimsManager.sol:419–429`. -/
def claimPending (sp : Address) (s : System) : Bool :=
  let lastClaimedForSP := s.staking.lastClaimedFor sp
  let numEndpoints := (s.spFactory.spDetails sp).numberOfEndpoints
  lastClaimedForSP < s.claimsManager.currentRound.fundedBlock ∧ 0 < numEndpoints

/-- Community funding at the start of a round, `ClaimsManager.sol:294–305`. -/
def fundCommunity (s : System) : Except String System :=
  let amount := s.claimsManager.recurringCommunityFundingAmount
  let pool := s.claimsManager.communityPoolAddress
  let self := msg.calledBy w.claimsManager
  if 0 < amount ∧ pool ≠ 0 then do
    let token ← s.token.mint self w.claimsManager amount
    let token ← token.approve self pool amount
    let token ← token.transfer self pool amount
    return { s with token }
  else
    .ok s

/-- `ClaimsManager.sol:274–312`. -/
def initiateRound (s : System) : Except String System := do
  let elapsed ← SafeMath.sub msg.blockNumber s.claimsManager.currentRound.fundedBlock
  require (s.claimsManager.fundingRoundBlockDiff < elapsed)
    "ClaimsManager: Required block difference not met"
  let roundNumber ← SafeMath.add s.claimsManager.roundNumber 1
  let currentRound : Round := ⟨msg.blockNumber, s.claimsManager.fundingAmount, 0⟩
  fundCommunity w msg
    { s with claimsManager := { s.claimsManager with currentRound, roundNumber } }

/-- Minting and staking a nonzero reward, `ClaimsManager.sol:373–398`. -/
def payClaim (claimer : Address) (rewardsForClaimer : ℕ) (s : System) :
    Except String (System × ℕ) := do
  let self := msg.calledBy w.claimsManager
  let token ← s.token.mint self w.claimsManager rewardsForClaimer
  let token ← token.approve self w.staking rewardsForClaimer
  let s ← Staking.stakeRewards w self rewardsForClaimer claimer { s with token }
  let round := s.claimsManager.currentRound
  let totalClaimedInRound ← SafeMath.add round.totalClaimedInRound rewardsForClaimer
  let currentRound := { round with totalClaimedInRound }
  return ({ s with claimsManager := { s.claimsManager with currentRound } }, rewardsForClaimer)

/-- `ClaimsManager.sol:321–399`. -/
def processClaim (claimer : Address) (totalLockedForSP : ℕ) (s : System) :
    Except String (System × ℕ) := do
  require (msg.sender = w.delegateManager)
    "ClaimsManager: ProcessClaim only accessible to DelegateManager"
  let fundedBlock := s.claimsManager.currentRound.fundedBlock
  -- The guard lets a claim of the funding block itself pass again.
  require (s.staking.lastClaimedFor claimer ≤ fundedBlock)
    "ClaimsManager: Claim already processed for user"
  let totalStakedAtFundBlockForClaimer ← s.staking.totalStakedForAt claimer fundedBlock
  let withinBounds := (s.spFactory.spDetails claimer).validBounds
  let totalActiveClaimerStake ← SafeMath.sub totalStakedAtFundBlockForClaimer totalLockedForSP
  let totalStakedAtFundBlock ← s.staking.totalStakedAt fundedBlock
  let funds ← SafeMath.mul totalActiveClaimerStake s.claimsManager.fundingAmount
  let rewardsForClaimer ← SafeMath.div funds totalStakedAtFundBlock
  if withinBounds = false ∨ rewardsForClaimer = 0 then do
    let s ← Staking.updateClaimHistory w (msg.calledBy w.claimsManager) 0 claimer s
    return (s, 0)
  else
    payClaim w msg claimer rewardsForClaimer s

/-- A setting only governance changes. -/
def configure (change : ClaimsManager → ClaimsManager) (s : System) : Except String System := do
  require (msg.sender = w.governance) "ClaimsManager: Only callable by Governance contract"
  return { s with claimsManager := change s.claimsManager }

/-- `ClaimsManager.sol:405–411`. -/
def updateFundingAmount (newAmount : ℕ) (s : System) : Except String System :=
  configure w msg (fun m ↦ { m with fundingAmount := newAmount }) s

/-- `ClaimsManager.sol:435–441`. -/
def updateFundingRoundBlockDiff (newFundingRoundBlockDiff : ℕ) (s : System) :
    Except String System :=
  configure w msg (fun m ↦ { m with fundingRoundBlockDiff := newFundingRoundBlockDiff }) s

/-- `ClaimsManager.sol:448–456`. -/
def updateRecurringCommunityFundingAmount (newRecurringCommunityFundingAmount : ℕ)
    (s : System) : Except String System :=
  configure w msg (fun m ↦
    { m with recurringCommunityFundingAmount := newRecurringCommunityFundingAmount }) s

/-- `ClaimsManager.sol:463–469`. -/
def updateCommunityPoolAddress (newCommunityPoolAddress : Address) (s : System) :
    Except String System :=
  configure w msg (fun m ↦ { m with communityPoolAddress := newCommunityPoolAddress }) s

end ClaimsManager

end ColivingSpec
