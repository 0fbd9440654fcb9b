import ColivingSpec.Contracts.DelegateManager
import ColivingSpec.Governance.Machine

/-!
# The wired system

Token, staking, providers, delegation, claims, service types and governance as one
machine: every external function as a call, deployment as `migrations` and the
initialisers do it, and the runs from there. The setters of the addresses that wire the
contracts together are not calls, the wiring stands.
-/

namespace ColivingSpec

open Lib

section System

variable [Keccak256]

/-! ### Calls -/

/-- Calls of the token. -/
inductive TokenCall where
  | transfer (target : Address) (amount : ℕ)
  | approve (spender : Address) (amount : ℕ)
  | increaseAllowance (spender : Address) (amount : ℕ)
  | decreaseAllowance (spender : Address) (amount : ℕ)
  | transferFrom (source target : Address) (amount : ℕ)
  | mint (account : Address) (amount : ℕ)
  | burn (amount : ℕ)
  | burnFrom (account : Address) (amount : ℕ)
  | addMinter (account : Address)
  | renounceMinter

/-- Calls of Staking. -/
inductive StakingCall where
  | stakeRewards (amount : ℕ) (stakerAccount : Address)
  | updateClaimHistory (amount : ℕ) (stakerAccount : Address)
  | slash (amount : ℕ) (slashAddress : Address)
  | stakeFor (accountAddress : Address) (amount : ℕ)
  | unstakeFor (accountAddress : Address) (amount : ℕ)
  | delegateStakeFor (accountAddress delegatorAddress : Address) (amount : ℕ)
  | undelegateStakeFor (accountAddress delegatorAddress : Address) (amount : ℕ)

/-- Calls of ClaimsManager. -/
inductive ClaimsCall where
  | initiateRound
  | processClaim (claimer : Address) (totalLockedForSP : ℕ)
  | updateFundingAmount (newAmount : ℕ)
  | updateFundingRoundBlockDiff (newFundingRoundBlockDiff : ℕ)
  | updateRecurringCommunityFundingAmount (newRecurringCommunityFundingAmount : ℕ)
  | updateCommunityPoolAddress (newCommunityPoolAddress : Address)

/-- Calls of ServiceTypeManager. -/
inductive TypeCall where
  | addServiceType (serviceType : Bytes32) (serviceTypeMin serviceTypeMax : ℕ)
  | removeServiceType (serviceType : Bytes32)
  | setServiceVersion (serviceType serviceVersion : Bytes32)

/-- Calls of ServiceProviderFactory. -/
inductive ProviderCall where
  | register (serviceType : Bytes32) (endpoint : String) (stakeAmount : ℕ)
      (delegateOwnerWallet : Address)
  | deregister (serviceType : Bytes32) (endpoint : String)
  | increaseStake (increaseStakeAmount : ℕ)
  | requestDecreaseStake (decreaseStakeAmount : ℕ)
  | cancelDecreaseStakeRequest (account : Address)
  | decreaseStake
  | updateDelegateOwnerWallet (serviceType : Bytes32) (endpoint : String)
      (updatedDelegateOwnerWallet : Address)
  | updateEndpoint (serviceType : Bytes32) (oldEndpoint newEndpoint : String)
  | requestUpdateDeployerCut (sp : Address) (cut : ℕ)
  | cancelUpdateDeployerCut (sp : Address)
  | updateDeployerCut (sp : Address)
  | updateServiceProviderStake (sp : Address) (amount : ℕ)
  | updateDecreaseStakeLockupDuration (duration : ℕ)
  | updateDeployerCutLockupDuration (duration : ℕ)

/-- Calls of DelegateManagerV2. -/
inductive DelegationCall where
  | delegateStake (targetSP : Address) (amount : ℕ)
  | requestUndelegateStake (target : Address) (amount : ℕ)
  | cancelUndelegateStakeRequest
  | undelegateStake
  | claimRewards (sp : Address)
  | slash (amount : ℕ) (slashAddress : Address)
  | requestRemoveDelegator (sp delegator : Address)
  | cancelRemoveDelegatorRequest (sp delegator : Address)
  | removeDelegator (sp delegator : Address)
  | updateSPMinDelegationAmount (sp : Address) (spMinDelegationAmount : ℕ)
  | updateUndelegateLockupDuration (duration : ℕ)
  | updateMaxDelegators (maxDelegators : ℕ)
  | updateMinDelegationAmount (minDelegationAmount : ℕ)
  | updateRemoveDelegatorLockupDuration (duration : ℕ)
  | updateRemoveDelegatorEvalDuration (duration : ℕ)

/-- What governance reads outside the system: the registry and the code of accounts. -/
structure Environment where
  getContract : Address → Bytes32 → Except String Address
  codeHash : Address → Bytes32

/-- The external functions of the system. -/
inductive Call where
  | token (c : TokenCall)
  | staking (c : StakingCall)
  | claims (c : ClaimsCall)
  | types (c : TypeCall)
  | providers (c : ProviderCall)
  | delegation (c : DelegationCall)
  | governance (environment : Environment) (a : GovernanceV2.Action)

/-! ### What a call does -/

variable (w : Wiring)

variable (msg : Msg) (s : System)

/-- Effect of a token call. -/
def TokenCall.perform (t : ERC20) : TokenCall → Except String ERC20
  | .transfer target amount => t.transfer msg target amount
  | .approve spender amount => t.approve msg spender amount
  | .increaseAllowance spender amount => t.increaseAllowance msg spender amount
  | .decreaseAllowance spender amount => t.decreaseAllowance msg spender amount
  | .transferFrom source target amount => t.transferFrom msg source target amount
  | .mint account amount => t.mint msg account amount
  | .burn amount => t.burn msg amount
  | .burnFrom account amount => t.burnFrom msg account amount
  | .addMinter account => t.addMinter msg account
  | .renounceMinter => t.renounceMinter msg

/-- Effect of a Staking call. -/
def StakingCall.perform : StakingCall → Except String System
  | .stakeRewards amount account => Staking.stakeRewards w msg amount account s
  | .updateClaimHistory amount account => Staking.updateClaimHistory w msg amount account s
  | .slash amount account => Staking.slash w msg amount account s
  | .stakeFor account amount => Staking.stakeFor w msg account amount s
  | .unstakeFor account amount => Staking.unstakeFor w msg account amount s
  | .delegateStakeFor account delegator amount =>
    Staking.delegateStakeFor w msg account delegator amount s
  | .undelegateStakeFor account delegator amount =>
    Staking.undelegateStakeFor w msg account delegator amount s

/-- Effect of a ClaimsManager call. -/
def ClaimsCall.perform : ClaimsCall → Except String System
  | .initiateRound => ClaimsManager.initiateRound w msg s
  | .processClaim claimer locked => Prod.fst <$> ClaimsManager.processClaim w msg claimer locked s
  | .updateFundingAmount amount => ClaimsManager.updateFundingAmount w msg amount s
  | .updateFundingRoundBlockDiff diff => ClaimsManager.updateFundingRoundBlockDiff w msg diff s
  | .updateRecurringCommunityFundingAmount amount =>
    ClaimsManager.updateRecurringCommunityFundingAmount w msg amount s
  | .updateCommunityPoolAddress pool => ClaimsManager.updateCommunityPoolAddress w msg pool s

/-- Effect of a ServiceTypeManager call. -/
def TypeCall.perform (m : ServiceTypeManager) :
    TypeCall → Except String ServiceTypeManager
  | .addServiceType ty min max => m.addServiceType w msg ty min max
  | .removeServiceType ty => m.removeServiceType w msg ty
  | .setServiceVersion ty version => m.setServiceVersion w msg ty version

/-- Effect of a ServiceProviderFactory call. -/
def ProviderCall.perform : ProviderCall → Except String System
  | .register ty endpoint amount wallet =>
    Prod.fst <$> ServiceProviderFactory.register w msg ty endpoint amount wallet s
  | .deregister ty endpoint => Prod.fst <$> ServiceProviderFactory.deregister msg ty endpoint s
  | .increaseStake amount => Prod.fst <$> ServiceProviderFactory.increaseStake w msg amount s
  | .requestDecreaseStake amount =>
    Prod.fst <$> ServiceProviderFactory.requestDecreaseStake msg amount s
  | .cancelDecreaseStakeRequest account =>
    ServiceProviderFactory.cancelDecreaseStakeRequest w msg account s
  | .decreaseStake => Prod.fst <$> ServiceProviderFactory.decreaseStake w msg s
  | .updateDelegateOwnerWallet ty endpoint wallet =>
    ServiceProviderFactory.updateDelegateOwnerWallet msg ty endpoint wallet s
  | .updateEndpoint ty old new =>
    Prod.fst <$> ServiceProviderFactory.updateEndpoint msg ty old new s
  | .requestUpdateDeployerCut sp cut =>
    ServiceProviderFactory.requestUpdateDeployerCut w msg sp cut s
  | .cancelUpdateDeployerCut sp => ServiceProviderFactory.cancelUpdateDeployerCut w msg sp s
  | .updateDeployerCut sp => ServiceProviderFactory.updateDeployerCut w msg sp s
  | .updateServiceProviderStake sp amount =>
    ServiceProviderFactory.updateServiceProviderStake w msg sp amount s
  | .updateDecreaseStakeLockupDuration duration =>
    ServiceProviderFactory.updateDecreaseStakeLockupDuration w msg duration s
  | .updateDeployerCutLockupDuration duration =>
    ServiceProviderFactory.updateDeployerCutLockupDuration w msg duration s

/-- Effect of a DelegateManagerV2 call. -/
def DelegationCall.perform : DelegationCall → Except String System
  | .delegateStake sp amount => Prod.fst <$> DelegateManagerV2.delegateStake w msg sp amount s
  | .requestUndelegateStake sp amount =>
    Prod.fst <$> DelegateManagerV2.requestUndelegateStake msg sp amount s
  | .cancelUndelegateStakeRequest => DelegateManagerV2.cancelUndelegateStakeRequest msg s
  | .undelegateStake => Prod.fst <$> DelegateManagerV2.undelegateStake w msg s
  | .claimRewards sp => DelegateManagerV2.claimRewards w msg sp s
  | .slash amount sp => DelegateManagerV2.slash w msg amount sp s
  | .requestRemoveDelegator sp delegator =>
    DelegateManagerV2.requestRemoveDelegator w msg sp delegator s
  | .cancelRemoveDelegatorRequest sp delegator =>
    DelegateManagerV2.cancelRemoveDelegatorRequest w msg sp delegator s
  | .removeDelegator sp delegator => DelegateManagerV2.removeDelegator w msg sp delegator s
  | .updateSPMinDelegationAmount sp amount =>
    DelegateManagerV2.updateSPMinDelegationAmount msg sp amount s
  | .updateUndelegateLockupDuration duration =>
    DelegateManagerV2.updateUndelegateLockupDuration w msg duration s
  | .updateMaxDelegators maxDelegators =>
    DelegateManagerV2.updateMaxDelegators w msg maxDelegators s
  | .updateMinDelegationAmount amount => DelegateManagerV2.updateMinDelegationAmount w msg amount s
  | .updateRemoveDelegatorLockupDuration duration =>
    DelegateManagerV2.updateRemoveDelegatorLockupDuration w msg duration s
  | .updateRemoveDelegatorEvalDuration duration =>
    DelegateManagerV2.updateRemoveDelegatorEvalDuration w msg duration s

/-- A view called at `account`, which answers only at `contract`. -/
def viewAt {α : Type} (contract account : Address) (answer : Except String α) : Except String α :=
  if account = contract then answer else .error "call to a different contract"

/-- What governance reads when the other contracts are those of the system. -/
def System.world (environment : Environment) : World where
  getContract := environment.getContract
  codeHash := environment.codeHash
  deployerStake account sp :=
    viewAt w.serviceProviderFactory account (.ok (s.spFactory.spDetails sp).deployerStake)
  pendingDecreaseStake account sp :=
    viewAt w.serviceProviderFactory account
      (.ok (s.spFactory.decreaseStakeRequests sp).decreaseAmount)
  totalDelegatorStake account delegator :=
    viewAt w.delegateManager account (.ok (s.delegateManager.delegatorTotalStake delegator))
  pendingUndelegate account delegator :=
    viewAt w.delegateManager account (.ok (s.delegateManager.undelegateRequests delegator).amount)
  totalStakedAt account blockNumber :=
    viewAt w.staking account (s.staking.totalStakedAt blockNumber)

/-- A call that opens no frame. -/
def settled (result : Except String System) : Except String (System × Option Frame) := do
  let s ← result
  return (s, none)

/-- Effect of a call, with the frame it opens. -/
def Call.perform (msg : Msg) (s : System) : Call → Except String (System × Option Frame)
  | .token c => settled do
    let token ← c.perform msg s.token
    return { s with token }
  | .staking c => settled (c.perform w msg s)
  | .claims c => settled (c.perform w msg s)
  | .types c => settled do
    let serviceTypeManager ← c.perform w msg s.serviceTypeManager
    return { s with serviceTypeManager }
  | .providers c => settled (c.perform w msg s)
  | .delegation c => settled (c.perform w msg s)
  | .governance environment a => do
    let (g, frame) ← a.perform (s.world w environment) w.governance msg s.governance
    return ({ s with governance := g }, frame)

theorem settled_eq_ok {x : Except String System} {s' : System} {frame : Option Frame} :
    settled x = .ok (s', frame) ↔ x = .ok s' ∧ frame = none := by
  unfold settled
  simp only [bind_eq_ok, pure_eq_ok, Prod.mk.injEq]
  constructor
  · rintro ⟨_, hx, rfl, rfl⟩
    exact ⟨hx, rfl⟩
  · rintro ⟨hx, rfl⟩
    exact ⟨s', hx, rfl, rfl⟩

/-! ### Runs -/

/-- What can happen to the system. -/
inductive Event where
  | call (msg : Msg) (c : Call)
  | returned

/-- One event. -/
def step (ss : Session System) : Event → Except String (Session System)
  | .call msg c => do
    require (ss.Admits w.Outside w.governance msg) "call cannot arrive"
    let result ← c.perform w msg ss.state
    return ss.next msg result
  | .returned =>
    match ss.frames with
    | [] => .error "no open call"
    | frame :: rest => do
      let governance ← ss.state.governance.finish frame
      return ⟨{ ss.state with governance }, rest, ss.now⟩

section Inversion

variable {w} {ss ss' : Session System} {msg : Msg} {c : Call} {s s' : System}
  {frame : Option Frame}

/-- A call of the token writes the token only. -/
theorem perform_token_eq_ok {c : TokenCall} (h : (Call.token c).perform w msg s = .ok (s', frame)) :
    ∃ token, c.perform msg s.token = .ok token ∧ s' = { s with token } ∧ frame = none := by
  obtain ⟨hcall, rfl⟩ := settled_eq_ok.mp h
  obtain ⟨token, htoken, heq⟩ := bind_eq_ok.mp hcall
  cases heq
  exact ⟨token, htoken, rfl, rfl⟩

/-- A call about service types writes the service types only. -/
theorem perform_types_eq_ok {c : TypeCall} (h : (Call.types c).perform w msg s = .ok (s', frame)) :
    ∃ m, c.perform w msg s.serviceTypeManager = .ok m ∧
      s' = { s with serviceTypeManager := m } ∧ frame = none := by
  obtain ⟨hcall, rfl⟩ := settled_eq_ok.mp h
  obtain ⟨m, htypes, heq⟩ := bind_eq_ok.mp hcall
  cases heq
  exact ⟨m, htypes, rfl, rfl⟩

/-- An action of governance writes governance only. -/
theorem perform_governance_eq_ok {environment : Environment} {a : GovernanceV2.Action}
    (h : (Call.governance environment a).perform w msg s = .ok (s', frame)) :
    ∃ g, a.perform (s.world w environment) w.governance msg s.governance = .ok (g, frame) ∧
      s' = { s with governance := g } := by
  obtain ⟨⟨g, opened⟩, hperform, heq⟩ := bind_eq_ok.mp h
  cases heq
  exact ⟨g, hperform, rfl⟩

/-- Whoever calls is not one of the contracts that call each other. -/
theorem admits_caller (h : ss.Admits w.Outside w.governance msg) : w.Caller msg.sender := by
  rcases h.1 with houtside | ⟨-, hgovernance⟩
  · exact houtside.caller
  · rw [hgovernance]
    exact w.caller_governance

/-- A call that went through. -/
theorem step_call_eq_ok (h : step w ss (.call msg c) = .ok ss') :
    ss.Admits w.Outside w.governance msg ∧
      ∃ result, c.perform w msg ss.state = .ok result ∧ ss' = ss.next msg result := by
  unfold step at h
  simp only [↓require_bind_eq_ok, bind_eq_ok, pure_eq_ok] at h
  obtain ⟨hadmits, result, hperform, rfl⟩ := h
  exact ⟨hadmits, result, hperform, rfl⟩

/-- A call that can arrive goes through when it is performed. -/
theorem step_call_of_ok {result : System × Option Frame}
    (hadmits : ss.Admits w.Outside w.governance msg)
    (hperform : c.perform w msg ss.state = .ok result) :
    step w ss (.call msg c) = .ok (ss.next msg result) := by
  unfold step
  rw [require_bind_eq_ok, hperform]
  exact ⟨hadmits, rfl⟩

/-- A transaction that returned. -/
theorem step_returned_eq_ok (h : step w ss .returned = .ok ss') :
    ∃ frame rest g, ss.frames = frame :: rest ∧ ss.state.governance.finish frame = .ok g ∧
      ss' = ⟨{ ss.state with governance := g }, rest, ss.now⟩ := by
  unfold step at h
  dsimp only at h
  split at h
  · simp at h
  · next frame rest hframes =>
    simp only [bind_eq_ok, pure_eq_ok] at h
    obtain ⟨g, hfinish, rfl⟩ := h
    exact ⟨frame, rest, g, hframes, hfinish, rfl⟩

end Inversion

/-- What the deployer chooses. -/
structure Deployment where
  deployer : Address
  initialSupply : ℕ
  registry : Address
  guardianAddress : Address
  votingPeriod : ℕ
  executionDelay : ℕ
  votingQuorumPercent : ℕ
  maxInProgressProposals : ℕ
  decreaseStakeLockupDuration : ℕ
  deployerCutLockupDuration : ℕ
  undelegateLockupDuration : ℕ
  blockNumber : ℕ

/-- The initialisers in the order of the migrations, and the wiring of governance. The
claims contract and governance become minters. -/
def deploy (p : Deployment) : Except String (Session System) := do
  let token ← (ERC20.genesis w.governance)._mint p.deployer p.initialSupply
  let token ← token._addMinter w.claimsManager
  let governance ← GovernanceV2.initialStorage p.registry p.votingPeriod p.executionDelay
    p.votingQuorumPercent p.maxInProgressProposals p.guardianAddress
  let claimsManager := ClaimsManager.initialStorage
  let spFactory ← ServiceProviderFactory.initialStorage governance claimsManager
    p.decreaseStakeLockupDuration p.deployerCutLockupDuration
  let delegateManager ← DelegateManagerV2.initialStorage governance p.undelegateLockupDuration
  let governance := { governance with
    stakingAddress := w.staking
    serviceProviderFactoryAddress := w.serviceProviderFactory
    delegateManagerAddress := w.delegateManager }
  return {
    state := {
      token
      staking := Staking.initialStorage
      spFactory
      delegateManager
      claimsManager
      serviceTypeManager := ServiceTypeManager.initialStorage
      governance }
    frames := []
    now := p.blockNumber }

variable {w} in
/-- What the initialisers accept, and what they leave. -/
theorem deploy_eq_ok {p : Deployment} {start : Session System} (h : deploy w p = .ok start) :
    p.votingPeriod + p.executionDelay < p.decreaseStakeLockupDuration ∧
      p.votingPeriod + p.executionDelay < p.undelegateLockupDuration ∧
      p.votingPeriod + p.executionDelay < 46523 ∧
      46523 < p.deployerCutLockupDuration ∧
      ∃ token, (ERC20.genesis w.governance)._mint p.deployer p.initialSupply = .ok token ∧
        start = {
          state := {
            token := { token with minters := Function.update token.minters w.claimsManager true }
            staking := Staking.initialStorage
            spFactory := { ServiceProviderFactory.empty with
              decreaseStakeLockupDuration := p.decreaseStakeLockupDuration
              deployerCutLockupDuration := p.deployerCutLockupDuration }
            delegateManager := { DelegateManagerV2.empty with
              maxDelegators := 175
              minDelegationAmount := 100 * 10 ^ 18
              undelegateLockupDuration := p.undelegateLockupDuration
              removeDelegatorLockupDuration := 46523
              removeDelegatorEvalDuration := 6646 }
            claimsManager := ClaimsManager.initialStorage
            serviceTypeManager := ServiceTypeManager.initialStorage
            governance := {
              registry := p.registry
              stakingAddress := w.staking
              serviceProviderFactoryAddress := w.serviceProviderFactory
              delegateManagerAddress := w.delegateManager
              votingPeriod := p.votingPeriod
              executionDelay := p.executionDelay
              votingQuorumPercent := p.votingQuorumPercent
              maxInProgressProposals := p.maxInProgressProposals
              guardianAddress := p.guardianAddress
              lastProposalId := 0
              proposals := fun _ ↦ Proposal.empty
              inProgressProposals := [] } }
          frames := []
          now := p.blockNumber } := by
  obtain ⟨token, hmint, h⟩ := bind_eq_ok.mp h
  simp only [ERC20._addMinter, GovernanceV2.initialStorage, ServiceProviderFactory.initialStorage,
    DelegateManagerV2.initialStorage, ServiceProviderFactory._updateDecreaseStakeLockupDuration,
    ServiceProviderFactory._updateDeployerCutLockupDuration,
    DelegateManagerV2._updateUndelegateLockupDuration,
    DelegateManagerV2._updateRemoveDelegatorLockupDuration, bind_assoc, pure_bind,
    require_bind_eq_ok, add_bind_eq_ok, pure_eq_ok] at h
  obtain ⟨-, -, -, -, -, -, -, -, hdecrease, hcut, -, hundelegate, -, hremove, rfl⟩ := h
  exact ⟨hdecrease, hundelegate, hremove, hcut, token, hmint, rfl⟩

/-- Sessions reachable from a deployment the initialisers accept. -/
def Reachable (ss : Session System) : Prop :=
  ∃ p start es, deploy w p = .ok start ∧ ss = replay (step w) start es

variable {w}

/-- What holds after deployment and is kept by every step holds of every reachable session. -/
theorem Reachable.induction {I : Session System → Prop}
    (hdeploy : ∀ p start, deploy w p = .ok start → I start)
    (hstep : ∀ ss e ss', I ss → step w ss e = .ok ss' → I ss') {ss : Session System}
    (h : Reachable w ss) : I ss := by
  obtain ⟨p, start, es, hp, rfl⟩ := h
  exact replay_invariant' I hstep es (hdeploy p start hp)

theorem Reachable.replay {ss : Session System} (h : Reachable w ss) (es : List Event) :
    Reachable w (replay (step w) ss es) := by
  obtain ⟨p, start, fs, hp, rfl⟩ := h
  exact ⟨p, start, fs ++ es, hp, (replay_append _ _ _ _).symm⟩

theorem Reachable.step {ss ss' : Session System} (h : Reachable w ss) {e : Event}
    (hstep : step w ss e = .ok ss') : Reachable w ss' := by
  have hone := h.replay [e]
  rwa [replay_cons, replay_nil, attempt_of_ok _ hstep] at hone

end System

/-! ### A small deployment -/

namespace Scenario

/-- Endpoints hashed to themselves. -/
scoped instance keccak : Keccak256 := ⟨String, inferInstance, id⟩

/-- Contracts at the first addresses. -/
def wiring : Wiring where
  token := 1
  staking := 2
  serviceProviderFactory := 3
  delegateManager := 4
  claimsManager := 5
  serviceTypeManager := 6
  governance := 7
  distinct := by decide
  nonzero := by decide

/-- An account that holds the supply, and the guardian. -/
def owner : Address := 100

@[inherit_doc owner] def guardian : Address := 101

/-- A voting period of ten blocks, with lockups just long enough. -/
def deployment : Deployment where
  deployer := owner
  initialSupply := 10 ^ 27
  registry := 50
  guardianAddress := guardian
  votingPeriod := 10
  executionDelay := 5
  votingQuorumPercent := 10
  maxInProgressProposals := 20
  decreaseStakeLockupDuration := 16
  deployerCutLockupDuration := 46524
  undelegateLockupDuration := 16
  blockNumber := 1

/-- One contract registered under every key. -/
def environment : Environment := ⟨fun _ _ ↦ .ok 60, fun _ ↦ 0⟩

/-- The session after deployment. -/
def start : Session System := valueOf (deploy wiring deployment) (by decide +kernel)

theorem deploy_start : deploy wiring deployment = .ok start := eq_ok_valueOf _ _

/-- A call by `sender` in a block. -/
def at_ (blockNumber : ℕ) (sender : Address) (c : Call) : Event := .call ⟨sender, blockNumber⟩ c

/-- A setting made by the guardian through governance. -/
def setting (blockNumber : ℕ) (c : Call) : List Event :=
  [at_ blockNumber guardian (.governance environment (.guardianExecuteTransaction 0 0 "set" [])),
    at_ blockNumber wiring.governance c, .returned]

/-- The session after a list of events. -/
def after (es : List Event) : Session System := replay (step wiring) start es

theorem reachable_after (es : List Event) : Reachable wiring (after es) :=
  ⟨deployment, start, es, deploy_start, rfl⟩

/-- A service type, and `owner` with a service of it and ten million tokens staked. -/
def opening : List Event :=
  setting 1 (.types (.addServiceType 1 (10 ^ 23) (10 ^ 26)))
    ++ [at_ 1 owner (.token (.approve wiring.staking (10 ^ 26))),
      at_ 2 owner (.providers (.register 1 "a.service" (10 ^ 25) owner))]

/-- An account that delegates to `owner`. -/
def delegator : Address := 102

/-- A million tokens of `delegator` delegated to `owner`. -/
def delegated : List Event :=
  opening ++ [at_ 2 owner (.token (.transfer delegator (10 ^ 24))),
    at_ 2 delegator (.token (.approve wiring.staking (10 ^ 24))),
    at_ 2 delegator (.delegation (.delegateStake owner (10 ^ 24)))]

end Scenario

end ColivingSpec
