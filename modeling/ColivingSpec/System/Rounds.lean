import ColivingSpec.Lib.Proportional
import ColivingSpec.System.Ledger

/-!
# Funding rounds

A round begins with `initiateRound` and ends with the next one. Within it the only call
that touches claims is `claimRewards`; every other call leaves the round, the claims and
the past of the histories alone. Two results about a round follow: how often it pays a
provider, and how much it pays in all.
-/

namespace ColivingSpec

open Lib DelegateManagerV2

section Rounds

variable [Keccak256] {w : Wiring} {msg : Msg} {s s' mid : System}

/-- Claims, round and the past of the histories stand. -/
structure Quiet (blockNumber : ℕ) (s s' : System) : Prop where
  claims : ∀ a, s'.staking.lastClaimedFor a = s.staking.lastClaimedFor a
  round : s'.claimsManager.currentRound = s.claimsManager.currentRound
  past : ∀ a t, t < blockNumber → (s'.staking.accounts a).stakedHistory.valueAt t
    = (s.staking.accounts a).stakedHistory.valueAt t
  past_total : ∀ t, t < blockNumber → s'.staking.totalStakedHistory.valueAt t
    = s.staking.totalStakedHistory.valueAt t

/-- A call that leaves Staking and the round alone. -/
theorem Quiet.of_eq {blockNumber : ℕ} (hstaking : s'.staking = s.staking)
    (hround : s'.claimsManager.currentRound = s.claimsManager.currentRound) :
    Quiet blockNumber s s' :=
  ⟨fun _ ↦ by rw [hstaking], hround, fun _ _ _ ↦ by rw [hstaking], fun _ _ ↦ by rw [hstaking]⟩

/-- A movement of stake writes no claim and no past block. -/
theorem Moved.quiet {blockNumber stake : ℕ} {sp : Address}
    (h : Moved w blockNumber sp stake s mid) (hstaking : s'.staking = mid.staking)
    (hclaims : s'.claimsManager = mid.claimsManager) :
    Quiet blockNumber s s' ∧ s'.claimsManager = s.claimsManager where
  left :=
    { claims := fun a ↦ by
        simp only [Staking.lastClaimedFor, hstaking, h.unclaimed.claimHistory a]
      round := by rw [hclaims, h.unclaimed.claimsManager]
      past := fun a t ht ↦ by rw [hstaking, h.funds.past a t ht]
      past_total := fun t ht ↦ by rw [hstaking, h.funds.past_total t ht] }
  right := hclaims.trans h.unclaimed.claimsManager

/-- Claims of `sp`. -/
def Event.claims (sp : Address) : Event → Bool
  | .call _ (.delegation (.claimRewards claimer)) => claimer = sp
  | _ => false

/-- What a claim does to tokens, claims and round. -/
structure ClaimOutcome (w : Wiring) (blockNumber : ℕ) (sp : Address) (reward : ℕ)
    (s s' : System) : Prop where
  unclaimed : s.staking.lastClaimedFor sp ≤ s.claimsManager.currentRound.fundedBlock
  reward_le : reward ≤ ClaimsManager.rewardAt sp (DelegateManagerV2.lockedStake sp s) s
  funds : Funds w blockNumber sp s s'
  lastClaimed : s'.staking.lastClaimedFor sp = blockNumber
  lastClaimed_off : ∀ a, a ≠ sp → s'.staking.lastClaimedFor a = s.staking.lastClaimedFor a
  claimsManager : s'.claimsManager = { s.claimsManager with
    currentRound := { s.claimsManager.currentRound with
      totalClaimedInRound := s.claimsManager.currentRound.totalClaimedInRound + reward } }
  supply : s'.token.totalSupply = s.token.totalSupply + reward

theorem DelegateManagerV2.claimRewards_outcome {sp : Address}
    (h : claimRewards w msg sp s = .ok s') :
    ∃ reward, ClaimOutcome w msg.blockNumber sp reward s s' := by
  obtain ⟨mid, reward, hclaimed, hlast, hreward, hresult⟩ := claimRewards_eq_ok h
  have hsame : s'.token = mid.token ∧ s'.staking = mid.staking ∧
      s'.claimsManager = mid.claimsManager := by
    rcases hresult with ⟨-, rfl⟩ | ⟨d, increase, v, hspread⟩
    · exact ⟨rfl, rfl, rfl⟩
    · rw [hspread.result]
      exact ⟨rfl, rfl, rfl⟩
  obtain ⟨htoken, hstaking, hclaims⟩ := hsame
  refine ⟨reward, hlast, hreward, hclaimed.funds.trans (.of_eq htoken hstaking), ?_, fun a ha ↦ ?_,
    hclaims.trans hclaimed.claimsManager, ?_⟩
  · rw [hstaking, hclaimed.lastClaimed]
  · rw [hstaking, hclaimed.lastClaimed_off a ha]
  · rw [htoken, hclaimed.supply]

/-- A call of the delegation contract claims or is quiet. -/
theorem DelegationCall.perform_quiet {c : DelegationCall} (hcaller : w.Caller msg.sender)
    (hc : ∀ sp, c ≠ .claimRewards sp) (h : c.perform w msg s = .ok s') :
    Quiet msg.blockNumber s s' ∧ s'.claimsManager = s.claimsManager := by
  cases c with
  | delegateStake sp amount =>
    obtain ⟨⟨s'', n⟩, hcall, rfl⟩ := map_eq_ok.mp h
    obtain ⟨mid, d, hmoved, -, -, -, rfl⟩ :=
      delegateStake_eq_ok hcaller.ne_staking hcall
    exact hmoved.quiet rfl rfl
  | undelegateStake =>
    obtain ⟨⟨s'', n⟩, hcall, rfl⟩ := map_eq_ok.mp h
    obtain ⟨mid, d, sp, amount, locked, v, -, -, -, -, hmoved, -, -, rfl⟩ :=
      undelegateStake_eq_ok hcall
    exact hmoved.quiet rfl rfl
  | claimRewards sp => exact absurd rfl (hc sp)
  | slash amount sp =>
    obtain ⟨f, mid, d, decrease, v, -, -, -, hmoved, -, -, -, -, rfl⟩ :=
      slash_eq_ok h
    have hquiet := Moved.quiet hmoved (rfl : mid.staking = mid.staking) rfl
    exact ⟨⟨hquiet.1.claims, hquiet.1.round, hquiet.1.past, hquiet.1.past_total⟩, hquiet.2⟩
  | removeDelegator sp delegator =>
    obtain ⟨mid, d, d', amount, -, -, -, -, -, -, hmoved, -, -, rfl⟩ :=
      removeDelegator_eq_ok h
    exact hmoved.quiet rfl rfl
  | _ =>
    obtain ⟨d, rfl, -⟩ := perform_records rfl h
    exact ⟨.of_eq rfl rfl, rfl⟩

/-- A call of the factory is quiet. -/
theorem ProviderCall.perform_quiet {c : ProviderCall} (hcaller : w.Caller msg.sender)
    (h : c.perform w msg s = .ok s') :
    Quiet msg.blockNumber s s' ∧ s'.claimsManager = s.claimsManager := by
  cases c with
  | register ty endpoint amount wallet =>
    obtain ⟨⟨s'', n⟩, hcall, rfl⟩ := map_eq_ok.mp h
    obtain ⟨mid, hmoved, -, -, rfl⟩ :=
      ServiceProviderFactory.register_eq_ok hcaller.ne_staking hcall
    exact hmoved.quiet rfl rfl
  | increaseStake amount =>
    obtain ⟨⟨s'', n⟩, hcall, rfl⟩ := map_eq_ok.mp h
    obtain ⟨mid, details, hmoved, rfl, -⟩ :=
      ServiceProviderFactory.increaseStake_eq_ok hcaller.ne_staking hcall
    exact hmoved.quiet rfl rfl
  | decreaseStake =>
    obtain ⟨⟨s'', n⟩, hcall, rfl⟩ := map_eq_ok.mp h
    obtain ⟨mid, details, amount, -, -, -, -, hmoved, rfl, -⟩ :=
      ServiceProviderFactory.decreaseStake_eq_ok hcall
    exact hmoved.quiet rfl rfl
  | _ =>
    obtain ⟨f, rfl, -⟩ := perform_records hcaller rfl h
    exact ⟨.of_eq rfl rfl, rfl⟩

/-- Every call but a claim and the opening of a round is quiet. -/
theorem Call.perform_quiet {c : Call} {frame : Option Frame} (hcaller : w.Caller msg.sender)
    (hclaim : ∀ sp, c ≠ .delegation (.claimRewards sp)) (hround : c ≠ .claims .initiateRound)
    (h : c.perform w msg s = .ok (s', frame)) :
    Quiet msg.blockNumber s s' ∧
      ((∀ amount, c ≠ .claims (.updateFundingAmount amount)) →
        s'.claimsManager.fundingAmount = s.claimsManager.fundingAmount) := by
  cases c with
  | token c =>
    obtain ⟨token, -, rfl, -⟩ := perform_token_eq_ok h
    exact ⟨.of_eq rfl rfl, fun _ ↦ rfl⟩
  | staking c =>
    exact absurd (settled_eq_ok.mp h).1 (StakingCall.perform_reverts hcaller)
  | claims c =>
    obtain ⟨hcall, -⟩ := settled_eq_ok.mp h
    rcases c.perform_cases hcaller hcall with ⟨rfl, -⟩ | ⟨-, m, rfl, hm, hamount, -⟩
    · exact absurd rfl hround
    · exact ⟨.of_eq rfl hm, fun hne ↦ hamount fun n heq ↦ hne n (congrArg Call.claims heq)⟩
  | types c =>
    obtain ⟨m, -, rfl, -⟩ := perform_types_eq_ok h
    exact ⟨.of_eq rfl rfl, fun _ ↦ rfl⟩
  | providers c =>
    obtain ⟨hcall, -⟩ := settled_eq_ok.mp h
    obtain ⟨hquiet, hclaims⟩ := c.perform_quiet hcaller hcall
    exact ⟨hquiet, fun _ ↦ by rw [hclaims]⟩
  | delegation c =>
    obtain ⟨hcall, -⟩ := settled_eq_ok.mp h
    obtain ⟨hquiet, hclaims⟩ :=
      c.perform_quiet hcaller (fun sp heq ↦ hclaim sp (congrArg Call.delegation heq)) hcall
    exact ⟨hquiet, fun _ ↦ by rw [hclaims]⟩
  | governance environment a =>
    obtain ⟨g, -, rfl⟩ := perform_governance_eq_ok h
    exact ⟨.of_eq rfl rfl, fun _ ↦ rfl⟩

/-! ### Steps of a round -/

variable {ss ss' : Session System} {e : Event} {sp : Address}

/-- The event opens a round and goes through. -/
def OpensRound (w : Wiring) (ss : Session System) (e : Event) : Prop :=
  ∃ msg, e = .call msg (.claims .initiateRound) ∧ Succeeds (step w ss e)

/-- The event changes the funding amount and goes through. -/
def UpdatesFunding (w : Wiring) (ss : Session System) (e : Event) : Prop :=
  ∃ msg amount, e = .call msg (.claims (.updateFundingAmount amount)) ∧ Succeeds (step w ss e)

/-- A step claims, opens a round or is quiet. -/
theorem step_round_cases (h : step w ss e = .ok ss') :
    ss.now ≤ ss'.now ∧
      ((∃ msg claimer reward, e = .call msg (.delegation (.claimRewards claimer)) ∧
          ss'.now = msg.blockNumber ∧
          ClaimOutcome w msg.blockNumber claimer reward ss.state ss'.state) ∨
        OpensRound w ss e ∨
        Quiet ss'.now ss.state ss'.state ∧ (∀ a, e.claims a = false) ∧
          (¬ UpdatesFunding w ss e → ss'.state.claimsManager.fundingAmount
            = ss.state.claimsManager.fundingAmount)) := by
  cases e with
  | returned =>
    obtain ⟨frame, rest, g, -, -, rfl⟩ := step_returned_eq_ok h
    exact ⟨le_rfl, .inr (.inr ⟨.of_eq rfl rfl, fun _ ↦ rfl, fun _ ↦ rfl⟩)⟩
  | call msg c =>
    have hsucceeds : Succeeds (step w ss (.call msg c)) := ⟨_, h⟩
    obtain ⟨hadmits, ⟨s', frame⟩, hperform, rfl⟩ := step_call_eq_ok h
    have hcaller := admits_caller hadmits
    refine ⟨hadmits.2.1, ?_⟩
    by_cases hclaim : ∃ claimer, c = .delegation (.claimRewards claimer)
    · obtain ⟨claimer, rfl⟩ := hclaim
      obtain ⟨hcall, -⟩ := settled_eq_ok.mp hperform
      obtain ⟨reward, houtcome⟩ := claimRewards_outcome hcall
      exact .inl ⟨msg, claimer, reward, rfl, rfl, houtcome⟩
    · by_cases hround : c = .claims .initiateRound
      · subst hround
        exact .inr (.inl ⟨msg, rfl, hsucceeds⟩)
      · have hne : ∀ a, c ≠ .delegation (.claimRewards a) := fun a heq ↦ hclaim ⟨a, heq⟩
        obtain ⟨hquiet, hamount⟩ := Call.perform_quiet hcaller hne hround hperform
        refine .inr (.inr ⟨hquiet, fun a ↦ ?_, fun hupdates ↦ hamount fun n heq ↦ ?_⟩)
        · unfold Event.claims
          split
          · next heq => exact absurd (Event.call.inj heq).2 (hne _)
          · rfl
        · exact hupdates ⟨msg, n, by rw [heq], hsucceeds⟩

/-- What opening a round leaves. -/
theorem opensRound_eq_ok (h : step w ss (.call msg (.claims .initiateRound)) = .ok ss') :
    ss'.now = msg.blockNumber ∧
      ss'.state.claimsManager.currentRound
        = ⟨msg.blockNumber, ss.state.claimsManager.fundingAmount, 0⟩ ∧
      ss'.state.claimsManager.fundingAmount = ss.state.claimsManager.fundingAmount := by
  obtain ⟨-, ⟨s', frame⟩, hperform, rfl⟩ := step_call_eq_ok h
  obtain ⟨hcall, -⟩ := settled_eq_ok.mp hperform
  obtain ⟨-, token, -, -, rfl⟩ := ClaimsManager.initiateRound_eq_ok hcall
  exact ⟨rfl, rfl, rfl⟩

/-! ### How often a round pays -/

/-- The event is a claim of `sp` that mints a nonzero reward. -/
def paysClaim (w : Wiring) (sp : Address) (ss : Session System) (e : Event) : Bool :=
  e.claims sp &&
    ss.state.token.totalSupply < (attempt (step w) ss e).state.token.totalSupply

/-- The event is a claim of `sp` that goes through in the funding block of the round. -/
def claimsInFundingBlock (w : Wiring) (sp : Address) (ss : Session System) : Event → Bool
  | .call msg c => (Event.call msg c).claims sp && (step w ss (.call msg c)).isOk &&
      msg.blockNumber = ss.state.claimsManager.currentRound.fundedBlock
  | .returned => false

/-- After a claim of `sp` that went through in the funding block, `sp` is not claimed for
again; `claimed` tells whether there was one. -/
def ClaimedOnce (w : Wiring) (sp : Address) : Bool → Session System → List Event → Prop
  | _, _, [] => True
  | claimed, ss, e :: es =>
    (claimed = true → e.claims sp = false) ∧
      ClaimedOnce w sp (claimed || claimsInFundingBlock w sp ss e) (attempt (step w) ss e) es

/-- An event that changes nothing or is quiet leaves the round and the claims of `sp`. -/
private theorem attempt_of_not_claims (hround : ¬ OpensRound w ss e) (he : e.claims sp = false) :
    (attempt (step w) ss e).state.claimsManager.currentRound.fundedBlock
        = ss.state.claimsManager.currentRound.fundedBlock ∧
      (attempt (step w) ss e).state.staking.lastClaimedFor sp
        = ss.state.staking.lastClaimedFor sp ∧
      ss.now ≤ (attempt (step w) ss e).now := by
  rcases attempt_cases (step w) ss e with heq | hok
  · rw [heq]
    exact ⟨rfl, rfl, le_rfl⟩
  · obtain ⟨hnow, hcase⟩ := step_round_cases hok
    rcases hcase with ⟨msg, claimer, reward, rfl, -, hclaim⟩ | hopens | ⟨hquiet, -, -⟩
    · have hne : sp ≠ claimer := by
        rintro rfl
        simp [Event.claims] at he
      exact ⟨by rw [hclaim.claimsManager], hclaim.lastClaimed_off sp hne, hnow⟩
    · exact absurd hopens hround
    · exact ⟨by rw [hquiet.round], hquiet.claims sp, hnow⟩

/-- A claim of `sp` that goes through leaves `sp` claimed in its block. -/
private theorem attempt_of_claims (he : e.claims sp = true)
    (h : step w ss e = .ok ss') :
    ∃ msg, ss.state.staking.lastClaimedFor sp
        ≤ ss.state.claimsManager.currentRound.fundedBlock ∧
      ss'.state.claimsManager.currentRound.fundedBlock
        = ss.state.claimsManager.currentRound.fundedBlock ∧
      ss'.state.staking.lastClaimedFor sp = ss'.now ∧ ss.now ≤ ss'.now ∧
      claimsInFundingBlock w sp ss e
        = decide (ss'.now = ss.state.claimsManager.currentRound.fundedBlock) ∧
      e = .call msg (.delegation (.claimRewards sp)) := by
  obtain ⟨hnow, hcase⟩ := step_round_cases h
  rcases hcase with ⟨msg, claimer, reward, rfl, hblock, hclaim⟩ | ⟨msg, rfl, -⟩ | ⟨-, hno, -⟩
  · obtain rfl : claimer = sp := by simpa [Event.claims] using he
    refine ⟨msg, hclaim.unclaimed, by rw [hclaim.claimsManager], ?_, hnow, ?_, rfl⟩
    · rw [hclaim.lastClaimed, hblock]
    · simp [claimsInFundingBlock, Event.claims, h, hblock, Except.isOk, Except.toBool]
  · simp [Event.claims] at he
  · rw [hno sp] at he
    cases he

/-- Once `sp` claimed after the funding block, or must not be claimed for, no claim pays. -/
private theorem occurrences_eq_zero {es : List Event} {claimed : Bool}
    (hround : Along (step w) (fun ss e ↦ ¬ OpensRound w ss e) ss es)
    (honce : ClaimedOnce w sp claimed ss es)
    (hdone : claimed = true ∨ ss.state.claimsManager.currentRound.fundedBlock
      < ss.state.staking.lastClaimedFor sp) :
    occurrences (step w) (paysClaim w sp) ss es = 0 := by
  induction es generalizing ss claimed with
  | nil => rfl
  | cons e es ih =>
    obtain ⟨hopen, hround⟩ := hround
    obtain ⟨hno, honce⟩ := honce
    by_cases he : e.claims sp = true
    · -- The guard of `processClaim` stops the claim, the event has no effect.
      have hlast := hdone.resolve_left fun hclaimed ↦ by simp [hno hclaimed] at he
      have hstays : attempt (step w) ss e = ss := by
        rcases attempt_cases (step w) ss e with heq | hok
        · exact heq
        · obtain ⟨msg, hle, -⟩ := attempt_of_claims he hok
          omega
      have hpays : paysClaim w sp ss e = false := by simp [paysClaim, hstays]
      simp only [occurrences_cons, hpays, Bool.toNat_false, Nat.zero_add]
      exact ih hround honce (.inr (by rw [hstays]; exact hlast))
    · have he : e.claims sp = false := by simpa using he
      have hpays : paysClaim w sp ss e = false := by simp [paysClaim, he]
      obtain ⟨hfunded, hlast, -⟩ := attempt_of_not_claims hopen he
      simp only [occurrences_cons, hpays, Bool.toNat_false, Nat.zero_add]
      refine ih hround honce ?_
      rcases hdone with hclaimed | hdone
      · exact .inl (by rw [hclaimed, Bool.true_or])
      · exact .inr (by rw [hfunded, hlast]; exact hdone)

/-- Between two openings of a round at most one claim of `sp` pays, when `sp` is not claimed
for again after a claim in the funding block itself. -/
theorem paid_claims_le_one {msg : Msg} {es : List Event} (hopen : step w ss
      (.call msg (.claims .initiateRound)) = .ok ss')
    (hround : Along (step w) (fun ss e ↦ ¬ OpensRound w ss e) ss' es)
    (honce : ClaimedOnce w sp false ss' es) :
    occurrences (step w) (paysClaim w sp) ss' es ≤ 1 := by
  obtain ⟨hnow, hfunded, -⟩ := opensRound_eq_ok hopen
  have hle : ss'.state.claimsManager.currentRound.fundedBlock ≤ ss'.now := by
    rw [hfunded, hnow]
  clear hopen hnow hfunded
  induction es generalizing ss' with
  | nil => exact Nat.zero_le _
  | cons e es ih =>
    obtain ⟨hopen, hround⟩ := hround
    obtain ⟨-, honce⟩ := honce
    by_cases he : e.claims sp = true
    · cases hstep : step w ss' e with
      | error message =>
        have hstays : attempt (step w) ss' e = ss' := attempt_of_error _ hstep
        have hpays : paysClaim w sp ss' e = false := by simp [paysClaim, hstays]
        have hflag : claimsInFundingBlock w sp ss' e = false := by
          cases e with
          | returned => rfl
          | call msg c => simp [claimsInFundingBlock, hstep, Except.isOk, Except.toBool]
        simp only [occurrences_cons, hpays, Bool.toNat_false, Nat.zero_add]
        rw [hstays] at hround ⊢
        rw [hflag, hstays] at honce
        exact ih hround honce hle
      | ok next =>
        have hattempt : attempt (step w) ss' e = next := attempt_of_ok _ hstep
        obtain ⟨msg, -, hfunded, hlast, hnow, hflag, -⟩ := attempt_of_claims he hstep
        have hrest : occurrences (step w) (paysClaim w sp) next es = 0 := by
          rw [hattempt] at hround honce
          refine occurrences_eq_zero hround honce ?_
          by_cases hblock : next.now = ss'.state.claimsManager.currentRound.fundedBlock
          · exact .inl (by rw [hflag]; simpa using hblock)
          · refine .inr ?_
            omega
        rw [occurrences_cons, hattempt, hrest, Nat.add_zero]
        exact Bool.toNat_le _
    · have he : e.claims sp = false := by simpa using he
      have hpays : paysClaim w sp ss' e = false := by simp [paysClaim, he]
      have hflag : claimsInFundingBlock w sp ss' e = false := by
        cases e with
        | returned => rfl
        | call msg c => simp [claimsInFundingBlock, he]
      obtain ⟨hfunded, -, hstep⟩ := attempt_of_not_claims hopen he
      simp only [occurrences_cons, hpays, Bool.toNat_false, Nat.zero_add]
      rw [hflag] at honce
      exact ih hround honce (by rw [hfunded]; omega)

end Rounds

namespace Scenario

/-- A round opened by `owner` long after staking, and a claim in the same block. -/
def fundedAt : Event := at_ 50000 owner (.claims .initiateRound)

@[inherit_doc fundedAt] def claimIn (blockNumber : ℕ) : Event :=
  at_ blockNumber owner (.delegation (.claimRewards owner))

end Scenario

open Scenario in
/-- A provider claims twice in the funding block and is paid twice: the checkpoint of the
first claim does not lie after `fundedBlock`. -/
theorem paid_claims_twice : ¬ ∀ (ss : Session System) (msg : Msg) (ss' : Session System)
      (es : List Event) (sp : Address), Reachable wiring ss →
      step wiring ss (.call msg (.claims .initiateRound)) = .ok ss' →
      Along (step wiring) (fun ss e ↦ ¬ OpensRound wiring ss e) ss' es →
      occurrences (step wiring) (paysClaim wiring sp) ss' es ≤ 1 := by
  intro h
  have hopen : (step wiring (after opening) fundedAt).isOk = true := by decide +kernel
  have hround : Along (step wiring) (fun ss e ↦ ¬ OpensRound wiring ss e)
      (attempt (step wiring) (after opening) fundedAt) [claimIn 50000, claimIn 50000] := by
    refine ⟨?_, ?_, trivial⟩ <;> rintro ⟨msg, heq, -⟩ <;> cases heq
  have htwice : occurrences (step wiring) (paysClaim wiring owner)
      (attempt (step wiring) (after opening) fundedAt) [claimIn 50000, claimIn 50000] = 2 := by
    decide +kernel
  have hle := h _ _ _ _ owner (reachable_after opening) (eq_ok_attempt _ hopen) hround
  exact absurd (htwice.ge.trans hle) (by decide)

open Scenario in
theorem paid_claims_le_one_opening :
    occurrences (step wiring) (paysClaim wiring owner)
      (attempt (step wiring) (after opening) fundedAt) [claimIn 50001, claimIn 50002] ≤ 1 := by
  have hopen : (step wiring (after opening) fundedAt).isOk = true := by decide +kernel
  have hlater : claimsInFundingBlock wiring owner (attempt (step wiring) (after opening) fundedAt)
      (claimIn 50001) = false := by decide +kernel
  refine paid_claims_le_one (eq_ok_attempt _ hopen) ?_ ?_
  · refine ⟨?_, ?_, trivial⟩ <;> rintro ⟨msg, heq, -⟩ <;> cases heq
  · simp [ClaimedOnce, hlater]

section Funding

variable [Keccak256] {w : Wiring} {ss ss' : Session System} {e : Event}

/-! ### How much a round pays -/

/-- What a claim of any provider mints. -/
def mintedByClaim (w : Wiring) (ss : Session System) : Event → ℕ
  | .call msg (.delegation (.claimRewards sp)) =>
    (attempt (step w) ss (.call msg (.delegation (.claimRewards sp)))).state.token.totalSupply
      - ss.state.token.totalSupply
  | _ => 0

/-- The event claims in a block up to the funding block, and goes through. -/
def ClaimsEarly (w : Wiring) (ss : Session System) (e : Event) : Prop :=
  ∃ msg sp, e = .call msg (.delegation (.claimRewards sp)) ∧ Succeeds (step w ss e) ∧
    msg.blockNumber ≤ ss.state.claimsManager.currentRound.fundedBlock

/-- Share of `a` in the funds of the round, by the stakes at the funding block. -/
def shareAt (s : System) (a : Address) : ℕ :=
  (s.staking.accounts a).stakedHistory.valueAt s.claimsManager.currentRound.fundedBlock
      * s.claimsManager.currentRound.fundedAmount
    / s.staking.totalStakedHistory.valueAt s.claimsManager.currentRound.fundedBlock

/-- That share once `a` has claimed after the funding block. -/
def claimedShare (s : System) (a : Address) : ℕ :=
  if s.claimsManager.currentRound.fundedBlock < s.staking.lastClaimedFor a then shareAt s a else 0

/-- The round has paid at most the shares of those who claimed in it; before the funding
block is over it has paid nothing. -/
structure PaidShares (now : ℕ) (s : System) : Prop where
  fundedBlock_le : s.claimsManager.currentRound.fundedBlock ≤ now
  fundingAmount : s.claimsManager.fundingAmount = s.claimsManager.currentRound.fundedAmount
  unpaid : now ≤ s.claimsManager.currentRound.fundedBlock →
    s.claimsManager.currentRound.totalClaimedInRound = 0
  paid : s.claimsManager.currentRound.totalClaimedInRound ≤ ∑ a, claimedShare s a

/-- The shares stand where the funding block is past. -/
private theorem shareAt_eq {s s' : System}
    (hfunded : s'.claimsManager.currentRound.fundedBlock = s.claimsManager.currentRound.fundedBlock)
    (hamount : s'.claimsManager.currentRound.fundedAmount
      = s.claimsManager.currentRound.fundedAmount) {blockNumber : ℕ}
    (hlate : s.claimsManager.currentRound.fundedBlock < blockNumber)
    (hpast : ∀ a t, t < blockNumber → (s'.staking.accounts a).stakedHistory.valueAt t
      = (s.staking.accounts a).stakedHistory.valueAt t)
    (hall : ∀ t, t < blockNumber → s'.staking.totalStakedHistory.valueAt t
      = s.staking.totalStakedHistory.valueAt t) (a : Address) : shareAt s' a = shareAt s a := by
  unfold shareAt
  rw [hfunded, hamount, hpast a _ hlate, hall _ hlate]

/-- A claim adds its reward to what the round has paid. -/
private theorem PaidShares.claim {blockNumber reward now : ℕ} {sp : Address} {s s' : System}
    (h : PaidShares now s) (hs : s.staking.Consistent now)
    (hclaim : ClaimOutcome w blockNumber sp reward s s')
    (hlate : s.claimsManager.currentRound.fundedBlock < blockNumber) :
    PaidShares blockNumber s' := by
  have hfunded : s'.claimsManager.currentRound.fundedBlock
      = s.claimsManager.currentRound.fundedBlock := by rw [hclaim.claimsManager]
  have hamount : s'.claimsManager.currentRound.fundedAmount
      = s.claimsManager.currentRound.fundedAmount := by rw [hclaim.claimsManager]
  have htotal : s'.claimsManager.currentRound.totalClaimedInRound
      = s.claimsManager.currentRound.totalClaimedInRound + reward := by rw [hclaim.claimsManager]
  have hshare := shareAt_eq hfunded hamount hlate hclaim.funds.past hclaim.funds.past_total
  have hreward : reward ≤ shareAt s sp := by
    refine hclaim.reward_le.trans ?_
    unfold ClaimsManager.rewardAt shareAt
    dsimp only
    rw [(hs.own sp).sorted.get_eq_valueAt, hs.all.sorted.get_eq_valueAt, h.fundingAmount]
    exact Nat.div_le_div_right (Nat.mul_le_mul_right _ (Nat.sub_le _ _))
  have hbefore : claimedShare s sp = 0 := if_neg hclaim.unclaimed.not_gt
  have hafter : claimedShare s' sp = shareAt s sp := by
    rw [claimedShare, hfunded, hclaim.lastClaimed, if_pos hlate, hshare]
  have hsum : ∑ a, claimedShare s' a = ∑ a, claimedShare s a + shareAt s sp := by
    have hmoved := sum_add_eq_of_off (claimedShare s) (claimedShare s') sp fun a ha ↦ by
      rw [claimedShare, claimedShare, hfunded, hclaim.lastClaimed_off a ha, hshare]
    rwa [hbefore, hafter, Nat.add_zero] at hmoved
  refine ⟨?_, ?_, fun hle ↦ ?_, ?_⟩
  · rw [hfunded]
    exact hlate.le
  · rw [hclaim.claimsManager]
    exact h.fundingAmount
  · rw [hfunded] at hle
    omega
  · rw [htotal, hsum]
    exact Nat.add_le_add h.paid hreward

/-- A quiet call pays nothing. -/
private theorem PaidShares.quiet {now later : ℕ} {s s' : System} (h : PaidShares now s)
    (hle : now ≤ later) (hquiet : Quiet later s s')
    (hamount : s'.claimsManager.fundingAmount = s.claimsManager.fundingAmount) :
    PaidShares later s' := by
  refine ⟨?_, ?_, fun hblock ↦ ?_, ?_⟩
  · rw [hquiet.round]
    exact h.fundedBlock_le.trans hle
  · rw [hquiet.round, hamount, h.fundingAmount]
  · rw [hquiet.round] at hblock ⊢
    exact h.unpaid (hle.trans hblock)
  · rw [hquiet.round]
    by_cases hlate : s.claimsManager.currentRound.fundedBlock < later
    · refine h.paid.trans_eq (Finset.sum_congr rfl fun a _ ↦ ?_)
      rw [claimedShare, claimedShare, hquiet.round, hquiet.claims a,
        shareAt_eq (congrArg Round.fundedBlock hquiet.round)
          (congrArg Round.fundedAmount hquiet.round) hlate hquiet.past hquiet.past_total a]
    · rw [h.unpaid (by omega)]
      exact Nat.zero_le _

/-- The conditions on a round: no other is opened, its amount stands, and claims come after
the funding block. -/
def OrdinaryRound (w : Wiring) (ss : Session System) (e : Event) : Prop :=
  ¬ OpensRound w ss e ∧ ¬ UpdatesFunding w ss e ∧ ¬ ClaimsEarly w ss e

/-- One step of a round pays within the shares, and what it pays is what claims mint. -/
private theorem step_paidShares (hs : Accounted w ss.now ss.state)
    (hpaid : PaidShares ss.now ss.state) (hordinary : OrdinaryRound w ss e)
    (h : step w ss e = .ok ss') :
    PaidShares ss'.now ss'.state ∧
      ss'.state.claimsManager.currentRound.totalClaimedInRound
        = ss.state.claimsManager.currentRound.totalClaimedInRound + mintedByClaim w ss e ∧
      ss'.state.claimsManager.currentRound.fundedAmount
        = ss.state.claimsManager.currentRound.fundedAmount := by
  obtain ⟨hopens, hupdates, hearly⟩ := hordinary
  have hattempt : attempt (step w) ss e = ss' := attempt_of_ok _ h
  obtain ⟨hnow, hcase⟩ := step_round_cases h
  rcases hcase with ⟨msg, sp, reward, rfl, hblock, hclaim⟩ | hopened | ⟨hquiet, hno, hamount⟩
  · have hlate : ss.state.claimsManager.currentRound.fundedBlock < msg.blockNumber := by
      by_contra hle
      exact hearly ⟨msg, sp, rfl, ⟨_, h⟩, by omega⟩
    have hminted : mintedByClaim w ss (.call msg (.delegation (.claimRewards sp))) = reward := by
      simp only [mintedByClaim, hattempt, hclaim.supply]
      omega
    refine ⟨hblock ▸ hpaid.claim hs.histories hclaim hlate, ?_, ?_⟩
    · rw [hclaim.claimsManager, hminted]
    · rw [hclaim.claimsManager]
  · exact absurd hopened hopens
  · have hminted : mintedByClaim w ss e = 0 := by
      unfold mintedByClaim
      split
      · next msg sp => simpa [Event.claims] using hno sp
      · rfl
    refine ⟨hpaid.quiet hnow hquiet (hamount hupdates), ?_, ?_⟩
    · rw [hquiet.round, hminted, Nat.add_zero]
    · rw [hquiet.round]

/-- Along a round what claims mint adds up to `totalClaimedInRound`, within the shares. -/
private theorem replay_paidShares {es : List Event} (hreach : Reachable w ss)
    (hpaid : PaidShares ss.now ss.state) (hes : Along (step w) (OrdinaryRound w) ss es) :
    PaidShares (replay (step w) ss es).now (replay (step w) ss es).state ∧
      (replay (step w) ss es).state.claimsManager.currentRound.totalClaimedInRound
        = ss.state.claimsManager.currentRound.totalClaimedInRound
          + accumulated (step w) (mintedByClaim w) ss es ∧
      (replay (step w) ss es).state.claimsManager.currentRound.fundedAmount
        = ss.state.claimsManager.currentRound.fundedAmount := by
  induction es generalizing ss with
  | nil => exact ⟨hpaid, rfl, rfl⟩
  | cons e es ih =>
    obtain ⟨hordinary, hes⟩ := hes
    rw [replay_cons, accumulated]
    cases hstep : step w ss e with
    | error reason =>
      have hstays : attempt (step w) ss e = ss := attempt_of_error _ hstep
      have hminted : mintedByClaim w ss e = 0 := by
        unfold mintedByClaim
        split
        · next msg sp => rw [hstays, Nat.sub_self]
        · rfl
      rw [hstays] at hes ⊢
      rw [hminted, Nat.zero_add]
      exact ih hreach hpaid hes
    | ok next =>
      have hattempt : attempt (step w) ss e = next := attempt_of_ok _ hstep
      obtain ⟨hnext, htotal, hamount⟩ := step_paidShares hreach.accounted hpaid hordinary hstep
      rw [hattempt] at hes ⊢
      obtain ⟨hend, htotals, hamounts⟩ := ih (hreach.step hstep) hnext hes
      exact ⟨hend, by rw [htotals, htotal, Nat.add_assoc], hamounts.trans hamount⟩

/-- A round whose amount stands and whose claims come after its funding block mints for
claims, in all, at most the amount it was funded with. -/
theorem totalClaimed_le_fundedAmount {msg : Msg} {es : List Event} (hreach : Reachable w ss)
    (hopen : step w ss (.call msg (.claims .initiateRound)) = .ok ss')
    (hes : Along (step w) (OrdinaryRound w) ss' es) :
    (replay (step w) ss' es).state.claimsManager.currentRound.totalClaimedInRound
        = accumulated (step w) (mintedByClaim w) ss' es ∧
      (replay (step w) ss' es).state.claimsManager.currentRound.totalClaimedInRound
        ≤ ss'.state.claimsManager.currentRound.fundedAmount := by
  have hreach' := hreach.step hopen
  obtain ⟨hnow, hround, hamount⟩ := opensRound_eq_ok hopen
  have hstart : PaidShares ss'.now ss'.state := by
    refine ⟨?_, ?_, fun _ ↦ ?_, ?_⟩
    · rw [hround, hnow]
    · rw [hround, hamount]
    · rw [hround]
    · rw [hround]
      exact Nat.zero_le _
  obtain ⟨hend, htotal, hfunded⟩ := replay_paidShares hreach' hstart hes
  have hagree := (hreach'.replay es).accounted.histories.agree
    (replay (step w) ss' es).state.claimsManager.currentRound.fundedBlock
  refine ⟨?_, ?_⟩
  · rw [htotal, hround, Nat.zero_add]
  · calc (replay (step w) ss' es).state.claimsManager.currentRound.totalClaimedInRound
        ≤ ∑ a, claimedShare (replay (step w) ss' es).state a := hend.paid
      _ ≤ ∑ a, shareAt (replay (step w) ss' es).state a := by
        refine Finset.sum_le_sum fun a _ ↦ ?_
        unfold claimedShare
        split
        · exact le_rfl
        · exact Nat.zero_le _
      _ ≤ (replay (step w) ss' es).state.claimsManager.currentRound.fundedAmount :=
        sum_share_le _ _ _ _ hagree.le
      _ = ss'.state.claimsManager.currentRound.fundedAmount := hfunded

end Funding

open Scenario in
theorem totalClaimed_le_fundedAmount_opening :
    (replay (step wiring) (attempt (step wiring) (after opening) fundedAt)
        [claimIn 50001]).state.claimsManager.currentRound.totalClaimedInRound
      ≤ 1342465753420000000000000 := by
  have hopen : (step wiring (after opening) fundedAt).isOk = true := by decide +kernel
  have hround : (attempt (step wiring) (after opening) fundedAt).state.claimsManager.currentRound
      = ⟨50000, 1342465753420000000000000, 0⟩ := (opensRound_eq_ok (eq_ok_attempt _ hopen)).2.1
  have hes : Along (step wiring) (OrdinaryRound wiring)
      (attempt (step wiring) (after opening) fundedAt) [claimIn 50001] := by
    refine ⟨⟨?_, ?_, ?_⟩, trivial⟩
    · rintro ⟨msg, heq, -⟩
      cases heq
    · rintro ⟨msg, amount, heq, -⟩
      cases heq
    · rintro ⟨msg, sp, heq, -, hle⟩
      cases heq
      exact absurd hle (by decide)
  have hle := (totalClaimed_le_fundedAmount (reachable_after opening) (eq_ok_attempt _ hopen)
    hes).2
  exact hle.trans_eq (congrArg Round.fundedAmount hround)

end ColivingSpec
