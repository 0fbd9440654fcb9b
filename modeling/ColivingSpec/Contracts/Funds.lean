import ColivingSpec.Contracts.ClaimsManager
import ColivingSpec.Contracts.StakingRecords

/-!
# Stake and the tokens behind it

Every operation that moves stake moves the record of one account, the total and the
custody of tokens together. `Funds` says so in terms of the state before and after;
it composes, and the movements of Staking and the payment of a claim are instances.
-/

namespace ColivingSpec

open Lib Staking

variable [Keccak256]

/-- Only `account` moves, by the same amount in its record, in the total and in custody,
and no block before `blockNumber` reads differently. -/
structure Funds (w : Wiring) (blockNumber : ℕ) (account : Address) (s s' : System) : Prop where
  sound : s.token.Sound w.staking w.claimsManager → s'.token.Sound w.staking w.claimsManager
  consistent : ∀ {now : ℕ}, now ≤ blockNumber → s.staking.Consistent now →
    s'.staking.Consistent blockNumber
  staked_off : ∀ a, a ≠ account → s'.staking.totalStakedFor a = s.staking.totalStakedFor a
  total : s'.staking.totalStaked + s.staking.totalStakedFor account
    = s.staking.totalStaked + s'.staking.totalStakedFor account
  custody : s.token.balances w.staking + s'.staking.totalStakedFor account
    ≤ s'.token.balances w.staking + s.staking.totalStakedFor account
  past : ∀ a t, t < blockNumber → (s'.staking.accounts a).stakedHistory.valueAt t
    = (s.staking.accounts a).stakedHistory.valueAt t
  past_total : ∀ t, t < blockNumber → s'.staking.totalStakedHistory.valueAt t
    = s.staking.totalStakedHistory.valueAt t

namespace Funds

variable {w : Wiring} {blockNumber : ℕ} {account : Address} {s s' s'' : System}

/-- Nothing moves where token and staking stay. -/
theorem of_eq (htoken : s'.token = s.token) (hstaking : s'.staking = s.staking) :
    Funds w blockNumber account s s' where
  sound h := htoken ▸ h
  consistent hle h := hstaking ▸ h.mono hle
  staked_off a _ := by rw [hstaking]
  total := by rw [hstaking]
  custody := by rw [hstaking, htoken]
  past a t _ := by rw [hstaking]
  past_total t _ := by rw [hstaking]

theorem trans (h : Funds w blockNumber account s s') (h' : Funds w blockNumber account s' s'') :
    Funds w blockNumber account s s'' where
  sound hs := h'.sound (h.sound hs)
  consistent hle hs := h'.consistent le_rfl (h.consistent hle hs)
  staked_off a ha := (h'.staked_off a ha).trans (h.staked_off a ha)
  total := by
    have hfirst := h.total
    have hsecond := h'.total
    omega
  custody := by
    have hfirst := h.custody
    have hsecond := h'.custody
    omega
  past a t ht := (h'.past a t ht).trans (h.past a t ht)
  past_total t ht := (h'.past_total t ht).trans (h.past_total t ht)

/-- A recorded movement with a matching movement of tokens. -/
private theorem of_recorded {staking : Staking} {token : ERC20} {stake total : ℕ}
    (hrec : Recorded blockNumber account stake total s.staking staking)
    (hsame : total + s.staking.totalStakedFor account = s.staking.totalStaked + stake)
    (hsound : s.token.Sound w.staking w.claimsManager → token.Sound w.staking w.claimsManager)
    (hcustody : s.token.balances w.staking + stake
      ≤ token.balances w.staking + s.staking.totalStakedFor account) :
    Funds w blockNumber account s { s with staking, token } where
  sound := hsound
  consistent hle h := h.recorded hle hrec hsame
  staked_off a ha := hrec.totalStakedFor_of_ne ha
  total := by
    rw [hrec.totalStaked_eq, hrec.totalStakedFor_self]
    exact hsame
  custody := by
    rw [hrec.totalStakedFor_self]
    exact hcustody
  past a t ht := by
    by_cases ha : a = account
    · subst ha
      rw [History.add_valueAt hrec.own, if_neg (by omega)]
    · rw [hrec.others a ha]
  past_total t ht := by
    rw [History.add_valueAt hrec.all, if_neg (by omega)]

end Funds

/-- What a call leaves alone when it neither claims nor opens a round. -/
structure Unclaimed (s s' : System) : Prop where
  claimHistory : ∀ a, (s'.staking.accounts a).claimHistory = (s.staking.accounts a).claimHistory
  claimsManager : s'.claimsManager = s.claimsManager

theorem Unclaimed.of_eq {s s' : System} (hstaking : s'.staking = s.staking)
    (hclaims : s'.claimsManager = s.claimsManager) : Unclaimed s s' :=
  ⟨fun _ ↦ by rw [hstaking], hclaims⟩

/-- The contracts a movement of stake does not write. -/
structure SameRecords (s s' : System) : Prop where
  spFactory : s'.spFactory = s.spFactory
  delegateManager : s'.delegateManager = s.delegateManager
  serviceTypeManager : s'.serviceTypeManager = s.serviceTypeManager
  governance : s'.governance = s.governance

/-- What a movement of `account` to `stake` leaves. -/
structure Moved (w : Wiring) (blockNumber : ℕ) (account : Address) (stake : ℕ) (s s' : System) :
    Prop where
  funds : Funds w blockNumber account s s'
  unclaimed : Unclaimed s s'
  records : SameRecords s s'
  stake : s'.staking.totalStakedFor account = stake

namespace Staking

variable {w : Wiring} {msg : Msg} {account source target : Address} {amount : ℕ} {s s' : System}

/-- Stake comes in from an account other than Staking. -/
theorem _stakeFor_moved (hsource : source ≠ w.staking)
    (h : _stakeFor w msg account source amount s = .ok s') :
    Moved w msg.blockNumber account (s.staking.totalStakedFor account + amount) s s' := by
  obtain ⟨staking, token, -, hrec, htoken, rfl⟩ := _stakeFor_eq_ok h
  have hcustody := ERC20.transferFrom_balance_target htoken hsource.symm
  refine ⟨Funds.of_recorded hrec (by omega) (ERC20.transferFrom_sound htoken) (by omega),
    ⟨hrec.claims, rfl⟩, ⟨rfl, rfl, rfl, rfl⟩, hrec.totalStakedFor_self⟩

/-- Stake is paid out. -/
theorem _unstakeFor_moved (h : _unstakeFor w msg account target amount s = .ok s') :
    0 < amount ∧ amount ≤ s.staking.totalStakedFor account ∧
      Moved w msg.blockNumber account (s.staking.totalStakedFor account - amount) s s' := by
  obtain ⟨staking, token, hpos, hle, hleTotal, hrec, htoken, rfl⟩ := _unstakeFor_eq_ok h
  have hcustody := ERC20._transfer_balance_source htoken
  exact ⟨hpos, hle, Funds.of_recorded hrec (by omega) (ERC20._transfer_sound htoken) (by omega),
    ⟨hrec.claims, rfl⟩, ⟨rfl, rfl, rfl, rfl⟩, hrec.totalStakedFor_self⟩

/-- Stake is burned. -/
theorem _burnFor_moved (h : _burnFor w msg account amount s = .ok s') :
    0 < amount ∧ amount ≤ s.staking.totalStakedFor account ∧
      Moved w msg.blockNumber account (s.staking.totalStakedFor account - amount) s s' := by
  obtain ⟨staking, token, hpos, hle, hleTotal, hrec, htoken, rfl⟩ := _burnFor_eq_ok h
  have hcustody := ERC20._burn_balance htoken
  exact ⟨hpos, hle, Funds.of_recorded hrec (by omega) (ERC20._burn_sound htoken) (by omega),
    ⟨hrec.claims, rfl⟩, ⟨rfl, rfl, rfl, rfl⟩, hrec.totalStakedFor_self⟩

/-- A slash burns stake. -/
theorem slash_moved (h : slash w msg amount account s = .ok s') :
    Moved w msg.blockNumber account (s.staking.totalStakedFor account - amount) s s' := by
  unfold slash at h
  simp only [↓require_bind_eq_ok] at h
  obtain ⟨-, -, hmoved⟩ := _burnFor_moved h.2
  exact hmoved

end Staking

/-! ### Claims -/

/-- What processing a claim of `sp` for `reward` leaves. -/
structure Claimed (w : Wiring) (blockNumber : ℕ) (sp : Address) (reward : ℕ) (s s' : System) :
    Prop where
  funds : Funds w blockNumber sp s s'
  records : SameRecords s s'
  stake : s'.staking.totalStakedFor sp = s.staking.totalStakedFor sp + reward
  lastClaimed : s'.staking.lastClaimedFor sp = blockNumber
  lastClaimed_off : ∀ a, a ≠ sp → s'.staking.lastClaimedFor a = s.staking.lastClaimedFor a
  claimsManager : s'.claimsManager = { s.claimsManager with
    currentRound := { s.claimsManager.currentRound with
      totalClaimedInRound := s.claimsManager.currentRound.totalClaimedInRound + reward } }
  supply : s'.token.totalSupply = s.token.totalSupply + reward

namespace ClaimsManager

variable {w : Wiring} {msg : Msg} {sp : Address} {reward locked : ℕ} {s s' : System}

/-- A claim checkpoint alone moves nothing. -/
private theorem funds_addClaim {staking : Staking} {amount : ℕ}
    (h : s.staking.addClaim msg.blockNumber sp amount = .ok staking) :
    Funds w msg.blockNumber sp s { s with staking } where
  sound := id
  consistent hle hs := hs.addClaim hle h
  staked_off a _ := addClaim_totalStakedFor h a
  total := by
    simp only [addClaim_totalStakedFor h, addClaim_totalStaked h]
  custody := by simp only [addClaim_totalStakedFor h, le_refl]
  past a t _ := by simp only [(addClaim_eq_ok h).2.2.1 a]
  past_total t _ := by simp only [(addClaim_eq_ok h).2.1]

/-- New tokens of the claims contract move nothing. -/
private theorem funds_mint_approve {minted approved : ERC20} {account spender : Address}
    {amount : ℕ} (hmint : s.token._mint account reward = .ok minted)
    (happrove : minted._approve w.claimsManager spender amount = .ok approved) :
    Funds w msg.blockNumber sp s { s with token := approved } where
  sound ht := ERC20._approve_sound happrove (.inl w.claimsManager_ne_staking)
    (ERC20._mint_sound hmint ht)
  consistent hle h := h.mono hle
  staked_off _ _ := rfl
  total := rfl
  custody := by
    rw [ERC20._approve_balances happrove]
    exact Nat.add_le_add_right (ERC20._mint_balance_le hmint w.staking) _
  past _ _ _ := rfl
  past_total _ _ := rfl

/-- Paying a reward mints it and stakes it for the claimer. -/
theorem payClaim_claimed {r : ℕ} (h : payClaim w msg sp reward s = .ok (s', r)) :
    r = reward ∧ 0 < reward ∧ Claimed w msg.blockNumber sp reward s s' := by
  unfold payClaim at h
  simp only [↓add_bind_eq_ok, bind_eq_ok, pure_eq_ok] at h
  obtain ⟨minted, hmint, approved, happrove, mid, hrewards, -, heq⟩ := h
  replace hmint := ERC20.mint_eq_mint hmint
  unfold stakeRewards updateClaimHistory at hrewards
  simp only [↓require_bind_eq_ok, bind_eq_ok, pure_eq_ok] at hrewards
  obtain ⟨-, moved, hstake, -, staking, hadd, rfl⟩ := hrewards
  obtain ⟨staked, token, hpos, hrec, htoken, hmid⟩ := Staking._stakeFor_eq_ok hstake
  have hmoved := Staking._stakeFor_moved w.claimsManager_ne_staking hstake
  subst hmid
  obtain ⟨rfl, rfl⟩ := Prod.mk.inj heq
  refine ⟨rfl, hpos, ?_, ⟨rfl, rfl, rfl, rfl⟩, ?_, ?_, fun a ha ↦ ?_, rfl, ?_⟩
  · have hminted : Funds w msg.blockNumber sp s { s with token := approved } :=
      funds_mint_approve hmint happrove
    exact ((hminted.trans hmoved.funds).trans (funds_addClaim hadd)).trans (.of_eq rfl rfl)
  · exact (addClaim_totalStakedFor hadd sp).trans hmoved.stake
  · exact addClaim_lastClaimedFor_self hadd
  · exact (addClaim_lastClaimedFor_of_ne hadd ha).trans (hrec.lastClaimedFor_eq a)
  · obtain ⟨-, -, rfl⟩ := ERC20._approve_eq_ok happrove
    obtain ⟨-, -, rfl⟩ := ERC20._mint_eq_ok hmint
    exact ERC20.transferFrom_totalSupply htoken

/-- Share of `sp` in the round's funds, by the stakes at the funding block. -/
def rewardAt (sp : Address) (locked : ℕ) (s : System) : ℕ :=
  let fundedBlock := s.claimsManager.currentRound.fundedBlock
  ((s.staking.accounts sp).stakedHistory.get fundedBlock - locked) * s.claimsManager.fundingAmount
    / s.staking.totalStakedHistory.get fundedBlock

/-- What processing a claim does: the reward is zero or the share of the claimer. -/
theorem processClaim_claimed (h : processClaim w msg sp locked s = .ok (s', reward)) :
    msg.sender = w.delegateManager ∧
      s.staking.lastClaimedFor sp ≤ s.claimsManager.currentRound.fundedBlock ∧
      reward ≤ rewardAt sp locked s ∧ Claimed w msg.blockNumber sp reward s s' := by
  unfold processClaim totalStakedForAt totalStakedAt at h
  simp only [↓require_bind_eq_ok, ↓toUint64_bind_eq_ok, ↓sub_bind_eq_ok, ↓mul_bind_eq_ok,
    ↓div_bind_eq_ok, bind_assoc, pure_bind] at h
  obtain ⟨hsender, hlast, -, -, -, -, -, h⟩ := h
  refine ⟨hsender, hlast, ?_⟩
  split at h
  · unfold updateClaimHistory at h
    simp only [↓require_bind_eq_ok, bind_eq_ok, pure_eq_ok] at h
    obtain ⟨mid, ⟨-, staking, hadd, rfl⟩, heq⟩ := h
    obtain ⟨rfl, rfl⟩ := Prod.mk.inj heq
    exact ⟨Nat.zero_le _, funds_addClaim hadd, ⟨rfl, rfl, rfl, rfl⟩,
      addClaim_totalStakedFor hadd sp, addClaim_lastClaimedFor_self hadd,
      fun a ha ↦ addClaim_lastClaimedFor_of_ne hadd ha, rfl, rfl⟩
  · obtain ⟨rfl, -, hclaimed⟩ := payClaim_claimed h
    exact ⟨le_rfl, hclaimed⟩

/-- Community funding moves tokens of the claims contract only. -/
private theorem fundCommunity_eq_ok (h : fundCommunity w msg s = .ok s') :
    ∃ token, (s.token.Sound w.staking w.claimsManager → token.Sound w.staking w.claimsManager) ∧
      s.token.balances w.staking ≤ token.balances w.staking ∧ s' = { s with token } := by
  unfold fundCommunity at h
  dsimp only at h
  split at h
  · simp only [bind_eq_ok, pure_eq_ok] at h
    obtain ⟨minted, hmint, approved, happrove, moved, hmove, rfl⟩ := h
    replace hmint := ERC20.mint_eq_mint hmint
    refine ⟨moved, fun ht ↦ ?_, ?_, rfl⟩
    · exact ERC20._transfer_sound hmove (ERC20._approve_sound happrove
        (.inl w.claimsManager_ne_staking) (ERC20._mint_sound hmint ht))
    · refine (ERC20._mint_balance_le hmint w.staking).trans ?_
      rw [← ERC20._approve_balances happrove]
      exact ERC20._transfer_balance_le hmove _ w.claimsManager_ne_staking.symm
  · cases h
    exact ⟨s.token, id, le_rfl, rfl⟩

/-- A new round replaces the round record; the community's tokens are the only ones that
move. -/
theorem initiateRound_eq_ok (h : initiateRound w msg s = .ok s') :
    s.claimsManager.currentRound.fundedBlock + s.claimsManager.fundingRoundBlockDiff
        < msg.blockNumber ∧
      ∃ token, (s.token.Sound w.staking w.claimsManager → token.Sound w.staking w.claimsManager) ∧
        s.token.balances w.staking ≤ token.balances w.staking ∧
        s' = { s with
          token
          claimsManager := { s.claimsManager with
            roundNumber := s.claimsManager.roundNumber + 1
            currentRound := ⟨msg.blockNumber, s.claimsManager.fundingAmount, 0⟩ } } := by
  unfold initiateRound at h
  simp only [↓sub_bind_eq_ok, ↓require_bind_eq_ok, ↓add_bind_eq_ok] at h
  obtain ⟨hle, helapsed, -, h⟩ := h
  obtain ⟨token, hsound, hcustody, rfl⟩ := fundCommunity_eq_ok h
  exact ⟨by omega, token, hsound, hcustody, rfl⟩

/-- Settings change nothing but the settings. -/
theorem configure_eq_ok {change : ClaimsManager → ClaimsManager}
    (h : configure w msg change s = .ok s') :
    msg.sender = w.governance ∧ s' = { s with claimsManager := change s.claimsManager } := by
  unfold configure at h
  simp only [↓require_bind_eq_ok, pure_eq_ok] at h
  exact ⟨h.1, h.2.symm⟩

end ClaimsManager

end ColivingSpec
