import ColivingSpec.Contracts.Staking
import ColivingSpec.Eth.TokenAccounting

/-!
# What Staking records

A movement of stake writes one checkpoint in the history of the account and one in the
history of the total; a claim writes one in the claim history. `Consistent` is what
the checkpoints keep: the histories are in order, none reaches past the present block,
and at every block the histories of the accounts add up to the history of the total.
-/

namespace ColivingSpec

open Lib

namespace Staking

/-- A movement left `account` with `stake` and the total at `total`. -/
structure Recorded (blockNumber : ℕ) (account : Address) (stake total : ℕ) (st st' : Staking) :
    Prop where
  block : blockNumber < uint64Bound
  own : (st.accounts account).stakedHistory.add blockNumber stake
    = .ok (st'.accounts account).stakedHistory
  all : st.totalStakedHistory.add blockNumber total = .ok st'.totalStakedHistory
  others : ∀ a, a ≠ account → (st'.accounts a).stakedHistory = (st.accounts a).stakedHistory
  claims : ∀ a, (st'.accounts a).claimHistory = (st.accounts a).claimHistory

variable {blockNumber amount stake total : ℕ} {account : Address} {st st' : Staking}

private theorem modified_eq_ok {current n : ℕ} {increase : Bool}
    (h : modified current amount increase = .ok n) :
    if increase then n = current + amount else amount ≤ current ∧ n = current - amount := by
  cases increase with
  | true =>
    simp only [modified, if_true, SafeMath.add, Checked.add] at h
    split at h
    · simpa using h.symm
    · simp at h
  | false =>
    simp only [modified, Bool.false_eq_true, if_false, SafeMath.sub, Checked.sub] at h
    split at h
    · next hle => exact ⟨hle, by simpa using h.symm⟩
    · simp at h

private theorem moveStake_recorded {increase : Bool}
    (h : st.moveStake blockNumber account amount increase = .ok st') :
    ∃ stake total, modified (st.totalStakedFor account) amount increase = .ok stake ∧
      modified st.totalStaked amount increase = .ok total ∧
        Recorded blockNumber account stake total st st' := by
  obtain ⟨mid, hown, hall⟩ := bind_eq_ok.mp h
  unfold _modifyStakeBalance at hown
  simp only [↓require_bind_eq_ok, ↓toUint64_bind_eq_ok, bind_eq_ok, pure_eq_ok] at hown
  obtain ⟨-, stake, hstake, hblock, history, hadd, rfl⟩ := hown
  unfold _modifyTotalStaked at hall
  simp only [↓toUint64_bind_eq_ok, bind_eq_ok, pure_eq_ok] at hall
  obtain ⟨total, htotal, -, totalHistory, haddTotal, rfl⟩ := hall
  refine ⟨stake, total, hstake, htotal, hblock, ?_, haddTotal, fun a ha ↦ ?_, fun a ↦ ?_⟩
  · simpa [setAccount] using hadd
  · simp [setAccount, ha]
  · by_cases ha : a = account
    · subst ha
      simp [setAccount]
    · simp [setAccount, ha]

/-- What an increase records. -/
theorem moveStake_increase (h : st.moveStake blockNumber account amount true = .ok st') :
    Recorded blockNumber account (st.totalStakedFor account + amount) (st.totalStaked + amount)
      st st' := by
  obtain ⟨stake, total, hstake, htotal, hrec⟩ := moveStake_recorded h
  obtain rfl : stake = _ := by simpa using modified_eq_ok hstake
  obtain rfl : total = _ := by simpa using modified_eq_ok htotal
  exact hrec

/-- What a decrease records. -/
theorem moveStake_decrease (h : st.moveStake blockNumber account amount false = .ok st') :
    amount ≤ st.totalStakedFor account ∧ amount ≤ st.totalStaked ∧
      Recorded blockNumber account (st.totalStakedFor account - amount) (st.totalStaked - amount)
        st st' := by
  obtain ⟨stake, total, hstake, htotal, hrec⟩ := moveStake_recorded h
  obtain ⟨hle, rfl⟩ : _ ∧ stake = _ := by simpa using modified_eq_ok hstake
  obtain ⟨hleTotal, rfl⟩ : _ ∧ total = _ := by simpa using modified_eq_ok htotal
  exact ⟨hle, hleTotal, hrec⟩

theorem Recorded.totalStakedFor_self (h : Recorded blockNumber account stake total st st') :
    st'.totalStakedFor account = stake :=
  History.add_getLast h.own

theorem Recorded.totalStakedFor_of_ne (h : Recorded blockNumber account stake total st st')
    {a : Address} (ha : a ≠ account) : st'.totalStakedFor a = st.totalStakedFor a := by
  simp only [totalStakedFor, h.others a ha]

theorem Recorded.totalStaked_eq (h : Recorded blockNumber account stake total st st') :
    st'.totalStaked = total :=
  History.add_getLast h.all

theorem Recorded.lastClaimedFor_eq (h : Recorded blockNumber account stake total st st')
    (a : Address) : st'.lastClaimedFor a = st.lastClaimedFor a := by
  simp only [lastClaimedFor, h.claims a]

/-- What a claim writes. -/
theorem addClaim_eq_ok (h : st.addClaim blockNumber account amount = .ok st') :
    blockNumber < uint64Bound ∧ st'.totalStakedHistory = st.totalStakedHistory ∧
      (∀ a, (st'.accounts a).stakedHistory = (st.accounts a).stakedHistory) ∧
      (∀ a, a ≠ account → (st'.accounts a).claimHistory = (st.accounts a).claimHistory) ∧
      (st.accounts account).claimHistory.add blockNumber amount
        = .ok (st'.accounts account).claimHistory := by
  unfold addClaim at h
  simp only [↓toUint64_bind_eq_ok, bind_eq_ok, pure_eq_ok] at h
  obtain ⟨hblock, history, hadd, rfl⟩ := h
  refine ⟨hblock, rfl, fun a ↦ ?_, fun a ha ↦ ?_, ?_⟩
  · by_cases ha : a = account
    · subst ha
      simp [setAccount]
    · simp [setAccount, ha]
  · simp [setAccount, ha]
  · simpa [setAccount] using hadd

theorem addClaim_totalStakedFor (h : st.addClaim blockNumber account amount = .ok st')
    (a : Address) : st'.totalStakedFor a = st.totalStakedFor a := by
  simp only [totalStakedFor, (addClaim_eq_ok h).2.2.1 a]

theorem addClaim_totalStaked (h : st.addClaim blockNumber account amount = .ok st') :
    st'.totalStaked = st.totalStaked := by
  simp only [totalStaked, (addClaim_eq_ok h).2.1]

theorem addClaim_lastClaimedFor_self (h : st.addClaim blockNumber account amount = .ok st') :
    st'.lastClaimedFor account = blockNumber :=
  History.add_lastTime (addClaim_eq_ok h).2.2.2.2

theorem addClaim_lastClaimedFor_of_ne (h : st.addClaim blockNumber account amount = .ok st')
    {a : Address} (ha : a ≠ account) : st'.lastClaimedFor a = st.lastClaimedFor a := by
  simp only [lastClaimedFor, (addClaim_eq_ok h).2.2.2.1 a ha]

/-! ### Consistent histories -/

/-- A history in order, of values that fit, that does not reach past block `now`. -/
structure Dated (now : ℕ) (history : History) : Prop where
  sorted : history.Sorted
  lastTime_le : history.lastTime ≤ now
  getLast_lt : history.getLast < uint192Bound

/-- The invariant of the histories. -/
structure Consistent (now : ℕ) (st : Staking) : Prop where
  own : ∀ a, Dated now (st.accounts a).stakedHistory
  claims : ∀ a, Dated now (st.accounts a).claimHistory
  all : Dated now st.totalStakedHistory
  agree : ∀ t, ∑ a, (st.accounts a).stakedHistory.valueAt t = st.totalStakedHistory.valueAt t

variable {now : ℕ} {history : History}

theorem Dated.mono {later : ℕ} (h : Dated now history) (hle : now ≤ later) : Dated later history :=
  ⟨h.sorted, h.lastTime_le.trans hle, h.getLast_lt⟩

theorem Dated.add {time value : ℕ} {history' : History} (h : Dated now history)
    (hadd : history.add time value = .ok history') : Dated time history' where
  sorted := History.add_sorted hadd h.sorted
  lastTime_le := (History.add_lastTime hadd).le
  getLast_lt := History.add_getLast hadd ▸ History.add_value_lt hadd

/-- A dated history takes a checkpoint of the present or a later block. -/
theorem Dated.add_succeeds {time value : ℕ} (h : Dated now history) (htime : now ≤ time) :
    Succeeds (history.add time value) ↔ value < uint192Bound := by
  rw [History.add_succeeds_iff]
  exact and_iff_left fun _ ↦ h.lastTime_le.trans htime

theorem Consistent.mono {later : ℕ} (h : Consistent now st) (hle : now ≤ later) :
    Consistent later st :=
  ⟨fun a ↦ (h.own a).mono hle, fun a ↦ (h.claims a).mono hle, h.all.mono hle, h.agree⟩

/-- From the present block on, a history reads the present stake. -/
theorem Consistent.valueAt_of_now_le (h : Consistent now st) (a : Address) {t : ℕ} (ht : now ≤ t) :
    (st.accounts a).stakedHistory.valueAt t = st.totalStakedFor a :=
  (h.own a).sorted.valueAt_of_lastTime_le ((h.own a).lastTime_le.trans ht)

/-- A movement at the present or a later block keeps the histories consistent. -/
theorem Consistent.recorded (h : Consistent now st) (hnow : now ≤ blockNumber)
    (hrec : Recorded blockNumber account stake total st st')
    (hsame : total + st.totalStakedFor account = st.totalStaked + stake) :
    Consistent blockNumber st' where
  own a := by
    by_cases ha : a = account
    · subst ha
      exact (h.own a).add hrec.own
    · rw [hrec.others a ha]
      exact (h.own a).mono hnow
  claims a := by
    rw [hrec.claims a]
    exact (h.claims a).mono hnow
  all := h.all.add hrec.all
  agree t := by
    have hsum := sum_add_eq_of_off (fun a ↦ (st.accounts a).stakedHistory.valueAt t)
      (fun a ↦ (st'.accounts a).stakedHistory.valueAt t) account
      (fun a ha ↦ by rw [hrec.others a ha])
    rw [History.add_valueAt hrec.own, h.agree t] at hsum
    rw [History.add_valueAt hrec.all]
    by_cases ht : blockNumber ≤ t
    · have hown := h.valueAt_of_now_le account (hnow.trans ht)
      have hall : st.totalStakedHistory.valueAt t = st.totalStaked :=
        h.all.sorted.valueAt_of_lastTime_le (h.all.lastTime_le.trans (hnow.trans ht))
      simp only [ht, if_true] at hsum ⊢
      omega
    · simp only [ht, if_false] at hsum ⊢
      omega

/-- A claim at the present or a later block keeps the histories consistent. -/
theorem Consistent.addClaim (h : Consistent now st) (hnow : now ≤ blockNumber)
    (hadd : st.addClaim blockNumber account amount = .ok st') : Consistent blockNumber st' := by
  obtain ⟨-, htotal, hown, hothers, hclaim⟩ := addClaim_eq_ok hadd
  refine ⟨fun a ↦ ?_, fun a ↦ ?_, ?_, fun t ↦ ?_⟩
  · rw [hown a]
    exact (h.own a).mono hnow
  · by_cases ha : a = account
    · subst ha
      exact (h.claims a).add hclaim
    · rw [hothers a ha]
      exact (h.claims a).mono hnow
  · rw [htotal]
    exact h.all.mono hnow
  · rw [htotal, ← h.agree t]
    exact Finset.sum_congr rfl fun a _ ↦ by rw [hown a]

theorem consistent_initialStorage (now : ℕ) : Consistent now initialStorage := by
  have hdated : Dated now [] :=
    ⟨StepHistory.increasing_nil _, Nat.zero_le _, by decide⟩
  exact ⟨fun _ ↦ hdated, fun _ ↦ hdated, hdated, fun t ↦ by simp [initialStorage]⟩

/-! ### Movements with their tokens -/

variable [Keccak256] {w : Wiring} {msg : Msg} {s s' : System} {source target : Address}

/-- Stake that comes in. -/
theorem _stakeFor_eq_ok (h : _stakeFor w msg account source amount s = .ok s') :
    ∃ staking token, 0 < amount ∧
      Recorded msg.blockNumber account (s.staking.totalStakedFor account + amount)
        (s.staking.totalStaked + amount) s.staking staking ∧
      s.token.transferFrom (msg.calledBy w.staking) source w.staking amount = .ok token ∧
      s' = { s with staking, token } := by
  unfold _stakeFor at h
  simp only [↓require_bind_eq_ok, bind_eq_ok, pure_eq_ok] at h
  obtain ⟨hpos, staking, hmove, token, htoken, rfl⟩ := h
  exact ⟨staking, token, hpos, moveStake_increase hmove, htoken, rfl⟩

/-- Stake that is paid out. -/
theorem _unstakeFor_eq_ok (h : _unstakeFor w msg account target amount s = .ok s') :
    ∃ staking token, 0 < amount ∧ amount ≤ s.staking.totalStakedFor account ∧
      amount ≤ s.staking.totalStaked ∧
      Recorded msg.blockNumber account (s.staking.totalStakedFor account - amount)
        (s.staking.totalStaked - amount) s.staking staking ∧
      s.token._transfer w.staking target amount = .ok token ∧
      s' = { s with staking, token } := by
  unfold _unstakeFor at h
  simp only [↓require_bind_eq_ok, bind_eq_ok, pure_eq_ok] at h
  obtain ⟨hpos, staking, hmove, token, htoken, rfl⟩ := h
  obtain ⟨hle, hleTotal, hrec⟩ := moveStake_decrease hmove
  exact ⟨staking, token, hpos, hle, hleTotal, hrec, htoken, rfl⟩

/-- Stake that is burned. -/
theorem _burnFor_eq_ok (h : _burnFor w msg account amount s = .ok s') :
    ∃ staking token, 0 < amount ∧ amount ≤ s.staking.totalStakedFor account ∧
      amount ≤ s.staking.totalStaked ∧
      Recorded msg.blockNumber account (s.staking.totalStakedFor account - amount)
        (s.staking.totalStaked - amount) s.staking staking ∧
      s.token._burn w.staking amount = .ok token ∧
      s' = { s with staking, token } := by
  unfold _burnFor at h
  simp only [↓require_bind_eq_ok, bind_eq_ok, pure_eq_ok] at h
  obtain ⟨hpos, staking, hmove, token, htoken, rfl⟩ := h
  obtain ⟨hle, hleTotal, hrec⟩ := moveStake_decrease hmove
  exact ⟨staking, token, hpos, hle, hleTotal, hrec, htoken, rfl⟩

end Staking

end ColivingSpec
