import ColivingSpec.Eth.ERC20
import ColivingSpec.Lib.Ledger

/-!
# Token accounting

What each token operation does to the balance of a custodian that never approves
anybody, to the sum of the balances, and to the minter role of an issuer.
-/

namespace ColivingSpec

open Lib Function

namespace ERC20

/-- Balances add up to the supply, nobody may spend for `custodian`, and `issuer` mints. -/
structure Sound (custodian issuer : Address) (t : ERC20) : Prop where
  supply : ∑ a, t.balances a = t.totalSupply
  unapproved : ∀ spender, t.allowances custodian spender = 0
  minter : t.minters issuer = true

variable {custodian issuer : Address} {t t' : ERC20} {source target account : Address} {amount : ℕ}

theorem Sound.balance_le (h : Sound custodian issuer t) (a : Address) :
    t.balances a ≤ t.totalSupply := by
  rw [← h.supply]
  exact Lib.le_sum t.balances a

/-! ### Transfer -/

theorem _transfer_eq_ok (h : t._transfer source target amount = .ok t') :
    source ≠ 0 ∧ target ≠ 0 ∧ amount ≤ t.balances source ∧
      t' = { t with
        balances := update
          (update t.balances source (t.balances source - amount)) target
          (update t.balances source (t.balances source - amount) target + amount) } := by
  simp only [_transfer, require_bind_eq_ok, add_bind_eq_ok, pure_eq_ok] at h
  obtain ⟨hs, ht, hle, -, rfl⟩ := h
  exact ⟨hs, ht, hle, rfl⟩

theorem _transfer_sound (h : t._transfer source target amount = .ok t')
    (ht : Sound custodian issuer t) : Sound custodian issuer t' := by
  obtain ⟨-, -, hle, rfl⟩ := _transfer_eq_ok h
  refine ⟨?_, ht.unapproved, ht.minter⟩
  have hdebit := sum_update_add t.balances source (t.balances source - amount)
  have hcredit := sum_update_add
    (update t.balances source (t.balances source - amount)) target
    (update t.balances source (t.balances source - amount) target + amount)
  have hsupply := ht.supply
  simp only
  omega

/-- A transfer takes at most the amount from its source. -/
theorem _transfer_balance_source (h : t._transfer source target amount = .ok t') :
    t.balances source ≤ t'.balances source + amount := by
  obtain ⟨-, -, hle, rfl⟩ := _transfer_eq_ok h
  by_cases heq : source = target
  · subst heq
    simp
    omega
  · simp [heq]
    omega

/-- A transfer takes nothing from anybody but its source. -/
theorem _transfer_balance_le (h : t._transfer source target amount = .ok t') (a : Address)
    (ha : a ≠ source) : t.balances a ≤ t'.balances a := by
  obtain ⟨-, -, -, rfl⟩ := _transfer_eq_ok h
  by_cases heq : a = target
  · subst heq
    simp [ha]
  · simp [heq, ha]

/-- The target of a transfer gains the amount. -/
theorem _transfer_balance_target (h : t._transfer source target amount = .ok t')
    (hne : target ≠ source) : t'.balances target = t.balances target + amount := by
  obtain ⟨-, -, -, rfl⟩ := _transfer_eq_ok h
  simp [hne]

/-! ### Allowances -/

variable {owner spender : Address}

theorem _approve_eq_ok (h : t._approve owner spender amount = .ok t') :
    owner ≠ 0 ∧ spender ≠ 0 ∧
      t' = { t with
        allowances := update t.allowances owner
          (update (t.allowances owner) spender amount) } := by
  simp only [_approve, require_bind_eq_ok, pure_eq_ok] at h
  obtain ⟨ho, hs, rfl⟩ := h
  exact ⟨ho, hs, rfl⟩

theorem _approve_balances (h : t._approve owner spender amount = .ok t') :
    t'.balances = t.balances := by
  obtain ⟨-, -, rfl⟩ := _approve_eq_ok h
  rfl

theorem _approve_sound (h : t._approve owner spender amount = .ok t')
    (howner : owner ≠ custodian ∨ amount = 0) (ht : Sound custodian issuer t) :
    Sound custodian issuer t' := by
  obtain ⟨-, -, rfl⟩ := _approve_eq_ok h
  refine ⟨ht.supply, fun x ↦ ?_, ht.minter⟩
  by_cases ho : custodian = owner
  · subst ho
    obtain rfl : amount = 0 := howner.resolve_left (by simp)
    by_cases hx : x = spender
    · subst hx
      simp
    · simp [hx, ht.unapproved]
  · simp [ho, ht.unapproved]

theorem _spendAllowance_balances (h : t._spendAllowance owner spender amount = .ok t') :
    t'.balances = t.balances := by
  unfold _spendAllowance at h
  split at h
  · cases h
    rfl
  · rw [require_bind_eq_ok] at h
    exact _approve_balances h.2

theorem _spendAllowance_totalSupply (h : t._spendAllowance owner spender amount = .ok t') :
    t'.totalSupply = t.totalSupply := by
  unfold _spendAllowance at h
  split at h
  · cases h
    rfl
  · rw [require_bind_eq_ok] at h
    obtain ⟨-, -, rfl⟩ := _approve_eq_ok h.2
    rfl

/-- Nothing can be spent for the custodian. -/
theorem _spendAllowance_sound (h : t._spendAllowance owner spender amount = .ok t')
    (ht : Sound custodian issuer t) :
    Sound custodian issuer t' ∧ (owner = custodian → amount = 0) := by
  unfold _spendAllowance at h
  split at h
  · next hmax =>
    cases h
    refine ⟨ht, fun heq ↦ ?_⟩
    subst heq
    rw [ht.unapproved] at hmax
    exact absurd hmax (by decide)
  · rw [require_bind_eq_ok] at h
    have hzero : owner = custodian → t.allowances owner spender = 0 := by
      rintro rfl
      exact ht.unapproved spender
    constructor
    · refine _approve_sound h.2 ?_ ht
      by_cases ho : owner = custodian
      · right
        rw [hzero ho, Nat.zero_sub]
      · exact .inl ho
    · intro ho
      have hle := h.1
      rw [hzero ho] at hle
      omega

/-! ### Supply -/

theorem _mint_eq_ok (h : t._mint account amount = .ok t') :
    account ≠ 0 ∧ t.totalSupply + amount < uint256Bound ∧
      t' = { t with
        totalSupply := t.totalSupply + amount
        balances := update t.balances account (t.balances account + amount) } := by
  simp only [_mint, require_bind_eq_ok, add_bind_eq_ok, pure_eq_ok] at h
  obtain ⟨ha, hs, -, rfl⟩ := h
  exact ⟨ha, hs, rfl⟩

theorem _mint_sound (h : t._mint account amount = .ok t') (ht : Sound custodian issuer t) :
    Sound custodian issuer t' := by
  obtain ⟨-, -, rfl⟩ := _mint_eq_ok h
  refine ⟨?_, ht.unapproved, ht.minter⟩
  have hsum := sum_update_add t.balances account (t.balances account + amount)
  have hsupply := ht.supply
  simp only
  omega

theorem _mint_balance_le (h : t._mint account amount = .ok t') (a : Address) :
    t.balances a ≤ t'.balances a := by
  obtain ⟨-, -, rfl⟩ := _mint_eq_ok h
  by_cases ha : a = account
  · subst ha
    simp
  · simp [ha]

theorem _burn_eq_ok (h : t._burn account amount = .ok t') :
    amount ≤ t.balances account ∧ amount ≤ t.totalSupply ∧
      t' = { t with
        totalSupply := t.totalSupply - amount
        balances := update t.balances account (t.balances account - amount) } := by
  simp only [_burn, require_bind_eq_ok, sub_bind_eq_ok, pure_eq_ok] at h
  obtain ⟨-, hle, hs, rfl⟩ := h
  exact ⟨hle, hs, rfl⟩

theorem _burn_sound (h : t._burn account amount = .ok t') (ht : Sound custodian issuer t) :
    Sound custodian issuer t' := by
  obtain ⟨hle, -, rfl⟩ := _burn_eq_ok h
  refine ⟨?_, ht.unapproved, ht.minter⟩
  have hsum := sum_update_add t.balances account (t.balances account - amount)
  have hsupply := ht.supply
  simp only
  omega

theorem _burn_balance (h : t._burn account amount = .ok t') :
    t'.balances account + amount = t.balances account := by
  obtain ⟨hle, -, rfl⟩ := _burn_eq_ok h
  simp
  omega

theorem _burn_balance_of_ne (h : t._burn account amount = .ok t') (a : Address)
    (ha : a ≠ account) : t'.balances a = t.balances a := by
  obtain ⟨-, -, rfl⟩ := _burn_eq_ok h
  simp [ha]

/-! ### External functions -/

variable {msg : Msg}

theorem transferFrom_sound (h : t.transferFrom msg source target amount = .ok t')
    (ht : Sound custodian issuer t) : Sound custodian issuer t' := by
  obtain ⟨mid, hspend, hmove⟩ := bind_eq_ok.mp h
  exact _transfer_sound hmove (_spendAllowance_sound hspend ht).1

/-- Spending an allowance takes nothing from the custodian. -/
theorem transferFrom_balance_le (h : t.transferFrom msg source target amount = .ok t')
    (ht : Sound custodian issuer t) : t.balances custodian ≤ t'.balances custodian := by
  obtain ⟨mid, hspend, hmove⟩ := bind_eq_ok.mp h
  rw [← _spendAllowance_balances hspend]
  by_cases heq : custodian = source
  · subst heq
    have hzero := (_spendAllowance_sound hspend ht).2 rfl
    have hle := _transfer_balance_source hmove
    omega
  · exact _transfer_balance_le hmove custodian heq

/-- Stake comes in: the custodian gains the amount. -/
theorem transferFrom_balance_target (h : t.transferFrom msg source target amount = .ok t')
    (hne : target ≠ source) : t'.balances target = t.balances target + amount := by
  obtain ⟨mid, hspend, hmove⟩ := bind_eq_ok.mp h
  rw [_transfer_balance_target hmove hne, _spendAllowance_balances hspend]

theorem transferFrom_totalSupply (h : t.transferFrom msg source target amount = .ok t') :
    t'.totalSupply = t.totalSupply := by
  obtain ⟨mid, hspend, hmove⟩ := bind_eq_ok.mp h
  have hspent := _spendAllowance_totalSupply hspend
  obtain ⟨-, -, -, rfl⟩ := _transfer_eq_ok hmove
  exact hspent

theorem mint_eq_mint (h : t.mint msg account amount = .ok t') :
    t._mint account amount = .ok t' := by
  simp only [mint, require_bind_eq_ok] at h
  exact h.2.2

theorem burnFrom_sound (h : t.burnFrom msg account amount = .ok t')
    (ht : Sound custodian issuer t) :
    Sound custodian issuer t' ∧ t.balances custodian ≤ t'.balances custodian := by
  obtain ⟨mid, hspend, hburn⟩ := bind_eq_ok.mp h
  have hspent := _spendAllowance_sound hspend ht
  refine ⟨_burn_sound hburn hspent.1, ?_⟩
  rw [← _spendAllowance_balances hspend]
  by_cases heq : custodian = account
  · subst heq
    have hzero := hspent.2 rfl
    have hbalance := _burn_balance hburn
    omega
  · exact (_burn_balance_of_ne hburn custodian heq).ge

end ERC20

end ColivingSpec
