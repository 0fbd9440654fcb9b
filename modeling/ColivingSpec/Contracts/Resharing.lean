import ColivingSpec.Contracts.DelegateManager
import ColivingSpec.Lib.Ledger

/-!
# What the delegator loops do

Rewards and slashes run over the delegators of one provider. Whatever the list holds,
each pass changes a share of that provider and the total of its delegator by the same
amount, and the running sum the loop returns is what the shares changed by together.
-/

namespace ColivingSpec

open Lib

namespace DelegateManagerV2

/-- Shares in `sp` change together with the totals of their delegators; other shares stay. -/
structure Reshares (sp : Address) (d d' : DelegateManagerV2) : Prop where
  share_off : ∀ a x, x ≠ sp → d'.delegateInfo a x = d.delegateInfo a x
  totals : ∀ a, d'.delegatorTotalStake a + d.delegateInfo a sp
    = d.delegatorTotalStake a + d'.delegateInfo a sp

namespace Reshares

variable {sp : Address} {d d' d'' : DelegateManagerV2}

theorem of_eq (hshare : d'.delegateInfo = d.delegateInfo)
    (htotal : d'.delegatorTotalStake = d.delegatorTotalStake) : Reshares sp d d' :=
  ⟨fun a x _ ↦ by rw [hshare], fun a ↦ by rw [hshare, htotal]⟩

theorem trans (h : Reshares sp d d') (h' : Reshares sp d' d'') : Reshares sp d d'' where
  share_off a x hx := (h'.share_off a x hx).trans (h.share_off a x hx)
  totals a := by
    have hfirst := h.totals a
    have hsecond := h'.totals a
    omega

end Reshares

variable {sp : Address} {d d' : DelegateManagerV2}

theorem delegateInfo_setDelegateInfo (d : DelegateManagerV2) (delegator sp : Address) (amount : ℕ)
    (a x : Address) : (d.setDelegateInfo delegator sp amount).delegateInfo a x
      = if a = delegator ∧ x = sp then amount else d.delegateInfo a x := by
  by_cases ha : a = delegator
  · subst ha
    by_cases hx : x = sp
    · subst hx
      simp [setDelegateInfo]
    · simp [setDelegateInfo, hx]
  · simp [setDelegateInfo, ha]

/-- The sum of the shares in `sp` after one of them was written. -/
theorem sum_setDelegateInfo (d : DelegateManagerV2) (delegator sp : Address) (amount : ℕ) :
    ∑ a, (d.setDelegateInfo delegator sp amount).delegateInfo a sp + d.delegateInfo delegator sp
      = ∑ a, d.delegateInfo a sp + amount := by
  have hsum := sum_add_eq_of_off (fun a ↦ d.delegateInfo a sp)
    (fun a ↦ (d.setDelegateInfo delegator sp amount).delegateInfo a sp) delegator
    (fun a ha ↦ by simp [delegateInfo_setDelegateInfo, ha])
  simpa [delegateInfo_setDelegateInfo] using hsum

variable {delegator : Address} {total' : ℕ}

/-- Writing a share and the total of its delegator. -/
theorem reshares_set {share total : ℕ}
    (h : total + d.delegateInfo delegator sp = d.delegatorTotalStake delegator + share) :
    Reshares sp d ((d.setDelegateInfo delegator sp share)._updateDelegatorTotalStake
      delegator total) where
  share_off a x hx := by
    simp [_updateDelegatorTotalStake, delegateInfo_setDelegateInfo, hx]
  totals a := by
    by_cases ha : a = delegator
    · subst ha
      simpa [_updateDelegatorTotalStake, delegateInfo_setDelegateInfo] using h
    · simp [_updateDelegatorTotalStake, setDelegateInfo, ha]

/-! ### One delegation -/

@[simp] theorem totalDelegatedStake_setDelegators (d : DelegateManagerV2) (sp : Address)
    (l : List Address) (x : Address) :
    ((d.setDelegators sp l).spDelegateInfo x).totalDelegatedStake
      = (d.spDelegateInfo x).totalDelegatedStake := by
  by_cases hx : x = sp
  · subst hx
    simp [setDelegators, setSpInfo]
  · simp [setDelegators, setSpInfo, hx]

@[simp] theorem totalDelegatedStake_updateLockup (d : DelegateManagerV2) (sp : Address)
    (locked : ℕ) (x : Address) :
    ((d._updateServiceProviderLockupAmount sp locked).spDelegateInfo x).totalDelegatedStake
      = (d.spDelegateInfo x).totalDelegatedStake := by
  by_cases hx : x = sp
  · subst hx
    simp [_updateServiceProviderLockupAmount, setSpInfo]
  · simp [_updateServiceProviderLockupAmount, setSpInfo, hx]

@[simp] theorem delegators_updateLockup (d : DelegateManagerV2) (sp : Address) (locked : ℕ)
    (x : Address) :
    ((d._updateServiceProviderLockupAmount sp locked).spDelegateInfo x).delegators
      = (d.spDelegateInfo x).delegators := by
  by_cases hx : x = sp
  · subst hx
    simp [_updateServiceProviderLockupAmount, setSpInfo]
  · simp [_updateServiceProviderLockupAmount, setSpInfo, hx]

theorem delegators_setDelegators (d : DelegateManagerV2) (sp : Address) (l : List Address)
    (x : Address) : ((d.setDelegators sp l).spDelegateInfo x).delegators
      = if x = sp then l else (d.spDelegateInfo x).delegators := by
  by_cases hx : x = sp
  · subst hx
    simp [setDelegators, setSpInfo]
  · simp [setDelegators, setSpInfo, hx]

theorem totalDelegatedStake_setTotalDelegatedStake (d : DelegateManagerV2) (sp : Address)
    (total : ℕ) (x : Address) :
    ((d.setTotalDelegatedStake sp total).spDelegateInfo x).totalDelegatedStake
      = if x = sp then total else (d.spDelegateInfo x).totalDelegatedStake := by
  by_cases hx : x = sp
  · subst hx
    simp [setTotalDelegatedStake, setSpInfo]
  · simp [setTotalDelegatedStake, setSpInfo, hx]

@[simp] theorem delegators_setTotalDelegatedStake (d : DelegateManagerV2) (sp : Address)
    (total : ℕ) (x : Address) :
    ((d.setTotalDelegatedStake sp total).spDelegateInfo x).delegators
      = (d.spDelegateInfo x).delegators := by
  by_cases hx : x = sp
  · subst hx
    simp [setTotalDelegatedStake, setSpInfo]
  · simp [setTotalDelegatedStake, setSpInfo, hx]

section UpdateDelegatorStake

variable (d : DelegateManagerV2) (delegator sp : Address) (total share delegatorTotal : ℕ)

theorem delegateInfo_updateDelegatorStake (a x : Address) :
    (d._updateDelegatorStake delegator sp total share delegatorTotal).delegateInfo a x
      = if a = delegator ∧ x = sp then share else d.delegateInfo a x :=
  delegateInfo_setDelegateInfo _ _ _ _ _ _

theorem delegatorTotalStake_updateDelegatorStake (a : Address) :
    (d._updateDelegatorStake delegator sp total share delegatorTotal).delegatorTotalStake a
      = if a = delegator then delegatorTotal else d.delegatorTotalStake a := by
  by_cases ha : a = delegator
  · subst ha
    simp [_updateDelegatorStake, _updateDelegatorTotalStake]
  · simp [_updateDelegatorStake, _updateDelegatorTotalStake, setDelegateInfo,
      setTotalDelegatedStake, setSpInfo, ha]

variable (x : Address)

theorem totalDelegatedStake_updateDelegatorStake :
    ((d._updateDelegatorStake delegator sp total share delegatorTotal).spDelegateInfo
      x).totalDelegatedStake = if x = sp then total else (d.spDelegateInfo x).totalDelegatedStake :=
  totalDelegatedStake_setTotalDelegatedStake _ _ _ _

@[simp] theorem delegators_updateDelegatorStake :
    ((d._updateDelegatorStake delegator sp total share delegatorTotal).spDelegateInfo x).delegators
      = (d.spDelegateInfo x).delegators :=
  delegators_setTotalDelegatedStake _ _ _ _

@[simp] theorem undelegateRequests_updateDelegatorStake :
    (d._updateDelegatorStake delegator sp total share delegatorTotal).undelegateRequests
      = d.undelegateRequests := rfl

end UpdateDelegatorStake

/-- Entering a delegator changes nothing but the list. -/
theorem enlist_eq_ok {sp : Address} {d d' : DelegateManagerV2} (h : d.enlist delegator sp = .ok d') :
    (delegator ∈ (d.spDelegateInfo sp).delegators ∧ d' = d) ∨
      (delegator ∉ (d.spDelegateInfo sp).delegators ∧
        d' = d.setDelegators sp ((d.spDelegateInfo sp).delegators ++ [delegator])) := by
  unfold enlist _delegatorExistsForSP at h
  split at h
  · next hmem =>
    cases h
    exact .inl ⟨by simpa using hmem, rfl⟩
  · next hmem =>
    simp only [↓require_bind_eq_ok, pure_eq_ok] at h
    exact .inr ⟨by simpa using hmem, h.2.symm⟩

/-- Taking a delegation out of its three records. -/
theorem withdraw_eq_ok {sp : Address} {amount : ℕ} {d d' : DelegateManagerV2}
    (h : d.withdraw delegator sp amount = .ok d') :
    amount ≤ (d.spDelegateInfo sp).totalDelegatedStake ∧ amount ≤ d.delegateInfo delegator sp ∧
      amount ≤ d.delegatorTotalStake delegator ∧
      d' = d._updateDelegatorStake delegator sp
        ((d.spDelegateInfo sp).totalDelegatedStake - amount)
        (d.delegateInfo delegator sp - amount) (d.delegatorTotalStake delegator - amount) := by
  unfold withdraw at h
  simp only [↓sub_bind_eq_ok, pure_eq_ok] at h
  obtain ⟨htotal, hshare, hdelegator, rfl⟩ := h
  exact ⟨htotal, hshare, hdelegator, rfl⟩

/-- The request for `sp` is dropped with what it locked, any other one stays. -/
theorem dropRequestFor_eq_ok (h : d.dropRequestFor delegator sp = .ok d') :
    (d._undelegateRequestIsPending delegator = true ∧
        (d.undelegateRequests delegator).serviceProvider = sp ∧
        d' = (d._updateServiceProviderLockupAmount sp
          ((d.spDelegateInfo sp).totalLockedUpStake
            - (d.undelegateRequests delegator).amount))._resetUndelegateStakeRequest delegator) ∨
      ¬ (d._undelegateRequestIsPending delegator = true ∧
        (d.undelegateRequests delegator).serviceProvider = sp) ∧ d' = d := by
  unfold dropRequestFor at h
  split at h
  · next hpending =>
    simp only [↓sub_bind_eq_ok, pure_eq_ok] at h
    exact .inl ⟨hpending.1, hpending.2, h.2.symm⟩
  · next hpending =>
    cases h
    exact .inr ⟨hpending, rfl⟩

/-- Dropping the request for `sp` touches no share and no total. -/
theorem dropRequestFor_records (h : d.dropRequestFor delegator sp = .ok d') :
    (∀ x, (d'.spDelegateInfo x).totalDelegatedStake = (d.spDelegateInfo x).totalDelegatedStake) ∧
      d'.delegateInfo = d.delegateInfo ∧ d'.delegatorTotalStake = d.delegatorTotalStake := by
  rcases dropRequestFor_eq_ok h with ⟨-, -, rfl⟩ | ⟨-, rfl⟩
  · exact ⟨fun x ↦ totalDelegatedStake_updateLockup d sp _ x, rfl, rfl⟩
  · exact ⟨fun _ ↦ rfl, rfl, rfl⟩

/-! ### Rewards -/

/-- Nothing but shares and delegator totals is written. -/
def SharesOnly (d d' : DelegateManagerV2) : Prop :=
  d' = { d with
    delegateInfo := d'.delegateInfo
    delegatorTotalStake := d'.delegatorTotalStake }

/-- Crediting one delegator. -/
theorem creditDelegator_eq_ok {reward : ℕ} (h : d.creditDelegator delegator sp reward = .ok d') :
    d' = (d.setDelegateInfo delegator sp
      (d.delegateInfo delegator sp + reward))._updateDelegatorTotalStake delegator
        (d.delegatorTotalStake delegator + reward) := by
  unfold creditDelegator at h
  simp only [↓add_bind_eq_ok, pure_eq_ok] at h
  exact h.2.2.symm

/-- What spreading a reward leaves, for any list of delegators. -/
theorem _distributeDelegateRewards_spec {funds rewards cut : ℕ} :
    ∀ {l : List Address} {total : ℕ} {d : DelegateManagerV2},
      d._distributeDelegateRewards sp funds rewards cut l total = .ok (d', total') →
      Reshares sp d d' ∧ SharesOnly d d' ∧
        (∀ a, d.delegateInfo a sp ≤ d'.delegateInfo a sp) ∧
        ∑ a, d'.delegateInfo a sp + total = ∑ a, d.delegateInfo a sp + total' := by
  intro l
  induction l with
  | nil =>
    intro total d h
    obtain ⟨rfl, rfl⟩ := h
    exact ⟨.of_eq rfl rfl, rfl, fun _ ↦ le_rfl, rfl⟩
  | cons delegator rest ih =>
    intro total d h
    unfold _distributeDelegateRewards at h
    simp only [bind_eq_ok] at h
    obtain ⟨stake, -, reward, -, mid, hcredit, next, hnext, hrest⟩ := h
    obtain rfl : next = total + reward := by
      exact ((add_eq_ok _ _ _ _).mp hnext).2.symm
    have hmid := creditDelegator_eq_ok hcredit
    have hshares : Reshares sp d mid := by
      rw [hmid]
      exact reshares_set (by omega)
    have hsum : ∑ a, mid.delegateInfo a sp = ∑ a, d.delegateInfo a sp + reward := by
      have hset := sum_setDelegateInfo d delegator sp (d.delegateInfo delegator sp + reward)
      rw [hmid]
      simp only [_updateDelegatorTotalStake]
      omega
    have hgrow : ∀ a, d.delegateInfo a sp ≤ mid.delegateInfo a sp := by
      intro a
      rw [hmid]
      simp only [_updateDelegatorTotalStake, delegateInfo_setDelegateInfo]
      split
      · next heq =>
        rw [heq.1]
        exact Nat.le_add_right _ _
      · exact le_rfl
    have honly : SharesOnly d mid := by
      rw [hmid]
      rfl
    obtain ⟨hshares', honly', hgrow', hsum'⟩ := ih hrest
    refine ⟨hshares.trans hshares', ?_, fun a ↦ (hgrow a).trans (hgrow' a), ?_⟩
    · unfold SharesOnly at *
      rw [honly', honly]
    · omega

/-! ### Slashes -/

/-- Requests may have been dropped, with the amounts they locked; lists and delegated
totals stand. -/
structure SlashOnly (d d' : DelegateManagerV2) : Prop where
  rest : d' = { d with
    delegateInfo := d'.delegateInfo
    delegatorTotalStake := d'.delegatorTotalStake
    undelegateRequests := d'.undelegateRequests
    spDelegateInfo := d'.spDelegateInfo }
  delegated : ∀ x, (d'.spDelegateInfo x).totalDelegatedStake
    = (d.spDelegateInfo x).totalDelegatedStake
  delegators : ∀ x, (d'.spDelegateInfo x).delegators = (d.spDelegateInfo x).delegators
  requests : ∀ a, d'.undelegateRequests a = d.undelegateRequests a ∨
    d'.undelegateRequests a = ⟨0, 0, 0⟩

theorem SlashOnly.trans {d'' : DelegateManagerV2} (h : SlashOnly d d') (h' : SlashOnly d' d'') :
    SlashOnly d d'' where
  rest := by rw [h'.rest, h.rest]
  delegated x := (h'.delegated x).trans (h.delegated x)
  delegators x := (h'.delegators x).trans (h.delegators x)
  requests a := by
    rcases h'.requests a with heq | heq
    · rw [heq]
      exact h.requests a
    · exact .inr heq

/-- Dropping a request, when there is one. -/
theorem dropRequest_spec (h : d.dropRequest delegator = .ok d') :
    SlashOnly d d' ∧ d'.delegateInfo = d.delegateInfo ∧
      d'.delegatorTotalStake = d.delegatorTotalStake ∧
      (d'.undelegateRequests delegator).amount = 0 := by
  unfold dropRequest at h
  split at h
  · simp only [↓sub_bind_eq_ok, pure_eq_ok] at h
    obtain ⟨-, rfl⟩ := h
    refine ⟨⟨rfl, fun x ↦ ?_, fun x ↦ ?_, fun a ↦ ?_⟩, rfl, rfl, ?_⟩
    · by_cases hx : x = (d.undelegateRequests delegator).serviceProvider
      · subst hx
        simp [_resetUndelegateStakeRequest, _updateUndelegateStakeRequest,
          _updateServiceProviderLockupAmount, setSpInfo]
      · simp [_resetUndelegateStakeRequest, _updateUndelegateStakeRequest,
          _updateServiceProviderLockupAmount, setSpInfo, hx]
    · by_cases hx : x = (d.undelegateRequests delegator).serviceProvider
      · subst hx
        simp [_resetUndelegateStakeRequest, _updateUndelegateStakeRequest,
          _updateServiceProviderLockupAmount, setSpInfo]
      · simp [_resetUndelegateStakeRequest, _updateUndelegateStakeRequest,
          _updateServiceProviderLockupAmount, setSpInfo, hx]
    · by_cases ha : a = delegator
      · subst ha
        simp [_resetUndelegateStakeRequest, _updateUndelegateStakeRequest]
      · simp [_resetUndelegateStakeRequest, _updateUndelegateStakeRequest,
          _updateServiceProviderLockupAmount, setSpInfo, ha]
    · simp [_resetUndelegateStakeRequest, _updateUndelegateStakeRequest]
  · next hzero =>
    cases h
    exact ⟨⟨rfl, fun _ ↦ rfl, fun _ ↦ rfl, fun _ ↦ .inl rfl⟩, rfl, rfl, not_ne_iff.mp hzero⟩

/-- Scaling down one delegator. -/
theorem slashDelegator_eq_ok {pre post total : ℕ}
    (h : d.slashDelegator sp delegator pre post total = .ok (d', total')) :
    ∃ decrease, decrease ≤ d.delegateInfo delegator sp ∧
      decrease ≤ d.delegatorTotalStake delegator ∧ total' = total + decrease ∧
      d' = (d.setDelegateInfo delegator sp
        (d.delegateInfo delegator sp - decrease))._updateDelegatorTotalStake delegator
          (d.delegatorTotalStake delegator - decrease) := by
  unfold slashDelegator at h
  simp only [↓mul_bind_eq_ok, ↓div_bind_eq_ok, ↓sub_bind_eq_ok, ↓add_bind_eq_ok, pure_eq_ok,
    Prod.mk.injEq] at h
  obtain ⟨-, -, -, hle, hleTotal, -, rfl, rfl⟩ := h
  exact ⟨_, hle, hleTotal, rfl, rfl⟩

/-- What a slash leaves of the shares, for any list of delegators. -/
theorem slashDelegators_spec {pre post : ℕ} :
    ∀ {l : List Address} {total : ℕ} {d : DelegateManagerV2},
      d.slashDelegators sp pre post l total = .ok (d', total') →
      Reshares sp d d' ∧ SlashOnly d d' ∧
        (∀ a, d'.delegateInfo a sp ≤ d.delegateInfo a sp) ∧
        (∀ a, a ∉ l → d'.delegateInfo a sp = d.delegateInfo a sp) ∧
        (∀ a ∈ l, (d'.undelegateRequests a).amount = 0) ∧
        ∑ a, d'.delegateInfo a sp + total' = ∑ a, d.delegateInfo a sp + total := by
  intro l
  induction l with
  | nil =>
    intro total d h
    obtain ⟨rfl, rfl⟩ := h
    exact ⟨.of_eq rfl rfl, ⟨rfl, fun _ ↦ rfl, fun _ ↦ rfl, fun _ ↦ .inl rfl⟩, fun _ ↦ le_rfl,
      fun _ _ ↦ rfl, by simp, rfl⟩
  | cons delegator rest ih =>
    intro total d h
    unfold slashDelegators at h
    simp only [bind_eq_ok] at h
    obtain ⟨⟨scaled, next⟩, hscale, dropped, hdrop, hrest⟩ := h
    obtain ⟨decrease, hle, hleTotal, rfl, hscaled⟩ := slashDelegator_eq_ok hscale
    obtain ⟨honlyDrop, hshareDrop, htotalDrop, hrequest⟩ := dropRequest_spec hdrop
    obtain ⟨hshares', honly', hshrink', hoff', hdropped', hsum'⟩ := ih hrest
    have hshares : Reshares sp d dropped := by
      have hscale : Reshares sp d scaled := by
        rw [hscaled]
        exact reshares_set (by omega)
      exact hscale.trans (.of_eq hshareDrop htotalDrop)
    have honly : SlashOnly d dropped := by
      have hscale : SlashOnly d scaled := by
        rw [hscaled]
        exact ⟨rfl, fun _ ↦ rfl, fun _ ↦ rfl, fun _ ↦ .inl rfl⟩
      exact hscale.trans honlyDrop
    have hshare : ∀ a, dropped.delegateInfo a sp
        = if a = delegator then d.delegateInfo delegator sp - decrease
          else d.delegateInfo a sp := by
      intro a
      rw [hshareDrop, hscaled]
      simp [_updateDelegatorTotalStake, delegateInfo_setDelegateInfo]
    have hsum : ∑ a, dropped.delegateInfo a sp + decrease = ∑ a, d.delegateInfo a sp := by
      have hset := sum_setDelegateInfo d delegator sp (d.delegateInfo delegator sp - decrease)
      rw [hshareDrop, hscaled]
      simp only [_updateDelegatorTotalStake]
      omega
    refine ⟨hshares.trans hshares', honly.trans honly', fun a ↦ (hshrink' a).trans ?_,
      fun a ha ↦ ?_, fun a ha ↦ ?_, by omega⟩
    · rw [hshare]
      split
      · next heq =>
        rw [heq]
        exact Nat.sub_le _ _
      · exact le_rfl
    · simp only [List.mem_cons, not_or] at ha
      rw [hoff' a ha.2, hshare, if_neg ha.1]
    · rcases List.mem_cons.mp ha with rfl | hmem
      · rcases honly'.requests a with heq | heq
        · rw [heq]
          exact hrequest
        · rw [heq]
      · exact hdropped' a hmem

end DelegateManagerV2

end ColivingSpec
