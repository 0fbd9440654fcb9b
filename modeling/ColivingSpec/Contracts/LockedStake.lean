import ColivingSpec.Contracts.DelegationEffects

/-!
# What the undelegation requests lock

A claim leaves out the stake that delegators have asked to withdraw. It reads this amount
twice: in sum from `totalLockedUpStake` of the provider, and delegator by delegator from
the requests. `Sound` says that the two agree, that no request exceeds the share it is for, and
that the list of a provider names whoever has a share, and nobody twice.
-/

namespace ColivingSpec

open Lib

namespace DelegateManagerV2

/-- What the request of `a` locks of the stake delegated to `sp`. -/
def lockedBy (d : DelegateManagerV2) (a sp : Address) : ℕ :=
  if (d.undelegateRequests a).serviceProvider = sp then (d.undelegateRequests a).amount else 0

/-- What the requests lock together of the stake delegated to `sp`. -/
def lockedTotal (d : DelegateManagerV2) (sp : Address) : ℕ := ∑ a, d.lockedBy a sp

/-- The locked total of every provider is what the requests lock, and each of them is pending. -/
structure LocksCounted (d : DelegateManagerV2) : Prop where
  pending : ∀ a, (d.undelegateRequests a).amount ≠ 0 → d._undelegateRequestIsPending a = true
  locked : ∀ sp, (d.spDelegateInfo sp).totalLockedUpStake = d.lockedTotal sp

/-- Requests, shares and lists of delegators agree. Address zero is what a deleted slot of a
list holds: it delegates nothing and nothing is delegated to it. -/
structure Sound (d : DelegateManagerV2) : Prop where
  counted : d.LocksCounted
  backed : ∀ a sp, d.lockedBy a sp ≤ d.delegateInfo a sp
  listed : ∀ a sp, d.delegateInfo a sp ≠ 0 → a ∈ (d.spDelegateInfo sp).delegators
  nobody : ∀ sp, d.delegateInfo 0 sp = 0
  nodup : ∀ sp, (live 0 (d.spDelegateInfo sp).delegators).Nodup
  nowhere : (d.spDelegateInfo 0).delegators = []
  lockup : 0 < d.undelegateLockupDuration

variable {sp a : Address} {d d' : DelegateManagerV2}

/-! ### Requests and locked totals -/

theorem totalLockedUpStake_updateLockup (d : DelegateManagerV2) (sp : Address) (locked : ℕ)
    (x : Address) :
    ((d._updateServiceProviderLockupAmount sp locked).spDelegateInfo x).totalLockedUpStake
      = if x = sp then locked else (d.spDelegateInfo x).totalLockedUpStake := by
  by_cases hx : x = sp
  · subst hx
    simp [_updateServiceProviderLockupAmount, setSpInfo]
  · simp [_updateServiceProviderLockupAmount, setSpInfo, hx]

@[simp] theorem totalLockedUpStake_setDelegators (d : DelegateManagerV2) (sp : Address)
    (l : List Address) (x : Address) :
    ((d.setDelegators sp l).spDelegateInfo x).totalLockedUpStake
      = (d.spDelegateInfo x).totalLockedUpStake := by
  by_cases hx : x = sp
  · subst hx
    simp [setDelegators, setSpInfo]
  · simp [setDelegators, setSpInfo, hx]

@[simp] theorem totalLockedUpStake_setTotalDelegatedStake (d : DelegateManagerV2) (sp : Address)
    (total : ℕ) (x : Address) :
    ((d.setTotalDelegatedStake sp total).spDelegateInfo x).totalLockedUpStake
      = (d.spDelegateInfo x).totalLockedUpStake := by
  by_cases hx : x = sp
  · subst hx
    simp [setTotalDelegatedStake, setSpInfo]
  · simp [setTotalDelegatedStake, setSpInfo, hx]

@[simp] theorem totalLockedUpStake_updateDelegatorStake (d : DelegateManagerV2)
    (delegator sp : Address) (total share delegatorTotal : ℕ) (x : Address) :
    ((d._updateDelegatorStake delegator sp total share delegatorTotal).spDelegateInfo
      x).totalLockedUpStake = (d.spDelegateInfo x).totalLockedUpStake :=
  totalLockedUpStake_setTotalDelegatedStake _ _ _ _

@[simp] theorem spDelegateInfo_resetRequest (d : DelegateManagerV2) (a : Address) :
    (d._resetUndelegateStakeRequest a).spDelegateInfo = d.spDelegateInfo := rfl

/-- What is locked follows from the requests alone. -/
theorem lockedBy_congr (h : d'.undelegateRequests = d.undelegateRequests) :
    d'.lockedBy = d.lockedBy := by
  funext x y
  simp only [lockedBy, h]

/-- A provider's locked total follows from the requests alone. -/
theorem lockedTotal_congr (h : d'.undelegateRequests = d.undelegateRequests) :
    d'.lockedTotal = d.lockedTotal := by
  funext x
  unfold lockedTotal
  rw [lockedBy_congr h]

@[simp] theorem lockedTotal_updateLockup (d : DelegateManagerV2) (sp : Address) (locked : ℕ) :
    (d._updateServiceProviderLockupAmount sp locked).lockedTotal = d.lockedTotal :=
  lockedTotal_congr rfl

/-- What the requests lock after one of them was written. -/
theorem lockedBy_updateRequest (d : DelegateManagerV2) (a : Address) (r : UndelegateStakeRequest)
    (x sp : Address) :
    (d._updateUndelegateStakeRequest a r).lockedBy x sp
      = if x = a then if r.serviceProvider = sp then r.amount else 0 else d.lockedBy x sp := by
  by_cases hx : x = a
  · subst hx
    simp [lockedBy, _updateUndelegateStakeRequest]
  · simp [lockedBy, _updateUndelegateStakeRequest, hx]

/-- What the requests lock together after one of them was written. -/
theorem lockedTotal_updateRequest (d : DelegateManagerV2) (a : Address)
    (r : UndelegateStakeRequest) (sp : Address) :
    (d._updateUndelegateStakeRequest a r).lockedTotal sp + d.lockedBy a sp
      = d.lockedTotal sp + if r.serviceProvider = sp then r.amount else 0 := by
  have hself : (d._updateUndelegateStakeRequest a r).lockedBy a sp
      = if r.serviceProvider = sp then r.amount else 0 := by
    rw [lockedBy_updateRequest, if_pos rfl]
  rw [← hself]
  exact sum_add_eq_of_off (fun x ↦ d.lockedBy x sp)
    (fun x ↦ (d._updateUndelegateStakeRequest a r).lockedBy x sp) a
    fun x hx ↦ by rw [lockedBy_updateRequest, if_neg hx]

/-- Nothing but requests and locked totals counts. -/
theorem LocksCounted.of_eq (h : d.LocksCounted)
    (hrequests : d'.undelegateRequests = d.undelegateRequests)
    (hlocked : ∀ x, (d'.spDelegateInfo x).totalLockedUpStake
      = (d.spDelegateInfo x).totalLockedUpStake) : d'.LocksCounted where
  pending x hx := by
    unfold _undelegateRequestIsPending
    rw [hrequests] at hx ⊢
    exact h.pending x hx
  locked x := by
    rw [hlocked x, lockedTotal_congr hrequests]
    exact h.locked x

/-- A request that is not pending locks nothing. -/
theorem LocksCounted.lockedBy_eq_zero (h : d.LocksCounted)
    (hnone : ¬ (d._undelegateRequestIsPending a = true ∧
      (d.undelegateRequests a).serviceProvider = sp)) : d.lockedBy a sp = 0 := by
  unfold lockedBy
  split
  · next hsp =>
    by_contra hamount
    exact hnone ⟨h.pending a hamount, hsp⟩
  · rfl

/-- A new request adds to the locked total of its provider. -/
theorem LocksCounted.request (h : d.LocksCounted) {amount lockupExpiryBlock : ℕ}
    (hnone : d._undelegateRequestIsPending a = false) (hsp : sp ≠ 0)
    (hexpiry : lockupExpiryBlock ≠ 0) :
    ((d._updateUndelegateStakeRequest a ⟨sp, amount, lockupExpiryBlock⟩
      )._updateServiceProviderLockupAmount sp
        ((d.spDelegateInfo sp).totalLockedUpStake + amount)).LocksCounted where
  pending x hx := by
    by_cases hxa : x = a
    · subst hxa
      simp only [_updateUndelegateStakeRequest, _updateServiceProviderLockupAmount, setSpInfo,
        Function.update_self] at hx
      simp [_undelegateRequestIsPending, _updateUndelegateStakeRequest,
        _updateServiceProviderLockupAmount, setSpInfo, hx, hsp, hexpiry]
    · have hsame := h.pending x
      simp only [_undelegateRequestIsPending, _updateUndelegateStakeRequest,
        _updateServiceProviderLockupAmount, setSpInfo, Function.update_of_ne hxa] at hx hsame ⊢
      exact hsame hx
  locked x := by
    have hold : d.lockedBy a x = 0 := h.lockedBy_eq_zero (by simp [hnone])
    have htotal := lockedTotal_updateRequest d a ⟨sp, amount, lockupExpiryBlock⟩ x
    dsimp only at htotal
    have hcount := h.locked x
    rw [totalLockedUpStake_updateLockup, lockedTotal_updateLockup]
    by_cases hx : x = sp
    · subst hx
      rw [if_pos rfl] at htotal ⊢
      omega
    · rw [if_neg (Ne.symm hx)] at htotal
      rw [if_neg hx]
      show (d.spDelegateInfo x).totalLockedUpStake = _
      omega

/-- Drop the request of `a` and what it locks. -/
def release (a : Address) (d : DelegateManagerV2) : DelegateManagerV2 :=
  (d._updateServiceProviderLockupAmount (d.undelegateRequests a).serviceProvider
    ((d.spDelegateInfo (d.undelegateRequests a).serviceProvider).totalLockedUpStake
      - (d.undelegateRequests a).amount))._resetUndelegateStakeRequest a

theorem totalLockedUpStake_release (d : DelegateManagerV2) (a x : Address) :
    ((d.release a).spDelegateInfo x).totalLockedUpStake
      = if x = (d.undelegateRequests a).serviceProvider then
          (d.spDelegateInfo (d.undelegateRequests a).serviceProvider).totalLockedUpStake
            - (d.undelegateRequests a).amount
        else (d.spDelegateInfo x).totalLockedUpStake :=
  totalLockedUpStake_updateLockup d _ _ x

@[simp] theorem delegators_release (d : DelegateManagerV2) (a x : Address) :
    ((d.release a).spDelegateInfo x).delegators = (d.spDelegateInfo x).delegators :=
  delegators_updateLockup d _ _ x

theorem undelegateRequests_release (d : DelegateManagerV2) (a : Address) :
    (d.release a).undelegateRequests = Function.update d.undelegateRequests a ⟨0, 0, 0⟩ := rfl

/-- A released request locks nothing, the others what they did. -/
theorem lockedBy_release (d : DelegateManagerV2) (a x sp : Address) :
    (d.release a).lockedBy x sp = if x = a then 0 else d.lockedBy x sp := by
  by_cases hx : x = a
  · subst hx
    simp [lockedBy, undelegateRequests_release]
  · simp [lockedBy, undelegateRequests_release, hx]

/-- A dropped request takes from the locked total of its provider what it locked. -/
theorem LocksCounted.release (h : d.LocksCounted) (a : Address) : (d.release a).LocksCounted where
  pending x hx := by
    rw [undelegateRequests_release] at hx
    by_cases hxa : x = a
    · subst hxa
      simp at hx
    · have hsame := h.pending x
      simp only [_undelegateRequestIsPending, undelegateRequests_release,
        Function.update_of_ne hxa] at hx hsame ⊢
      exact hsame hx
  locked x := by
    have htotal := lockedTotal_updateRequest d a ⟨0, 0, 0⟩ x
    have hcount := h.locked x
    dsimp only at htotal
    rw [ite_self] at htotal
    show ((d._updateServiceProviderLockupAmount _ _).spDelegateInfo x).totalLockedUpStake
      = (d._updateUndelegateStakeRequest a ⟨0, 0, 0⟩).lockedTotal x
    rw [totalLockedUpStake_updateLockup]
    by_cases hx : x = (d.undelegateRequests a).serviceProvider
    · have hold : d.lockedBy a x = (d.undelegateRequests a).amount := by simp [lockedBy, hx]
      rw [if_pos hx, ← hx]
      omega
    · have hold : d.lockedBy a x = 0 := by simp [lockedBy, Ne.symm hx]
      rw [if_neg hx]
      omega

/-! ### Sound records -/

/-- Records that differ in the shares only, which grow, and only for delegators in the lists. -/
theorem Sound.of_grown (h : d.Sound) (hrequests : d'.undelegateRequests = d.undelegateRequests)
    (hlocked : ∀ x, (d'.spDelegateInfo x).totalLockedUpStake
      = (d.spDelegateInfo x).totalLockedUpStake)
    (hlists : ∀ x, (d'.spDelegateInfo x).delegators = (d.spDelegateInfo x).delegators)
    (hlockup : 0 < d'.undelegateLockupDuration)
    (hgrow : ∀ a x, d.delegateInfo a x ≤ d'.delegateInfo a x)
    (hmoved : ∀ a x, d'.delegateInfo a x ≠ d.delegateInfo a x →
      a ≠ 0 ∧ a ∈ (d.spDelegateInfo x).delegators) : d'.Sound where
  counted := h.counted.of_eq hrequests hlocked
  backed x y := by
    rw [lockedBy_congr hrequests]
    exact (h.backed x y).trans (hgrow x y)
  listed x y hshare := by
    rw [hlists]
    by_cases hsame : d'.delegateInfo x y = d.delegateInfo x y
    · exact h.listed x y (hsame ▸ hshare)
    · exact (hmoved x y hsame).2
  nobody y := by
    by_contra hshare
    refine (hmoved 0 y fun hsame ↦ hshare ?_).1 rfl
    rw [hsame, h.nobody]
  nodup y := by
    rw [hlists]
    exact h.nodup y
  nowhere := by rw [hlists, h.nowhere]
  lockup := hlockup

/-- Records that differ in nothing that counts here. -/
theorem Sound.of_eq (h : d.Sound) (hrequests : d'.undelegateRequests = d.undelegateRequests)
    (hlocked : ∀ x, (d'.spDelegateInfo x).totalLockedUpStake
      = (d.spDelegateInfo x).totalLockedUpStake)
    (hlists : ∀ x, (d'.spDelegateInfo x).delegators = (d.spDelegateInfo x).delegators)
    (hlockup : d'.undelegateLockupDuration = d.undelegateLockupDuration)
    (hshares : d'.delegateInfo = d.delegateInfo) : d'.Sound :=
  h.of_grown hrequests hlocked hlists (hlockup ▸ h.lockup) (fun a x ↦ by rw [hshares])
    (fun a x hne ↦ absurd (by rw [hshares]) hne)

/-- Entering a delegator in the list. -/
theorem Sound.enlist (h : d.Sound) (ha : a ≠ 0) (hsp : sp ≠ 0)
    (henlist : d.enlist a sp = .ok d') :
    d'.Sound ∧ a ∈ (d'.spDelegateInfo sp).delegators := by
  rcases enlist_eq_ok henlist with ⟨hmem, rfl⟩ | ⟨hnew, rfl⟩
  · exact ⟨h, hmem⟩
  · have hlists := delegators_setDelegators d sp ((d.spDelegateInfo sp).delegators ++ [a])
    refine ⟨⟨h.counted.of_eq rfl fun x ↦ totalLockedUpStake_setDelegators _ _ _ x, h.backed,
      fun x y hshare ↦ ?_, h.nobody, fun y ↦ ?_, ?_, h.lockup⟩, ?_⟩
    · rw [hlists]
      split
      · next heq =>
        subst heq
        exact List.mem_append_left _ (h.listed x y hshare)
      · exact h.listed x y hshare
    · rw [hlists]
      split
      · rw [live_concat _ ha, ← List.concat_eq_append]
        apply (List.nodup_concat _ _).mpr
        exact ⟨fun hmem ↦ hnew (mem_live.mp hmem).1, h.nodup sp⟩
      · exact h.nodup y
    · rw [hlists, if_neg (Ne.symm hsp)]
      exact h.nowhere
    · rw [hlists, if_pos rfl]
      exact List.mem_append_right _ (List.mem_singleton_self a)

/-- Asking to withdraw a part of a share. -/
theorem Sound.request (h : d.Sound) {amount blockNumber : ℕ}
    (hnone : d._undelegateRequestIsPending a = false)
    (hmem : a ∈ (d.spDelegateInfo sp).delegators) (hle : amount ≤ d.delegateInfo a sp) :
    ((d._updateUndelegateStakeRequest a ⟨sp, amount, blockNumber + d.undelegateLockupDuration⟩
      )._updateServiceProviderLockupAmount sp
        ((d.spDelegateInfo sp).totalLockedUpStake + amount)).Sound := by
  have hsp : sp ≠ 0 := by
    rintro rfl
    rw [h.nowhere] at hmem
    exact List.not_mem_nil hmem
  have hexpiry : blockNumber + d.undelegateLockupDuration ≠ 0 := by
    have hlockup := h.lockup
    omega
  have hlists : ∀ y, ((d._updateServiceProviderLockupAmount sp
      ((d.spDelegateInfo sp).totalLockedUpStake + amount)).spDelegateInfo y).delegators
      = (d.spDelegateInfo y).delegators := fun y ↦ delegators_updateLockup _ _ _ y
  refine ⟨h.counted.request hnone hsp hexpiry, fun x y ↦ ?_, fun x y hshare ↦ ?_, h.nobody,
    fun y ↦ ?_, (hlists 0).trans h.nowhere, h.lockup⟩
  · show (d._updateUndelegateStakeRequest a _).lockedBy x y ≤ d.delegateInfo x y
    rw [lockedBy_updateRequest]
    split
    · next hx =>
      subst hx
      split
      · next hy =>
        rw [← hy]
        exact hle
      · exact Nat.zero_le _
    · exact h.backed x y
  · exact (hlists y).symm ▸ h.listed x y hshare
  · exact (hlists y).symm ▸ h.nodup y

/-- Dropping a request. -/
theorem Sound.release (h : d.Sound) (a : Address) : (d.release a).Sound := by
  have hlists : ∀ y, ((d.release a).spDelegateInfo y).delegators
      = (d.spDelegateInfo y).delegators := fun y ↦ delegators_updateLockup d _ _ y
  refine ⟨h.counted.release a, fun x y ↦ ?_, fun x y hshare ↦ ?_, h.nobody, fun y ↦ ?_,
    (hlists 0).trans h.nowhere, h.lockup⟩
  · rw [lockedBy_release]
    split
    · exact Nat.zero_le _
    · exact h.backed x y
  · exact (hlists y).symm ▸ h.listed x y hshare
  · exact (hlists y).symm ▸ h.nodup y

/-- Records that differ in one share, of which nothing is locked, and which is smaller. -/
theorem Sound.of_shrunk (h : d.Sound) (hfree : d.lockedBy a sp = 0)
    (hrequests : d'.undelegateRequests = d.undelegateRequests)
    (hlocked : ∀ x, (d'.spDelegateInfo x).totalLockedUpStake
      = (d.spDelegateInfo x).totalLockedUpStake)
    (hlists : ∀ x, (d'.spDelegateInfo x).delegators = (d.spDelegateInfo x).delegators)
    (hlockup : d'.undelegateLockupDuration = d.undelegateLockupDuration)
    (hle : d'.delegateInfo a sp ≤ d.delegateInfo a sp)
    (hshares : ∀ x y, ¬ (x = a ∧ y = sp) → d'.delegateInfo x y = d.delegateInfo x y) :
    d'.Sound where
  counted := h.counted.of_eq hrequests hlocked
  backed x y := by
    rw [lockedBy_congr hrequests]
    by_cases hxy : x = a ∧ y = sp
    · rw [hxy.1, hxy.2, hfree]
      exact Nat.zero_le _
    · rw [hshares x y hxy]
      exact h.backed x y
  listed x y hshare := by
    rw [hlists]
    refine h.listed x y fun hzero ↦ hshare ?_
    by_cases hxy : x = a ∧ y = sp
    · rw [hxy.1, hxy.2] at hzero ⊢
      omega
    · rw [hshares x y hxy, hzero]
  nobody y := by
    by_cases hxy : 0 = a ∧ y = sp
    · have hzero := h.nobody y
      rw [hxy.1, hxy.2] at hzero ⊢
      omega
    · rw [hshares 0 y hxy, h.nobody]
  nodup y := by
    rw [hlists]
    exact h.nodup y
  nowhere := by rw [hlists, h.nowhere]
  lockup := hlockup ▸ h.lockup

/-- A share of which nothing is locked, written down. -/
theorem Sound.reduce (h : d.Sound) (hfree : d.lockedBy a sp = 0) (total delegatorTotal : ℕ)
    {share : ℕ} (hle : share ≤ d.delegateInfo a sp) :
    (d._updateDelegatorStake a sp total share delegatorTotal).Sound := by
  have hshare := delegateInfo_updateDelegatorStake d a sp total share delegatorTotal
  refine h.of_shrunk hfree rfl (fun x ↦ ?_) (fun x ↦ ?_) rfl ?_ (fun x y hxy ↦ ?_)
  · exact totalLockedUpStake_updateDelegatorStake _ _ _ _ _ _ x
  · exact delegators_updateDelegatorStake _ _ _ _ _ _ x
  · rw [hshare, if_pos ⟨rfl, rfl⟩]
    exact hle
  · rw [hshare, if_neg hxy]

/-- Striking a delegator without a share off a list. -/
theorem Sound.removeFromDelegatorsList (h : d.Sound) (hshare : d.delegateInfo a sp = 0)
    (ha : a ≠ 0) : (d._removeFromDelegatorsList sp a).Sound := by
  have hlists := delegators_setDelegators d sp (deleteSlot 0 a (d.spDelegateInfo sp).delegators)
  refine ⟨h.counted.of_eq rfl fun x ↦ totalLockedUpStake_setDelegators _ _ _ x, h.backed,
    fun x y hpos ↦ ?_, h.nobody, fun y ↦ ?_, ?_, h.lockup⟩
  · show x ∈ ((d.setDelegators _ _).spDelegateInfo y).delegators
    rw [hlists]
    split
    · next heq =>
      subst heq
      have hx : x ≠ 0 := by
        rintro rfl
        exact hpos (h.nobody y)
      have hne : x ≠ a := by
        rintro rfl
        exact hpos hshare
      refine (mem_live.mp (?_ : x ∈ live 0 _)).1
      rw [live_deleteSlot ha]
      exact (List.mem_erase_of_ne hne).mpr (mem_live.mpr ⟨h.listed x y hpos, hx⟩)
    · exact h.listed x y hpos
  · show (live 0 ((d.setDelegators _ _).spDelegateInfo y).delegators).Nodup
    rw [hlists]
    split
    · rw [live_deleteSlot ha]
      exact (h.nodup sp).erase a
    · exact h.nodup y
  · show ((d.setDelegators _ _).spDelegateInfo 0).delegators = []
    rw [hlists]
    split
    · next heq =>
      rw [← heq, h.nowhere]
      rfl
    · exact h.nowhere

end DelegateManagerV2

end ColivingSpec
