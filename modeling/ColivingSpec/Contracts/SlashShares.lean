import ColivingSpec.Contracts.LockedStake
import ColivingSpec.Lib.Proportional

/-!
# What a slash takes from each delegator

The loop scales the share of every delegator in the list down to its part of what is left, rounded
down, and drops its request. Address zero holds no share, so the deleted slots of a list are passed
over; every other delegator is scaled once.
-/

namespace ColivingSpec

open Lib

namespace DelegateManagerV2

/-- What is left of a share, `DelegateManagerV2.sol:577–579`. -/
def slashedShare (preSlash afterSlash preSlashDelegateStake : ℕ) : ℕ :=
  afterSlash * preSlashDelegateStake / preSlash

variable {sp delegator : Address} {d d' : DelegateManagerV2} {pre post total total' share : ℕ}

@[simp] theorem slashedShare_zero : slashedShare pre post 0 = 0 := by
  rw [slashedShare, Nat.mul_zero, Nat.zero_div]

/-- A share does not grow. -/
theorem slashedShare_le (hle : post ≤ pre) : slashedShare pre post share ≤ share := by
  apply Nat.div_le_of_le_mul
  exact Nat.mul_le_mul_right share hle

/-! ### One delegator -/

/-- The records with the share of one delegator scaled down. -/
def scaled (sp delegator : Address) (pre post : ℕ) (d : DelegateManagerV2) : DelegateManagerV2 :=
  let new := slashedShare pre post (d.delegateInfo delegator sp)
  (d.setDelegateInfo delegator sp new)._updateDelegatorTotalStake delegator
    (d.delegatorTotalStake delegator - (d.delegateInfo delegator sp - new))

/-- The records with a request dropped, if there is one. -/
def dropped (delegator : Address) (d : DelegateManagerV2) : DelegateManagerV2 :=
  if (d.undelegateRequests delegator).amount ≠ 0 then d.release delegator else d

theorem delegateInfo_scaled (a x : Address) :
    (scaled sp delegator pre post d).delegateInfo a x = if a = delegator ∧ x = sp then
      slashedShare pre post (d.delegateInfo delegator sp) else d.delegateInfo a x :=
  delegateInfo_setDelegateInfo d delegator sp _ a x

@[simp] theorem delegateInfo_dropped : (dropped delegator d).delegateInfo = d.delegateInfo := by
  unfold dropped
  split
  · rfl
  · rfl

@[simp] theorem delegatorTotalStake_dropped :
    (dropped delegator d).delegatorTotalStake = d.delegatorTotalStake := by
  unfold dropped
  split
  · rfl
  · rfl

theorem undelegateRequests_dropped (a : Address) (ha : a ≠ delegator) :
    (dropped delegator d).undelegateRequests a = d.undelegateRequests a := by
  unfold dropped
  split
  · rw [undelegateRequests_release, Function.update_of_ne ha]
  · rfl

theorem LocksCounted.dropped (h : d.LocksCounted) (delegator : Address) :
    (d.dropped delegator).LocksCounted := by
  unfold DelegateManagerV2.dropped
  split
  · exact h.release delegator
  · exact h

/-- A delegator is scaled when no product is too large and the totals cover what goes. -/
theorem slashDelegator_iff :
    d.slashDelegator sp delegator pre post total = .ok (d', total') ↔
      post * d.delegateInfo delegator sp < uint256Bound ∧ pre ≠ 0 ∧
      slashedShare pre post (d.delegateInfo delegator sp) ≤ d.delegateInfo delegator sp ∧
      d.delegateInfo delegator sp - slashedShare pre post (d.delegateInfo delegator sp)
        ≤ d.delegatorTotalStake delegator ∧
      total + (d.delegateInfo delegator sp
        - slashedShare pre post (d.delegateInfo delegator sp)) < uint256Bound ∧
      d' = d.scaled sp delegator pre post ∧
      total' = total + (d.delegateInfo delegator sp
        - slashedShare pre post (d.delegateInfo delegator sp)) := by
  unfold slashDelegator scaled slashedShare
  simp only [↓mul_bind_eq_ok, ↓div_bind_eq_ok, ↓sub_bind_eq_ok, ↓add_bind_eq_ok, pure_eq_ok,
    Prod.mk.injEq]
  constructor
  · rintro ⟨hfits, hpre, hle, -, htotal, hsum, rfl, rfl⟩
    rw [Nat.sub_sub_self hle]
    exact ⟨hfits, hpre, hle, htotal, hsum, rfl, rfl⟩
  · rintro ⟨hfits, hpre, hle, htotal, hsum, rfl, rfl⟩
    rw [Nat.sub_sub_self hle]
    exact ⟨hfits, hpre, hle, Nat.sub_le _ _, htotal, hsum, rfl, rfl⟩

/-- What a request locks is in the locked total of its provider, so it can be dropped. -/
theorem LocksCounted.dropRequest (h : d.LocksCounted) (delegator : Address) :
    d.dropRequest delegator = .ok (d.dropped delegator) := by
  have hle : (d.undelegateRequests delegator).amount
      ≤ (d.spDelegateInfo (d.undelegateRequests delegator).serviceProvider).totalLockedUpStake := by
    rw [h.locked]
    have hself : d.lockedBy delegator (d.undelegateRequests delegator).serviceProvider
        = (d.undelegateRequests delegator).amount := by simp [lockedBy]
    rw [← hself]
    exact le_sum (fun a ↦ d.lockedBy a (d.undelegateRequests delegator).serviceProvider) delegator
  unfold DelegateManagerV2.dropRequest DelegateManagerV2.dropped
  split
  · simp only [↓sub_bind_eq_ok, pure_eq_ok]
    exact ⟨hle, rfl⟩
  · rfl

/-- A dropped request is dropped as it says. -/
theorem dropRequest_eq_ok (h : d.dropRequest delegator = .ok d') : d' = d.dropped delegator := by
  unfold dropRequest at h
  unfold dropped
  split at h
  · next hrequest =>
    simp only [↓sub_bind_eq_ok, pure_eq_ok] at h
    rw [if_pos hrequest]
    exact h.2.symm
  · next hrequest =>
    rw [if_neg hrequest]
    exact (Except.ok.inj h).symm

/-! ### The loop -/

/-- One pass of the loop. -/
theorem slashDelegators_cons {rest : List Address} :
    d.slashDelegators sp pre post (delegator :: rest) total = .ok (d', total') ↔
      ∃ mid mid' next, d.slashDelegator sp delegator pre post total = .ok (mid, next) ∧
        mid.dropRequest delegator = .ok mid' ∧
        mid'.slashDelegators sp pre post rest next = .ok (d', total') := by
  rw [slashDelegators]
  simp only [bind_eq_ok]
  constructor
  · rintro ⟨⟨mid, next⟩, hslash, mid', hdrop, hrest⟩
    exact ⟨mid, mid', next, hslash, hdrop, hrest⟩
  · rintro ⟨mid, mid', next, hslash, hdrop, hrest⟩
    exact ⟨(mid, next), hslash, mid', hdrop, hrest⟩

/-- Every share in the list is scaled down once, and nobody else loses a request. -/
theorem slashDelegators_scales {l : List Address} :
    ∀ {total : ℕ} {d : DelegateManagerV2}, (live 0 l).Nodup → d.delegateInfo 0 sp = 0 →
      d.slashDelegators sp pre post l total = .ok (d', total') →
      (∀ a, d'.delegateInfo a sp = if a ∈ l then slashedShare pre post (d.delegateInfo a sp)
        else d.delegateInfo a sp) ∧
      ∀ a, a ∉ l → d'.undelegateRequests a = d.undelegateRequests a := by
  induction l with
  | nil =>
    intro total d _ _ h
    obtain ⟨rfl, -⟩ := h
    exact ⟨fun a ↦ by simp, fun _ _ ↦ rfl⟩
  | cons delegator rest ih =>
    intro total d hnodup hnobody h
    obtain ⟨mid, mid', next, hslash, hdrop, hrest⟩ := slashDelegators_cons.mp h
    obtain ⟨-, -, -, -, -, rfl, -⟩ := slashDelegator_iff.mp hslash
    obtain rfl := dropRequest_eq_ok hdrop
    have hshare : ∀ a, ((d.scaled sp delegator pre post).dropped delegator).delegateInfo a sp
        = if a = delegator then slashedShare pre post (d.delegateInfo delegator sp)
          else d.delegateInfo a sp := by
      intro a
      rw [delegateInfo_dropped, delegateInfo_scaled]
      simp only [and_true]
    have hnobody' : ((d.scaled sp delegator pre post).dropped delegator).delegateInfo 0 sp
        = 0 := by
      rw [hshare]
      split
      · next heq => rw [← heq, hnobody, slashedShare_zero]
      · exact hnobody
    by_cases hzero : delegator = 0
    · -- a deleted slot: the share of address zero is scaled to zero
      subst hzero
      have hsame : ∀ a, ((d.scaled sp 0 pre post).dropped 0).delegateInfo a sp
          = d.delegateInfo a sp := by
        intro a
        rw [hshare]
        split
        · next heq => rw [heq, hnobody, slashedShare_zero]
        · rfl
      have hlive : live 0 (0 :: rest) = live 0 rest := by simp [live]
      obtain ⟨hscaled, hrequests⟩ := ih hnodup hnobody' hrest
      constructor
      · intro a
        rw [hscaled, hsame]
        by_cases ha : a = 0
        · rw [ha, hnobody, slashedShare_zero, ite_self, ite_self]
        · simp only [List.mem_cons, ha, false_or]
      · intro a ha
        rw [List.mem_cons, not_or] at ha
        rw [hrequests a ha.2, undelegateRequests_dropped a ha.1]
        rfl
    · have hlive : live 0 (delegator :: rest) = delegator :: live 0 rest := by
        simp [live, hzero]
      rw [hlive, List.nodup_cons, mem_live] at hnodup
      have hnotin : delegator ∉ rest := fun hmem ↦ hnodup.1 ⟨hmem, hzero⟩
      obtain ⟨hscaled, hrequests⟩ := ih hnodup.2 hnobody' hrest
      constructor
      · intro a
        rw [hscaled, hshare]
        by_cases ha : a = delegator
        · subst ha
          rw [if_neg hnotin, if_pos rfl, if_pos List.mem_cons_self]
        · simp only [List.mem_cons, ha, false_or, if_false]
      · intro a ha
        rw [List.mem_cons, not_or] at ha
        rw [hrequests a ha.2, undelegateRequests_dropped a ha.1]
        rfl

/-- Scaling down does not touch what is locked. -/
theorem LocksCounted.scaled (h : d.LocksCounted) : (d.scaled sp delegator pre post).LocksCounted :=
  h.of_eq rfl fun _ ↦ rfl

/-- What goes from the share of a delegator is what its total and the sum of shares lose. -/
theorem scaled_shares (sp delegator : Address) (hle : post ≤ pre)
    (hcovers : ∀ a, d.delegateInfo a sp ≤ d.delegatorTotalStake a) :
    (∀ a, (d.scaled sp delegator pre post).delegateInfo a sp ≤ d.delegateInfo a sp) ∧
    (∀ a, (d.scaled sp delegator pre post).delegateInfo a sp
      ≤ (d.scaled sp delegator pre post).delegatorTotalStake a) ∧
    ∑ a, (d.scaled sp delegator pre post).delegateInfo a sp
      + (d.delegateInfo delegator sp
        - slashedShare pre post (d.delegateInfo delegator sp)) = ∑ a, d.delegateInfo a sp := by
  have hnew : slashedShare pre post (d.delegateInfo delegator sp) ≤ d.delegateInfo delegator sp :=
    slashedShare_le hle
  have hshare : ∀ a, (d.scaled sp delegator pre post).delegateInfo a sp = if a = delegator then
      slashedShare pre post (d.delegateInfo delegator sp) else d.delegateInfo a sp := by
    intro a
    rw [delegateInfo_scaled]
    simp only [and_true]
  refine ⟨fun a ↦ ?_, fun a ↦ ?_, ?_⟩
  · rw [hshare]
    split
    · next heq =>
      rw [heq]
      exact hnew
    · exact Nat.le_refl _
  · have hcover := hcovers a
    rw [hshare]
    by_cases ha : a = delegator
    · subst ha
      rw [if_pos rfl]
      simp only [scaled, _updateDelegatorTotalStake, Function.update_self]
      omega
    · rw [if_neg ha]
      simp only [scaled, _updateDelegatorTotalStake, Function.update_of_ne ha]
      exact hcover
  · have hsum := sum_setDelegateInfo d delegator sp
      (slashedShare pre post (d.delegateInfo delegator sp))
    show ∑ a, (d.setDelegateInfo delegator sp _).delegateInfo a sp + _ = _
    omega

/-- The loop goes through when no product and no sum is too large: the locked totals cover the
requests and the totals of the delegators their shares. -/
theorem slashDelegators_succeeds (hpre : 0 < pre) (hle : post ≤ pre) {l : List Address} :
    ∀ {total : ℕ} {d : DelegateManagerV2}, d.LocksCounted →
      (∀ a, d.delegateInfo a sp ≤ d.delegatorTotalStake a) →
      (∀ a ∈ l, post * d.delegateInfo a sp < uint256Bound) →
      total + ∑ a, d.delegateInfo a sp < uint256Bound →
      Succeeds (d.slashDelegators sp pre post l total) := by
  induction l with
  | nil =>
    intro total d _ _ _ _
    exact ⟨(d, total), rfl⟩
  | cons delegator rest ih =>
    intro total d hcounted hcovers hfits hsum
    obtain ⟨hshrinks, hcovers', hsum'⟩ := scaled_shares sp delegator hle hcovers
    have hnew : slashedShare pre post (d.delegateInfo delegator sp)
        ≤ d.delegateInfo delegator sp := slashedShare_le hle
    have hcover := hcovers delegator
    have hslash : d.slashDelegator sp delegator pre post total
        = .ok (d.scaled sp delegator pre post, total + (d.delegateInfo delegator sp
          - slashedShare pre post (d.delegateInfo delegator sp))) := by
      apply slashDelegator_iff.mpr
      refine ⟨hfits delegator List.mem_cons_self, by omega, hnew, by omega, ?_, rfl, rfl⟩
      omega
    have hdrop : (d.scaled sp delegator pre post).dropRequest delegator
        = .ok ((d.scaled sp delegator pre post).dropped delegator) :=
      hcounted.scaled.dropRequest delegator
    have hrest : Succeeds (((d.scaled sp delegator pre post).dropped delegator).slashDelegators sp
        pre post rest (total + (d.delegateInfo delegator sp
          - slashedShare pre post (d.delegateInfo delegator sp)))) := by
      apply ih (hcounted.scaled.dropped delegator)
      · rw [delegateInfo_dropped, delegatorTotalStake_dropped]
        exact hcovers'
      · intro a ha
        rw [delegateInfo_dropped]
        exact Nat.lt_of_le_of_lt (Nat.mul_le_mul_left post (hshrinks a))
          (hfits a (List.mem_cons_of_mem _ ha))
      · rw [delegateInfo_dropped]
        omega
    obtain ⟨⟨d', total'⟩, hrest⟩ := hrest
    exact ⟨(d', total'), slashDelegators_cons.mpr ⟨_, _, _, hslash, hdrop, hrest⟩⟩

end DelegateManagerV2

end ColivingSpec
