import ColivingSpec.System.Delegators

/-!
# Who is in the list of a provider

A delegator who withdraws everything, or is removed, leaves a zero in the list and the list as long
as it was. Until that happens the list of a provider is exact: nobody twice, no zero, everybody with
a share, and nobody without one but those whose share a slash took.
-/

namespace ColivingSpec

open Lib

namespace DelegateManagerV2

/-- The list of `sp` has whoever holds a share, once, and nobody else but the `excused`. -/
structure ListExact (d : DelegateManagerV2) (sp : Address) (excused : Address → Prop) : Prop where
  nodup : (d.spDelegateInfo sp).delegators.Nodup
  unholed : 0 ∉ (d.spDelegateInfo sp).delegators
  listed : ∀ a, 0 < d.delegateInfo a sp → a ∈ (d.spDelegateInfo sp).delegators
  current : ∀ a ∈ (d.spDelegateInfo sp).delegators, 0 < d.delegateInfo a sp ∨ excused a

/-- What a call nobody leaves by does to lists and shares: no hole is made, whoever is entered has a
share, and only a slash takes a whole one. -/
structure KeepsLists (d d' : DelegateManagerV2) (slashed : Address → Prop) : Prop where
  unholed : ∀ sp, 0 ∉ (d.spDelegateInfo sp).delegators → 0 ∉ (d'.spDelegateInfo sp).delegators
  entered : ∀ a sp, a ∈ (d'.spDelegateInfo sp).delegators →
    a ∈ (d.spDelegateInfo sp).delegators ∨ d'.delegateInfo a sp ≠ 0
  emptied : ∀ a sp, d.delegateInfo a sp ≠ 0 → d'.delegateInfo a sp = 0 → slashed sp

/-- The lists stand, and shares that are held stay held where nothing is slashed. -/
theorem KeepsLists.of_lists {d d' : DelegateManagerV2} {slashed : Address → Prop}
    (hlists : ∀ sp, (d'.spDelegateInfo sp).delegators = (d.spDelegateInfo sp).delegators)
    (hshares : ∀ a sp, d.delegateInfo a sp ≠ 0 → d'.delegateInfo a sp = 0 → slashed sp) :
    KeepsLists d d' slashed where
  unholed sp h := by
    rw [hlists]
    exact h
  entered a sp h := by
    rw [hlists] at h
    exact .inl h
  emptied := hshares

/-- Nothing happened to lists and shares. -/
theorem KeepsLists.of_eq {d d' : DelegateManagerV2} {slashed : Address → Prop}
    (hlists : ∀ sp, (d'.spDelegateInfo sp).delegators = (d.spDelegateInfo sp).delegators)
    (hshares : d'.delegateInfo = d.delegateInfo) : KeepsLists d d' slashed :=
  .of_lists hlists fun a sp hpos hzero ↦ absurd (by rw [← hshares]; exact hzero) hpos

end DelegateManagerV2

open DelegateManagerV2

section DelegatorLists

variable [Keccak256] {w : Wiring} {msg : Msg} {s s' : System}

/-- A delegator leaves `sp`: an undelegation of the whole share, or a removal, that goes through. -/
def Leaves (w : Wiring) (ss : Session System) (e : Event) (sp delegator : Address) : Prop :=
  let d := ss.state.delegateManager
  (∃ ss', step w ss e = .ok ss') ∧
    ((∃ msg, e = .call msg (.delegation .undelegateStake) ∧ msg.sender = delegator ∧
        (d.undelegateRequests delegator).serviceProvider = sp ∧
        (d.undelegateRequests delegator).amount = d.delegateInfo delegator sp) ∨
      ∃ msg, e = .call msg (.delegation (.removeDelegator sp delegator)))

/-- A slash in the run took the whole share that `a` had in `sp`, and `a` has had none since. -/
def SlashedOut (w : Wiring) (start : Session System) (es : List Event) (sp a : Address) : Prop :=
  ∃ fs msg amount gs, es = fs ++ .call msg (.delegation (.slash amount sp)) :: gs ∧
    0 < (replay (step w) start fs).state.delegateManager.delegateInfo a sp ∧
    ∀ hs, hs <+: gs → (replay (step w) start
      (fs ++ .call msg (.delegation (.slash amount sp)) :: hs)).state.delegateManager.delegateInfo
        a sp = 0

/-- At all times in the run the lists are exact, delegators slashed to nothing aside, and a list
gets shorter by one when a delegator leaves. -/
def ListsExactAlong (w : Wiring) (start : Session System) (es : List Event) : Prop :=
  (∀ fs, fs <+: es → ∀ sp, (replay (step w) start fs).state.delegateManager.ListExact sp
    (SlashedOut w start fs sp)) ∧
  ∀ fs e gs, es = fs ++ e :: gs → ∀ sp delegator,
    Leaves w (replay (step w) start fs) e sp delegator →
    ((replay (step w) start (fs ++ [e])).state.delegateManager.spDelegateInfo
        sp).delegators.length + 1
      = ((replay (step w) start fs).state.delegateManager.spDelegateInfo sp).delegators.length

/-! ### One call -/

namespace DelegateManagerV2

variable {sp delegator : Address} {amount result : ℕ} {slashed : Address → Prop}

/-- A new delegator has what was delegated. -/
theorem delegateStake_keepsLists (hcaller : w.Caller msg.sender)
    (h : delegateStake w msg sp amount s = .ok (s', result)) :
    KeepsLists s.delegateManager s'.delegateManager slashed := by
  obtain ⟨mid, d, -, hpos, henlist, -, rfl⟩ := delegateStake_eq_ok hcaller.ne_staking h
  have hinfo : d.delegateInfo = s.delegateManager.delegateInfo := by
    rcases enlist_eq_ok henlist with ⟨-, rfl⟩ | ⟨-, rfl⟩ <;> rfl
  have hshare := delegateInfo_updateDelegatorStake d msg.sender sp
    ((d.spDelegateInfo sp).totalDelegatedStake + amount) (d.delegateInfo msg.sender sp + amount)
    (d.delegatorTotalStake msg.sender + amount)
  have hgrow : ∀ a x, s.delegateManager.delegateInfo a x ≠ 0 →
      (d._updateDelegatorStake msg.sender sp ((d.spDelegateInfo sp).totalDelegatedStake + amount)
        (d.delegateInfo msg.sender sp + amount)
        (d.delegatorTotalStake msg.sender + amount)).delegateInfo a x ≠ 0 := by
    intro a x hheld
    rw [hshare]
    split
    · omega
    · rwa [hinfo]
  rcases enlist_eq_ok henlist with ⟨-, rfl⟩ | ⟨-, rfl⟩
  · exact .of_lists (fun x ↦ delegators_updateDelegatorStake _ _ _ _ _ _ x)
      fun a x hheld hzero ↦ absurd hzero (hgrow a x hheld)
  · have hlists := delegators_setDelegators s.delegateManager sp
      ((s.delegateManager.spDelegateInfo sp).delegators ++ [msg.sender])
    refine ⟨fun x hfree ↦ ?_, fun a x hmem ↦ ?_, fun a x hheld hzero ↦
      absurd hzero (hgrow a x hheld)⟩
    · rw [delegators_updateDelegatorStake, hlists]
      split
      · next heq =>
        subst heq
        simp only [List.mem_append, List.mem_singleton, not_or]
        exact ⟨hfree, hcaller.nonzero.symm⟩
      · exact hfree
    · rw [delegators_updateDelegatorStake, hlists] at hmem
      by_cases hx : x = sp
      · subst hx
        rw [if_pos rfl, List.mem_append, List.mem_singleton] at hmem
        refine hmem.imp_right fun ha ↦ ?_
        subst ha
        rw [hshare, if_pos ⟨rfl, rfl⟩]
        omega
      · rw [if_neg hx] at hmem
        exact .inl hmem

/-- Whoever keeps a share stays in the list. -/
theorem undelegateStake_keepsLists (hstay : (s.delegateManager.undelegateRequests msg.sender).amount
      ≠ s.delegateManager.delegateInfo msg.sender
        (s.delegateManager.undelegateRequests msg.sender).serviceProvider)
    (h : undelegateStake w msg s = .ok (s', result)) :
    KeepsLists s.delegateManager s'.delegateManager slashed := by
  obtain ⟨mid, d, sp, amount, locked, v, rfl, rfl, -, -, -, hwithdraw, -, rfl⟩ :=
    undelegateStake_eq_ok h
  obtain ⟨-, hle, -, rfl⟩ := withdraw_eq_ok hwithdraw
  have hshare := delegateInfo_updateDelegatorStake s.delegateManager msg.sender
    (s.delegateManager.undelegateRequests msg.sender).serviceProvider
    ((s.delegateManager.spDelegateInfo
      (s.delegateManager.undelegateRequests msg.sender).serviceProvider).totalDelegatedStake
        - (s.delegateManager.undelegateRequests msg.sender).amount)
    (s.delegateManager.delegateInfo msg.sender
      (s.delegateManager.undelegateRequests msg.sender).serviceProvider
        - (s.delegateManager.undelegateRequests msg.sender).amount)
    (s.delegateManager.delegatorTotalStake msg.sender
      - (s.delegateManager.undelegateRequests msg.sender).amount)
  unfold delist
  rw [if_neg (by rw [hshare, if_pos ⟨rfl, rfl⟩]; omega)]
  refine .of_lists (fun x ↦ by simp) fun a x hheld hzero ↦ absurd ?_ hheld
  have hzero' := (hshare a x).symm.trans hzero
  split at hzero'
  · next heq =>
    omega
  · exact hzero'

/-- A claim leaves the lists and raises shares. -/
theorem claimRewards_keepsLists (h : claimRewards w msg sp s = .ok s') :
    KeepsLists s.delegateManager s'.delegateManager slashed := by
  obtain ⟨mid, reward, hclaimed, -, -, hresult⟩ := claimRewards_eq_ok h
  have hmanager := hclaimed.records.delegateManager
  rcases hresult with ⟨-, rfl⟩ | ⟨d, increased, v, hspread⟩
  · rw [hmanager]
    exact .of_eq (fun _ ↦ rfl) rfl
  · obtain ⟨⟨funds, cut, hloop⟩, -, rfl⟩ := hspread
    rw [hmanager] at hloop
    obtain ⟨hreshares, honly, hgrow, -⟩ := _distributeDelegateRewards_spec hloop
    refine .of_lists (fun x ↦ ?_) fun a x hheld hzero ↦ ?_
    · rw [delegators_setTotalDelegatedStake, honly]
    · have hzero' : d.delegateInfo a x = 0 := hzero
      by_cases hx : x = sp
      · subst hx
        have hle := hgrow a
        omega
      · rw [hreshares.share_off a x hx] at hzero'
        exact absurd hzero' hheld

/-- A slash leaves the lists, and the shares of other providers. -/
theorem slash_keepsLists (h : slash w msg amount sp s = .ok s') :
    KeepsLists s.delegateManager s'.delegateManager (· = sp) := by
  obtain ⟨f, mid, d, decrease, v, -, -, -, -, hloop, -, -, -, rfl⟩ := slash_eq_ok h
  obtain ⟨hreshares, honly, -⟩ := slashDelegators_spec hloop
  refine .of_lists (fun x ↦ ?_) fun a x hheld hzero ↦ ?_
  · rw [delegators_setTotalDelegatedStake, honly.delegators]
  · by_contra hx
    have hzero' : d.delegateInfo a x = 0 := hzero
    rw [hreshares.share_off a x hx] at hzero'
    exact hheld hzero'

/-- Whoever withdraws everything leaves a hole. -/
theorem undelegateStake_leaves (hsound : s.delegateManager.Sound)
    (hall : (s.delegateManager.undelegateRequests msg.sender).amount
      = s.delegateManager.delegateInfo msg.sender
        (s.delegateManager.undelegateRequests msg.sender).serviceProvider)
    (h : undelegateStake w msg s = .ok (s', result)) :
    0 ∈ (s'.delegateManager.spDelegateInfo
      (s.delegateManager.undelegateRequests msg.sender).serviceProvider).delegators := by
  have hpending : s.delegateManager._undelegateRequestIsPending msg.sender = true := by
    unfold undelegateStake at h
    simp only [↓require_bind_eq_ok] at h
    exact h.1
  simp only [_undelegateRequestIsPending, decide_eq_true_eq] at hpending
  have hmem := hsound.listed msg.sender _ (hall ▸ hpending.2.1)
  obtain ⟨mid, d, sp, amount, locked, v, rfl, rfl, -, -, -, hwithdraw, -, rfl⟩ :=
    undelegateStake_eq_ok h
  obtain ⟨-, -, -, rfl⟩ := withdraw_eq_ok hwithdraw
  unfold delist
  rw [if_pos (by rw [delegateInfo_updateDelegatorStake, if_pos ⟨rfl, rfl⟩, hall, Nat.sub_self])]
  simp only [spDelegateInfo_resetRequest, delegators_updateLockup, _removeFromDelegatorsList,
    delegators_setDelegators, delegators_updateDelegatorStake, if_true]
  exact zero_mem_deleteSlot hmem

/-- Whoever is removed leaves a hole. -/
theorem removeDelegator_leaves (hsound : s.delegateManager.Sound)
    (h : removeDelegator w msg sp delegator s = .ok s') :
    0 ∈ (s'.delegateManager.spDelegateInfo sp).delegators := by
  obtain ⟨mid, d, d', amount, rfl, -, -, -, hpos, -, -, hwithdraw, hdrop, rfl⟩ :=
    removeDelegator_eq_ok h
  obtain ⟨-, -, -, rfl⟩ := withdraw_eq_ok hwithdraw
  have hmem := hsound.listed delegator sp (Nat.ne_of_gt hpos)
  have hlist : (d'.spDelegateInfo sp).delegators
      = (s.delegateManager.spDelegateInfo sp).delegators := by
    rcases dropRequestFor_eq_ok hdrop with ⟨-, -, rfl⟩ | ⟨-, rfl⟩
    · simp
    · simp
  show 0 ∈ ((d'.setDelegators sp _).spDelegateInfo sp).delegators
  rw [delegators_setDelegators, if_pos rfl, hlist]
  exact zero_mem_deleteSlot hmem

end DelegateManagerV2

/-! ### Every run -/

variable {ss ss' start : Session System} {e : Event}

/-- Every step by which nobody leaves. -/
theorem step_keepsLists (hstay : ∀ sp a, ¬ Leaves w ss e sp a) (h : step w ss e = .ok ss') :
    KeepsLists ss.state.delegateManager ss'.state.delegateManager fun sp ↦
      ∃ msg amount, e = .call msg (.delegation (.slash amount sp)) := by
  cases e with
  | returned =>
    obtain ⟨frame, rest, g, -, -, rfl⟩ := step_returned_eq_ok h
    exact .of_eq (fun _ ↦ rfl) rfl
  | call msg c =>
    obtain ⟨hadmits, ⟨s', frame⟩, hperform, heq⟩ := step_call_eq_ok h
    have hcaller := admits_caller hadmits
    have hstate : ss'.state = s' := by rw [heq]; rfl
    rw [hstate]
    cases c with
    | delegation c =>
      obtain ⟨hcall, -⟩ := settled_eq_ok.mp hperform
      cases c with
      | delegateStake sp amount =>
        obtain ⟨⟨s'', n⟩, hdelegate, rfl⟩ := map_eq_ok.mp hcall
        exact delegateStake_keepsLists hcaller hdelegate
      | undelegateStake =>
        obtain ⟨⟨s'', n⟩, hundelegate, rfl⟩ := map_eq_ok.mp hcall
        refine undelegateStake_keepsLists (fun hall ↦ ?_) hundelegate
        exact hstay _ _ ⟨⟨ss', h⟩, .inl ⟨msg, rfl, rfl, rfl, hall⟩⟩
      | claimRewards sp => exact claimRewards_keepsLists hcall
      | slash amount sp =>
        obtain ⟨hunholed, hentered, hemptied⟩ := slash_keepsLists hcall
        refine ⟨hunholed, hentered, fun a x hheld hzero ↦ ⟨msg, amount, ?_⟩⟩
        rw [hemptied a x hheld hzero]
      | removeDelegator sp delegator =>
        exact absurd ⟨⟨ss', h⟩, .inr ⟨msg, rfl⟩⟩ (hstay sp delegator)
      | _ =>
        obtain ⟨d, rfl, -, hlists, hshares, -, -⟩ :=
          DelegationCall.perform_records rfl hcall
        exact .of_eq hlists hshares
    | providers c =>
      obtain ⟨hcall, -⟩ := settled_eq_ok.mp hperform
      obtain ⟨-, hmanager, -⟩ := c.perform_upkeep hcaller hcall
      exact .of_eq (fun _ ↦ by rw [hmanager]) (by rw [hmanager])
    | _ =>
      obtain ⟨-, hmanager⟩ := (Call.perform_upkeep hcaller hperform).records (by simp) (by simp)
      exact .of_eq (fun _ ↦ by rw [hmanager]) (by rw [hmanager])

variable {sp a : Address} {es : List Event}

/-- A step by which somebody leaves makes a hole. -/
theorem leaves_holed (hsound : ss.state.DelegatorsSound) (hleaves : Leaves w ss e sp a)
    (h : step w ss e = .ok ss') :
    0 ∈ (ss'.state.delegateManager.spDelegateInfo sp).delegators := by
  obtain ⟨-, ⟨msg, rfl, rfl, rfl, hall⟩ | ⟨msg, rfl⟩⟩ := hleaves
  · obtain ⟨hadmits, ⟨s', frame⟩, hperform, rfl⟩ := step_call_eq_ok h
    obtain ⟨hcall, -⟩ := settled_eq_ok.mp hperform
    obtain ⟨⟨s'', n⟩, hundelegate, rfl⟩ := map_eq_ok.mp hcall
    exact undelegateStake_leaves hsound.delegateManager hall hundelegate
  · obtain ⟨hadmits, ⟨s', frame⟩, hperform, rfl⟩ := step_call_eq_ok h
    obtain ⟨hcall, -⟩ := settled_eq_ok.mp hperform
    exact removeDelegator_leaves hsound.delegateManager hcall

/-- No list has a hole at any time in a run just when nobody leaves in it. -/
theorem unholed_iff (hsound : start.state.DelegatorsSound)
    (hstart : ∀ sp, 0 ∉ (start.state.delegateManager.spDelegateInfo sp).delegators) :
    (∀ fs, fs <+: es → ∀ sp, 0 ∉ ((replay (step w) start fs).state.delegateManager.spDelegateInfo
        sp).delegators) ↔
      Along (step w) (fun ss e ↦ ∀ sp a, ¬ Leaves w ss e sp a) start es := by
  refine prefixes_iff_along_of_ok (W := fun ss : Session System ↦ ss.state.DelegatorsSound)
    (P := fun ss ↦ ∀ sp, 0 ∉ (ss.state.delegateManager.spDelegateInfo sp).delegators)
    (fun _ _ _ ↦ step_delegatorsSound) (fun ss e ss' hsound hfree hstep ↦ ?_)
    (fun ss e hreverts sp a hleaves ↦ hreverts hleaves.1) hsound hstart
  constructor
  · intro hafter sp a hleaves
    exact hafter sp (leaves_holed hsound hleaves hstep)
  · intro hstay sp
    exact (step_keepsLists hstay hstep).unholed sp (hfree sp)

/-- Whoever was slashed out and still has nothing is slashed out. -/
theorem SlashedOut.concat (h : SlashedOut w start es sp a)
    (hzero : (replay (step w) start (es ++ [e])).state.delegateManager.delegateInfo a sp = 0) :
    SlashedOut w start (es ++ [e]) sp a := by
  obtain ⟨fs, msg, amount, gs, rfl, hheld, hnone⟩ := h
  refine ⟨fs, msg, amount, gs ++ [e], by simp, hheld, fun hs hprefix ↦ ?_⟩
  rcases List.prefix_concat_iff.mp hprefix with rfl | hprefix
  · simpa using hzero
  · exact hnone hs hprefix

/-- Whoever a slash has just left with nothing is slashed out. -/
theorem SlashedOut.of_slash {amount : ℕ}
    (hheld : 0 < (replay (step w) start es).state.delegateManager.delegateInfo a sp)
    (hzero : (replay (step w) start (es ++ [.call msg (.delegation
      (.slash amount sp))])).state.delegateManager.delegateInfo a sp = 0) :
    SlashedOut w start (es ++ [.call msg (.delegation (.slash amount sp))]) sp a := by
  refine ⟨es, msg, amount, [], rfl, hheld, fun hs hprefix ↦ ?_⟩
  rw [List.prefix_nil.mp hprefix]
  exact hzero

/-- After a run in which nobody leaves the lists are exact. -/
theorem listExact_of_along (hsound : start.state.DelegatorsSound)
    (hstart : ∀ sp, (start.state.delegateManager.spDelegateInfo sp).delegators = [])
    (hstay : Along (step w) (fun ss e ↦ ∀ sp a, ¬ Leaves w ss e sp a) start es) (sp : Address) :
    (replay (step w) start es).state.delegateManager.ListExact sp
      (SlashedOut w start es sp) := by
  have hunholed : 0 ∉ ((replay (step w) start es).state.delegateManager.spDelegateInfo
      sp).delegators :=
    (unholed_iff hsound fun x ↦ by simp [hstart x]).mpr hstay es List.prefix_rfl sp
  have hlast : (replay (step w) start es).state.DelegatorsSound :=
    replay_invariant' (fun ss : Session System ↦ ss.state.DelegatorsSound)
      (fun _ _ _ ↦ step_delegatorsSound) es hsound
  have hnodup := hlast.delegateManager.nodup sp
  rw [live_of_notMem hunholed] at hnodup
  refine ⟨hnodup, hunholed, fun a hheld ↦ hlast.delegateManager.listed a sp hheld.ne', ?_⟩
  clear hunholed hlast hnodup
  -- who is listed without a share: by the last step of the run
  induction es using List.reverseRecOn with
  | nil =>
    intro a hmem
    rw [replay_nil, hstart] at hmem
    exact absurd hmem List.not_mem_nil
  | append_singleton es e ih =>
    obtain ⟨hstay, hlast, -⟩ := along_append.mp hstay
    have hcurrent := ih hstay
    have hnext : replay (step w) start (es ++ [e]) = attempt (step w) (replay (step w) start es) e :=
      replay_append _ _ _ _
    intro a hmem
    by_cases hzero : (replay (step w) start (es ++ [e])).state.delegateManager.delegateInfo a sp = 0
    · refine .inr ?_
      cases hstep : step w (replay (step w) start es) e with
      | error reason =>
        rw [hnext, attempt_of_error _ hstep] at hmem
        refine SlashedOut.concat ?_ hzero
        rw [hnext, attempt_of_error _ hstep] at hzero
        exact (hcurrent a hmem).resolve_left (by omega)
      | ok ss' =>
        have hkeeps := step_keepsLists hlast hstep
        rw [← attempt_of_ok _ hstep, ← hnext] at hkeeps
        have hbefore := (hkeeps.entered a sp hmem).resolve_right fun hne ↦ hne hzero
        rcases hcurrent a hbefore with hheld | hout
        · obtain ⟨msg, amount, rfl⟩ := hkeeps.emptied a sp hheld.ne' hzero
          exact .of_slash hheld hzero
        · exact hout.concat hzero
    · exact .inl (Nat.pos_of_ne_zero hzero)

/-- In a run from any accepted deployment the lists of delegators are exact at all times, and get
shorter when somebody leaves, just when nobody leaves. -/
theorem delegator_lists_exact_iff {p : Deployment} {es : List Event}
    (hp : deploy w p = .ok start) :
    ListsExactAlong w start es ↔
      Along (step w) (fun ss e ↦ ∀ sp delegator, ¬ Leaves w ss e sp delegator) start es := by
  have hsound := deploy_delegatorsSound hp
  have hstart : ∀ sp, (start.state.delegateManager.spDelegateInfo sp).delegators = [] := by
    obtain ⟨-, -, -, -, token, -, rfl⟩ := deploy_eq_ok hp
    exact fun _ ↦ rfl
  constructor
  · rintro ⟨hexact, -⟩
    exact (unholed_iff hsound fun x ↦ by simp [hstart x]).mp fun fs hfs sp ↦
      (hexact fs hfs sp).unholed
  · intro hstay
    constructor
    · rintro fs ⟨gs, rfl⟩ sp
      exact listExact_of_along hsound hstart (along_append.mp hstay).1 sp
    · rintro fs e gs rfl sp delegator hleaves
      exact absurd hleaves ((along_append.mp hstay).2.1 sp delegator)

end DelegatorLists

namespace Scenario

/-- A delegation asked back in full, and withdrawn when its lockup is over. -/
def allWithdrawn : List Event :=
  delegated ++ [at_ 3 delegator (.delegation (.requestUndelegateStake owner (10 ^ 24))),
    at_ 19 delegator (.delegation .undelegateStake)]

end Scenario

open Scenario in
/-- The list keeps a zero, and its length, when the delegator is gone. -/
theorem delegator_list_holed : ¬ ∀ (p : Deployment) (start : Session System) (es : List Event),
    deploy wiring p = .ok start → ListsExactAlong wiring start es := by
  intro h
  refine ((h deployment start allWithdrawn deploy_start).1 allWithdrawn List.prefix_rfl
    owner).unholed ?_
  decide +kernel

open Scenario in
theorem delegator_lists_exact_iff_delegated :
    ListsExactAlong wiring start delegated ↔
      Along (step wiring) (fun ss e ↦ ∀ sp delegator, ¬ Leaves wiring ss e sp delegator) start
        delegated :=
  delegator_lists_exact_iff deploy_start

end ColivingSpec
