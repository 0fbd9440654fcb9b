import ColivingSpec.System.OwnedRecords

/-!
# Finding and changing the records of an owner

The id list of an owner and a service type is read as it stands, deleted slots included. A wallet is
written to the record that the id of an endpoint names under the given type, whatever endpoint that
record carries.
-/

namespace ColivingSpec

open Lib

section RecordAccess

variable [Keccak256] {w : Wiring} {msg : Msg} {s s' : System}

namespace ServiceProviderFactory

/-! ### Id lists -/

/-- Every list that is returned has the ids of the live records of the owner, each once. -/
def ListsExact (f : ServiceProviderFactory) : Prop :=
  ∀ o ty, (f.getServiceProviderIdsFromAddress o ty).Nodup ∧
    0 ∉ f.getServiceProviderIdsFromAddress o ty ∧
    ∀ id, id ∈ f.getServiceProviderIdsFromAddress o ty ↔
      o ≠ 0 ∧ (f.serviceProviderInfo ty id).owner = o

/-- Holes are all that can be wrong with the lists. -/
theorem listsExact_iff (h : s.Owned) :
    s.spFactory.ListsExact ↔ ∀ o ty, 0 ∉ s.spFactory.serviceProviderAddressToId o ty := by
  constructor
  · intro hexact o ty
    exact (hexact o ty).2.1
  · intro hfree o ty
    have hlive := live_of_notMem (hfree o ty)
    have hnodup := h.nodup o ty
    have hlisted := h.listed o ty
    rw [hlive] at hnodup hlisted
    exact ⟨hnodup, hfree o ty, hlisted⟩

/-- A deregistration leaves a hole where the id was. -/
theorem deregister_not_listsExact {serviceType : Bytes32} {endpoint : String} {result : ℕ}
    (hcaller : w.Caller msg.sender) (h : deregister msg serviceType endpoint s = .ok (s', result))
    (hexact : s.spFactory.ListsExact) : ¬ s'.spFactory.ListsExact := by
  obtain ⟨f, details, hlast, -, -, -, howner, rfl, -⟩ := deregister_eq_ok h
  have hsame : f.serviceProviderInfo = s.spFactory.serviceProviderInfo ∧
      f.serviceProviderAddressToId = s.spFactory.serviceProviderAddressToId := by
    rcases requestLastStake_eq_ok hlast with rfl | rfl
    · exact ⟨rfl, rfl⟩
    · exact ⟨rfl, rfl⟩
  have hmem : result ∈ f.serviceProviderAddressToId msg.sender serviceType := by
    rw [hsame.2]
    exact ((hexact msg.sender serviceType).2.2 result).mpr ⟨hcaller.nonzero, hsame.1 ▸ howner⟩
  intro hafter
  refine (hafter msg.sender serviceType).2.1 ?_
  show 0 ∈ (setIds _ _ _ _).serviceProviderAddressToId msg.sender serviceType
  rw [serviceProviderAddressToId_setIds, if_pos ⟨rfl, rfl⟩]
  exact zero_mem_deleteSlot hmem

/-- No other call of the factory makes a hole. -/
theorem perform_unholed {c : ProviderCall} (hcaller : w.Caller msg.sender)
    (hc : ∀ ty endpoint, c ≠ .deregister ty endpoint) (h : c.perform w msg s = .ok s')
    (hfree : ∀ o ty, 0 ∉ s.spFactory.serviceProviderAddressToId o ty) (o : Address) (ty : Bytes32) :
    0 ∉ s'.spFactory.serviceProviderAddressToId o ty := by
  cases c with
  | register serviceType endpoint amount wallet =>
    obtain ⟨⟨s'', n⟩, hcall, rfl⟩ := map_eq_ok.mp h
    obtain ⟨mid, -, -, hresult, rfl⟩ := register_eq_ok hcaller.ne_staking hcall
    show 0 ∉ (setIds _ _ _ _).serviceProviderAddressToId o ty
    rw [serviceProviderAddressToId_setIds]
    split
    · simp only [List.mem_append, List.mem_singleton, not_or]
      exact ⟨hfree _ _, by omega⟩
    · exact hfree o ty
  | increaseStake amount =>
    obtain ⟨⟨s'', n⟩, hcall, rfl⟩ := map_eq_ok.mp h
    obtain ⟨mid, details, -, rfl, -⟩ := increaseStake_eq_ok hcaller.ne_staking hcall
    exact hfree o ty
  | decreaseStake =>
    obtain ⟨⟨s'', n⟩, hcall, rfl⟩ := map_eq_ok.mp h
    obtain ⟨mid, details, amount, -, -, -, -, -, rfl, -⟩ := decreaseStake_eq_ok hcall
    exact hfree o ty
  | _ =>
    obtain ⟨f, rfl, -, -, -, haccounts, -⟩ :=
      ProviderCall.perform_records hcaller rfl h
    rw [(haccounts hc).serviceProviderAddressToId]
    exact hfree o ty

end ServiceProviderFactory

open ServiceProviderFactory

/-- A deregistration that goes through. -/
def Deregisters (w : Wiring) (ss : Session System) (e : Event) : Prop :=
  ∃ msg ty endpoint ss', e = .call msg (.providers (.deregister ty endpoint)) ∧
    step w ss e = .ok ss'

variable {ss ss' : Session System} {e : Event}

/-- Other steps make no hole. -/
theorem step_unholed (hkeeps : ¬ Deregisters w ss e) (h : step w ss e = .ok ss')
    (hfree : ∀ o ty, 0 ∉ ss.state.spFactory.serviceProviderAddressToId o ty) (o : Address)
    (ty : Bytes32) : 0 ∉ ss'.state.spFactory.serviceProviderAddressToId o ty := by
  cases e with
  | returned =>
    obtain ⟨frame, rest, g, -, -, rfl⟩ := step_returned_eq_ok h
    exact hfree o ty
  | call msg c =>
    have hc : ∀ ty endpoint, c ≠ .providers (.deregister ty endpoint) := by
      rintro ty endpoint rfl
      exact hkeeps ⟨msg, ty, endpoint, ss', rfl, h⟩
    obtain ⟨hadmits, ⟨s', frame⟩, hperform, rfl⟩ := step_call_eq_ok h
    have hcaller := admits_caller hadmits
    cases c with
    | providers c =>
      obtain ⟨hcall, -⟩ := settled_eq_ok.mp hperform
      exact perform_unholed hcaller (fun ty endpoint heq ↦ hc ty endpoint (heq ▸ rfl)) hcall hfree
        o ty
    | types c =>
      obtain ⟨m, -, rfl, -⟩ := perform_types_eq_ok hperform
      exact hfree o ty
    | _ =>
      have hstand := Call.perform_recordsStand hcaller (by simp) (by simp) hperform
      show 0 ∉ s'.spFactory.serviceProviderAddressToId o ty
      rw [hstand.serviceProviderAddressToId]
      exact hfree o ty

/-- In a run from any accepted deployment the id lists are exact at all times just when no
deregistration goes through. -/
theorem id_lists_exact_iff {p : Deployment} {start : Session System} {es : List Event}
    (hp : deploy w p = .ok start) :
    (∀ fs, fs <+: es → (replay (step w) start fs).state.spFactory.ListsExact) ↔
      Along (step w) (fun ss e ↦ ¬ Deregisters w ss e) start es := by
  refine prefixes_iff_along_of_ok (W := fun ss : Session System ↦ ss.state.Owned)
    (P := fun ss : Session System ↦ ss.state.spFactory.ListsExact) (fun _ _ _ ↦ step_owned)
    (fun ss e ss' howned hexact hstep ↦ ?_) (fun ss e hreverts ↦ ?_) (deploy_owned hp)
    ((listsExact_iff (deploy_owned hp)).mpr ?_)
  · constructor
    · rintro hafter ⟨msg, ty, endpoint, -, rfl, -⟩
      obtain ⟨hadmits, ⟨s', frame⟩, hperform, rfl⟩ := step_call_eq_ok hstep
      obtain ⟨hcall, -⟩ := settled_eq_ok.mp hperform
      obtain ⟨⟨s'', n⟩, hderegister, rfl⟩ := map_eq_ok.mp hcall
      exact deregister_not_listsExact (admits_caller hadmits) hderegister hexact hafter
    · intro hkeeps
      exact (listsExact_iff (step_owned howned hstep)).mpr
        (step_unholed hkeeps hstep ((listsExact_iff howned).mp hexact))
  · rintro ⟨msg, ty, endpoint, ss', -, hok⟩
    exact hreverts ⟨ss', hok⟩
  · obtain ⟨-, -, -, -, token, -, rfl⟩ := deploy_eq_ok hp
    exact fun _ _ ↦ List.not_mem_nil

/-! ### Wallets -/

/-- At most one record has changed, and it is of the service type and carries the endpoint. -/
def ServiceProviderFactory.ChangesOnly (f f' : ServiceProviderFactory) (serviceType : Bytes32)
    (endpoint : String) : Prop :=
  ∃ id, (∀ ty id', (ty, id') ≠ (serviceType, id) →
      f'.serviceProviderInfo ty id' = f.serviceProviderInfo ty id') ∧
    (f'.serviceProviderInfo serviceType id = f.serviceProviderInfo serviceType id ∨
      (f.serviceProviderInfo serviceType id).endpoint = endpoint)

theorem ServiceProviderFactory.serviceProviderInfo_setInfo (f : ServiceProviderFactory)
    (serviceType : Bytes32) (id : ℕ) (info : ServiceEndpoint) (ty : Bytes32) (id' : ℕ) :
    (f.setInfo serviceType id info).serviceProviderInfo ty id'
      = if (ty, id') = (serviceType, id) then info else f.serviceProviderInfo ty id' := by
  by_cases hty : ty = serviceType
  · subst hty
    by_cases hid : id' = id
    · subst hid
      simp [setInfo]
    · simp [setInfo, hid]
  · simp [setInfo, hty]

/-- A new wallet goes to the record the endpoint's id names under the type; it is the record of the
endpoint, or nothing changes, exactly in the two cases. -/
theorem updateDelegateOwnerWallet_changesOnly_iff {serviceType : Bytes32} {endpoint : String}
    {wallet : Address} (h : step w ss (.call msg (.providers
      (.updateDelegateOwnerWallet serviceType endpoint wallet))) = .ok ss') :
    let info := ss.state.spFactory.serviceProviderInfo serviceType
      (ss.state.spFactory.getServiceProviderIdFromEndpoint endpoint)
    ss.state.spFactory.ChangesOnly ss'.state.spFactory serviceType endpoint ↔
      info.endpoint = endpoint ∨ info.delegateOwnerWallet = wallet := by
  intro info
  obtain ⟨-, ⟨s', frame⟩, hperform, rfl⟩ := step_call_eq_ok h
  obtain ⟨hcall, -⟩ := settled_eq_ok.mp hperform
  obtain ⟨id, -, hid, rfl⟩ := updateDelegateOwnerWallet_eq_ok hcall
  have hinfo : info = ss.state.spFactory.serviceProviderInfo serviceType id := by rw [hid]; rfl
  rw [hinfo]
  have hwritten := serviceProviderInfo_setInfo ss.state.spFactory serviceType id
    { ss.state.spFactory.serviceProviderInfo serviceType id with delegateOwnerWallet := wallet }
  have hwallet : (ss.state.spFactory.setInfo serviceType id
      { ss.state.spFactory.serviceProviderInfo serviceType id with
        delegateOwnerWallet := wallet }).serviceProviderInfo serviceType id
        = ss.state.spFactory.serviceProviderInfo serviceType id →
      (ss.state.spFactory.serviceProviderInfo serviceType id).delegateOwnerWallet = wallet := by
    intro hkept
    rw [hwritten, if_pos rfl] at hkept
    exact (congrArg ServiceEndpoint.delegateOwnerWallet hkept).symm
  constructor
  · rintro ⟨id', hothers, hrecord⟩
    by_cases hsame : id' = id
    · subst hsame
      exact hrecord.symm.imp_right hwallet
    · exact .inr (hwallet (hothers serviceType id fun heq ↦ hsame (Prod.mk.inj heq).2.symm))
  · intro hcases
    refine ⟨id, fun ty id' hne ↦ ?_, ?_⟩
    · exact (hwritten ty id').trans (if_neg hne)
    · refine hcases.symm.imp_left fun hsame ↦ ?_
      refine (hwritten serviceType id).trans ?_
      rw [if_pos rfl, ← hsame]

end RecordAccess

namespace Scenario

/-- A service of `owner` given up, one of two of its type. -/
def deregistered : List Event :=
  [at_ 3 owner (.providers (.register 1 "b.service" 0 owner)),
    at_ 4 owner (.providers (.deregister 1 "a.service"))]

/-- A second type, and a service of it under the first id of that type. -/
def twoTypes : List Event :=
  opening ++ setting 3 (.types (.addServiceType 2 0 (10 ^ 26)))
    ++ [at_ 4 owner (.providers (.register 2 "b.service" 0 owner))]

/-- A new wallet for the service of the second type, asked for under the first. -/
def wrongType : Event := at_ 5 owner (.providers (.updateDelegateOwnerWallet 1 "b.service" 110))

/-- A new wallet for the service of the second type. -/
def rightType : Event := at_ 5 owner (.providers (.updateDelegateOwnerWallet 2 "b.service" 110))

end Scenario

open Scenario in
/-- A list keeps a zero where an id was. -/
theorem id_lists_holed :
    ¬ ∀ ss : Session System, Reachable wiring ss → ss.state.spFactory.ListsExact := by
  intro h
  refine (h (after (opening ++ deregistered)) (reachable_after _) owner 1).2.1 ?_
  decide +kernel

open Scenario in
theorem id_lists_exact_iff_opened :
    (∀ fs, fs <+: opening → (replay (step wiring) start fs).state.spFactory.ListsExact) ↔
      Along (step wiring) (fun ss e ↦ ¬ Deregisters wiring ss e) start opening :=
  id_lists_exact_iff deploy_start

open Scenario in
/-- The wallet goes to the service of the first type, which has another endpoint. -/
theorem updateDelegateOwnerWallet_misses : ¬ ∀ ss ss' : Session System, Reachable wiring ss →
    ∀ msg serviceType endpoint wallet, step wiring ss (.call msg (.providers
      (.updateDelegateOwnerWallet serviceType endpoint wallet))) = .ok ss' →
    ss.state.spFactory.ChangesOnly ss'.state.spFactory serviceType endpoint := by
  intro h
  have hstep : step wiring (after twoTypes) wrongType
      = .ok (attempt (step wiring) (after twoTypes) wrongType) :=
    eq_ok_attempt _ (by decide +kernel)
  obtain ⟨id, hothers, hrecord⟩ := h _ _ (reachable_after twoTypes) _ _ _ _ hstep
  have hwritten : ((attempt (step wiring) (after twoTypes) wrongType).state.spFactory
      |>.serviceProviderInfo 1 1).delegateOwnerWallet
      ≠ ((after twoTypes).state.spFactory.serviceProviderInfo 1 1).delegateOwnerWallet := by
    decide +kernel
  by_cases hid : id = 1
  · subst hid
    rcases hrecord with hkept | hendpoint
    · exact hwritten (congrArg ServiceEndpoint.delegateOwnerWallet hkept)
    · exact absurd hendpoint (by decide +kernel)
  · have hkept := hothers 1 1 fun heq ↦ hid (Prod.mk.inj heq).2.symm
    exact hwritten (congrArg ServiceEndpoint.delegateOwnerWallet hkept)

open Scenario in
theorem updateDelegateOwnerWallet_changesOnly_iff_rightType :
    (after twoTypes).state.spFactory.ChangesOnly
      (attempt (step wiring) (after twoTypes) rightType).state.spFactory 2 "b.service" := by
  have hstep : step wiring (after twoTypes) rightType
      = .ok (attempt (step wiring) (after twoTypes) rightType) :=
    eq_ok_attempt _ (by decide +kernel)
  exact (updateDelegateOwnerWallet_changesOnly_iff hstep).mpr (.inl (by decide +kernel))

end ColivingSpec
