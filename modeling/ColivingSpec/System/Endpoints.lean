import ColivingSpec.Lib.Indexes
import ColivingSpec.System.Upkeep

/-!
# The registry of endpoints

Service records are kept by type and id, with an index from the hash of an endpoint to an
id that knows nothing of types. Registration asks the index whether an endpoint is taken; a
renaming does not ask.
-/

namespace ColivingSpec

open Lib ServiceProviderFactory

section Endpoints

variable [Keccak256] {w : Wiring} {msg : Msg} {s s' : System}

namespace ServiceProviderFactory

/-- Hash of the endpoint a record carries; deleted records carry none. -/
def hashOf (info : ServiceEndpoint) : Option Keccak256.Digest :=
  if info.owner = 0 then none else some (keccak256 info.endpoint)

/-- The endpoint hashes of the live records, by type and id. -/
def hashes (f : ServiceProviderFactory) (k : Bytes32 × ℕ) : Option Keccak256.Digest :=
  hashOf (f.serviceProviderInfo k.1 k.2)

theorem hashes_setInfo (f : ServiceProviderFactory) (serviceType : Bytes32) (id : ℕ)
    (info : ServiceEndpoint) :
    (f.setInfo serviceType id info).hashes
      = Function.update f.hashes (serviceType, id) (hashOf info) := by
  funext ⟨ty, n⟩
  by_cases hty : ty = serviceType
  · subst hty
    by_cases hn : n = id
    · subst hn
      simp [hashes, setInfo]
    · simp [hashes, setInfo, hn]
  · simp [hashes, setInfo, hty]

/-- Live records carry different endpoints, the index leads to each of them, and their ids
were issued for their types. -/
structure Registered (f : ServiceProviderFactory) : Prop where
  indexed : Indexed Prod.snd 0 f.hashes f.serviceProviderEndpointToId
  issued : ∀ ty id, f.hashes (ty, id) ≠ none → id ≤ f.serviceProviderTypeIDs ty

theorem Registered.of_same {f f' : ServiceProviderFactory} (h : Registered f)
    (hsame : SameRegistry f f') : Registered f' := by
  have hhashes : f'.hashes = f.hashes := by
    unfold hashes
    rw [hsame.serviceProviderInfo]
  refine ⟨?_, fun ty id hlive ↦ ?_⟩
  · rw [hhashes, hsame.serviceProviderEndpointToId]
    exact h.indexed
  · rw [hhashes] at hlive
    rw [hsame.serviceProviderTypeIDs]
    exact h.issued ty id hlive

theorem hashOf_of_owner {info : ServiceEndpoint} (h : info.owner ≠ 0) :
    hashOf info = some (keccak256 info.endpoint) := if_neg h

/-- A record written, with the index, keeps the ids issued. -/
theorem Registered.issued_setInfo {f : ServiceProviderFactory} (h : Registered f)
    (serviceType : Bytes32) (id : ℕ) (info : ServiceEndpoint) {typeIDs : Bytes32 → ℕ}
    (hgrow : ∀ ty, f.serviceProviderTypeIDs ty ≤ typeIDs ty) (hid : id ≤ typeIDs serviceType)
    (ty : Bytes32) (n : ℕ) (hlive : (f.setInfo serviceType id info).hashes (ty, n) ≠ none) :
    n ≤ typeIDs ty := by
  rw [hashes_setInfo] at hlive
  by_cases hk : (ty, n) = (serviceType, id)
  · obtain ⟨rfl, rfl⟩ := Prod.mk.inj hk
    exact hid
  · rw [Function.update_of_ne hk] at hlive
    exact (h.issued ty n hlive).trans (hgrow ty)

variable {serviceType : Bytes32} {endpoint : String} {result : ℕ}

/-- A registration enters a new record under an endpoint the index does not know. -/
theorem register_registered {amount : ℕ} {wallet : Address} (hcaller : w.Caller msg.sender)
    (h : register w msg serviceType endpoint amount wallet s = .ok (s', result))
    (hs : s.spFactory.Registered) : s'.spFactory.Registered := by
  obtain ⟨mid, -, hfree, rfl, rfl⟩ := register_eq_ok hcaller.ne_staking h
  have hinsert := hs.indexed.insert
    (serviceType, s.spFactory.serviceProviderTypeIDs serviceType + 1) (Nat.succ_ne_zero _) hfree
  have howner :
      hashOf ⟨msg.sender, endpoint, msg.blockNumber, wallet⟩ = some (keccak256 endpoint) :=
    hashOf_of_owner hcaller.nonzero
  rw [← howner, ← hashes_setInfo] at hinsert
  refine ⟨hinsert, hs.issued_setInfo serviceType _ _ (fun ty ↦ ?_) ?_⟩
  · by_cases hty : ty = serviceType
    · simp [setDetails, setIds, setEndpointId, setInfo, setTypeID, hty]
    · simp [setDetails, setIds, setEndpointId, setInfo, setTypeID, hty]
  · simp [setDetails, setIds, setEndpointId, setInfo, setTypeID]

/-- A deregistration erases the record of the endpoint with its index entry. -/
theorem deregister_registered (hcaller : w.Caller msg.sender)
    (h : deregister msg serviceType endpoint s = .ok (s', result)) (hs : s.spFactory.Registered) :
    s'.spFactory.Registered := by
  obtain ⟨f, details, hlast, -, -, hendpoint, howner, rfl, -, -⟩ := deregister_eq_ok h
  replace hs : f.Registered := hs.of_same (by
    rcases requestLastStake_eq_ok hlast with rfl | rfl
    · exact ⟨rfl, rfl, rfl⟩
    · exact ⟨rfl, rfl, rfl⟩)
  have hlive : f.hashes (serviceType, result) = some (keccak256 endpoint) := by
    rw [← hendpoint]
    exact hashOf_of_owner (howner ▸ hcaller.nonzero)
  have herase := hs.indexed.erase hlive
  have hempty : hashOf ServiceEndpoint.empty = none := rfl
  rw [← hempty, ← hashes_setInfo] at herase
  exact ⟨herase,
    hs.issued_setInfo serviceType _ _ (fun _ ↦ le_rfl) (hs.issued _ _ (by simp [hlive]))⟩

/-- A renaming to a free endpoint, or to the same one, keeps the registry. -/
theorem updateEndpoint_registered {oldEndpoint newEndpoint : String} (hcaller : w.Caller msg.sender)
    (h : updateEndpoint msg serviceType oldEndpoint newEndpoint s = .ok (s', result))
    (hfree : s.spFactory.serviceProviderEndpointToId (keccak256 newEndpoint) = 0 ∨
      newEndpoint = oldEndpoint) (hs : s.spFactory.Registered) : s'.spFactory.Registered := by
  obtain ⟨-, howner, hendpoint, rfl⟩ := updateEndpoint_eq_ok h
  have hnonzero : (s.spFactory.serviceProviderInfo serviceType result).owner ≠ 0 :=
    howner ▸ hcaller.nonzero
  have hlive : s.spFactory.hashes (serviceType, result)
      = some (keccak256 (s.spFactory.serviceProviderInfo serviceType result).endpoint) :=
    hashOf_of_owner hnonzero
  have hrename := hs.indexed.rename hlive
    (hfree.imp_right fun heq ↦ (congrArg keccak256 heq).trans hendpoint.symm)
  have hhash : hashOf { s.spFactory.serviceProviderInfo serviceType result with
      endpoint := newEndpoint } = some (keccak256 newEndpoint) := hashOf_of_owner hnonzero
  rw [← hhash, ← hashes_setInfo] at hrename
  exact ⟨hrename,
    hs.issued_setInfo serviceType _ _ (fun _ ↦ le_rfl) (hs.issued _ _ (by simp [hlive]))⟩

/-- A new wallet keeps the registry. -/
theorem updateDelegateOwnerWallet_registered {wallet : Address} (hcaller : w.Caller msg.sender)
    (h : updateDelegateOwnerWallet msg serviceType endpoint wallet s = .ok s')
    (hs : s.spFactory.Registered) : s'.spFactory.Registered := by
  obtain ⟨id, howner, -, rfl⟩ := updateDelegateOwnerWallet_eq_ok h
  have hnonzero : (s.spFactory.serviceProviderInfo serviceType id).owner ≠ 0 :=
    howner ▸ hcaller.nonzero
  have hlive : s.spFactory.hashes (serviceType, id)
      = some (keccak256 (s.spFactory.serviceProviderInfo serviceType id).endpoint) :=
    hashOf_of_owner hnonzero
  have hhash : hashOf { s.spFactory.serviceProviderInfo serviceType id with
      delegateOwnerWallet := wallet } = s.spFactory.hashes (serviceType, id) :=
    (hashOf_of_owner hnonzero).trans hlive.symm
  refine ⟨?_, hs.issued_setInfo serviceType _ _ (fun _ ↦ le_rfl) (hs.issued _ _ (by simp [hlive]))⟩
  rw [hashes_setInfo, hhash, Function.update_eq_self]
  exact hs.indexed

end ServiceProviderFactory

/-- A renaming of a record of the caller goes to an endpoint that is free, or the same. -/
def RenamesFreshly (ss : Session System) : Event → Prop
  | .call msg (.providers (.updateEndpoint serviceType oldEndpoint newEndpoint)) =>
    (ss.state.spFactory.serviceProviderInfo serviceType
        (ss.state.spFactory.serviceProviderEndpointToId (keccak256 oldEndpoint))).owner
      = msg.sender →
    ss.state.spFactory.serviceProviderEndpointToId (keccak256 newEndpoint) = 0 ∨
      newEndpoint = oldEndpoint
  | _ => True

variable {ss ss' : Session System} {e : Event}

theorem step_registered (hs : ss.state.spFactory.Registered) (hfresh : RenamesFreshly ss e)
    (h : step w ss e = .ok ss') : ss'.state.spFactory.Registered := by
  cases e with
  | returned =>
    obtain ⟨frame, rest, g, -, -, rfl⟩ := step_returned_eq_ok h
    exact hs
  | call msg c =>
    obtain ⟨hadmits, ⟨s', frame⟩, hperform, rfl⟩ := step_call_eq_ok h
    have hcaller := admits_caller hadmits
    by_cases hc : ∃ c', c = .providers c'
    · obtain ⟨c, rfl⟩ := hc
      obtain ⟨hcall, -⟩ := settled_eq_ok.mp hperform
      cases c with
      | register ty endpoint amount wallet =>
        obtain ⟨⟨s'', n⟩, hregister, rfl⟩ := map_eq_ok.mp hcall
        exact register_registered hcaller hregister hs
      | deregister ty endpoint =>
        obtain ⟨⟨s'', n⟩, hderegister, rfl⟩ := map_eq_ok.mp hcall
        exact deregister_registered hcaller hderegister hs
      | updateEndpoint ty old new =>
        obtain ⟨⟨s'', n⟩, hupdate, rfl⟩ := map_eq_ok.mp hcall
        obtain ⟨hid, howner, -⟩ := updateEndpoint_eq_ok hupdate
        exact updateEndpoint_registered hcaller hupdate
          (hfresh (hid ▸ howner)) hs
      | updateDelegateOwnerWallet ty endpoint wallet =>
        exact updateDelegateOwnerWallet_registered hcaller hcall hs
      | increaseStake amount =>
        obtain ⟨⟨s'', n⟩, hincrease, rfl⟩ := map_eq_ok.mp hcall
        obtain ⟨mid, details, -, rfl, -⟩ :=
          increaseStake_eq_ok hcaller.ne_staking hincrease
        exact hs.of_same ⟨rfl, rfl, rfl⟩
      | decreaseStake =>
        obtain ⟨⟨s'', n⟩, hdecrease, rfl⟩ := map_eq_ok.mp hcall
        obtain ⟨mid, details, amount, -, -, -, -, -, rfl, -⟩ :=
          decreaseStake_eq_ok hdecrease
        exact hs.of_same ⟨rfl, rfl, rfl⟩
      | _ =>
        obtain ⟨f, rfl, -, hsame, -⟩ := ProviderCall.perform_records hcaller rfl hcall
        exact hs.of_same (hsame rfl)
    · exact hs.of_same ((Call.perform_upkeep hcaller hperform).registry
        fun c' heq ↦ hc ⟨c', heq⟩)

/-- From any accepted deployment on, as long as renamings go to free endpoints, no two live
records carry one endpoint, and the index leads from the endpoint of each to its id. -/
theorem endpoints_consistent {p : Deployment} {start : Session System} {es : List Event}
    (hp : deploy w p = .ok start) (hes : Along (step w) RenamesFreshly start es) :
    let f := (replay (step w) start es).state.spFactory
    (∀ ty id ty' id', (f.serviceProviderInfo ty id).owner ≠ 0 →
      (f.serviceProviderInfo ty' id').owner ≠ 0 →
      (f.serviceProviderInfo ty id).endpoint = (f.serviceProviderInfo ty' id').endpoint →
      ty = ty' ∧ id = id') ∧
    ∀ ty id, (f.serviceProviderInfo ty id).owner ≠ 0 →
      f.serviceProviderEndpointToId (keccak256 (f.serviceProviderInfo ty id).endpoint) = id := by
  let I (ss : Session System) : Prop := ss.state.spFactory.Registered
  have hstart : I start := by
    obtain ⟨-, -, -, -, token, -, rfl⟩ := deploy_eq_ok hp
    have hnone : ∀ k, ServiceProviderFactory.empty.hashes k = none := fun k ↦ rfl
    exact ⟨.empty hnone, fun ty id hlive ↦ absurd (hnone (ty, id)) hlive⟩
  have hrun : I (replay (step w) start es) := replay_invariant I
    (fun _ _ _ hs hfresh hstep ↦ step_registered hs hfresh hstep) hstart hes
  have hindexed := hrun.indexed
  refine ⟨fun ty id ty' id' hlive hlive' hsame ↦ ?_, fun ty id hlive ↦ ?_⟩
  · have hhash := ServiceProviderFactory.hashOf_of_owner hlive
    have hhash' := ServiceProviderFactory.hashOf_of_owner hlive'
    rw [← hsame] at hhash'
    exact Prod.mk.inj (hindexed.unique (ty, id) (ty', id') _ hhash hhash')
  · exact hindexed.leads (ty, id) _ (ServiceProviderFactory.hashOf_of_owner hlive)

end Endpoints

namespace Scenario

/-- A second service of `owner`, and a new endpoint for it. -/
def renamed (newEndpoint : String) : List Event :=
  [at_ 3 owner (.providers (.register 1 "b.service" 0 owner)),
    at_ 4 owner (.providers (.updateEndpoint 1 "b.service" newEndpoint))]

end Scenario

open Scenario in
/-- A renaming takes over the endpoint of another record. -/
theorem endpoints_collide : Function.Injective (keccak256 : String → Keccak256.Digest) ∧
    ¬ ∀ ss : Session System, Reachable wiring ss → ∀ ty id ty' id',
      (ss.state.spFactory.serviceProviderInfo ty id).owner ≠ 0 →
      (ss.state.spFactory.serviceProviderInfo ty' id').owner ≠ 0 →
      (ss.state.spFactory.serviceProviderInfo ty id).endpoint
        = (ss.state.spFactory.serviceProviderInfo ty' id').endpoint →
      ty = ty' ∧ id = id' := by
  refine ⟨fun _ _ heq ↦ heq, fun h ↦ ?_⟩
  have hsame := h (after (opening ++ renamed "a.service")) (reachable_after _) 1 1 1 2
    (by decide +kernel) (by decide +kernel) (by decide +kernel)
  exact absurd hsame.2 (by decide)

open Scenario in
theorem endpoints_consistent_renamed :
    (after (opening ++ renamed "c.service")).state.spFactory.serviceProviderEndpointToId
      (keccak256 ((after (opening ++ renamed "c.service")).state.spFactory.serviceProviderInfo 1
        2).endpoint) = 2 := by
  have hes : Along (step wiring) RenamesFreshly start (opening ++ renamed "c.service") :=
    ⟨trivial, trivial, trivial, trivial, trivial, trivial, fun _ ↦ .inl (by decide +kernel),
      trivial⟩
  exact (endpoints_consistent deploy_start hes).2 1 2 (by decide +kernel)

end ColivingSpec
