import Mathlib.Algebra.BigOperators.Pi
import ColivingSpec.Lib.Ownership
import ColivingSpec.System.Upkeep

/-!
# The records of an owner

Every owner has a number of endpoints, account bounds and a list of ids for each service type.
They are kept up by registrations and deregistrations, the bounds from what the service types say
at either time; a type keeps its bounds from its addition on, so the two times agree.
-/

namespace ColivingSpec

open Lib Function DelegateManagerV2 ServiceTypeManager

/-- A record counts once, with the stake bounds of its type. -/
def ServiceTypeManager.weight (m : ServiceTypeManager) (k : Bytes32 × ℕ) : ℕ × ℕ × ℕ :=
  (1, (m.serviceTypeInfo k.1).minStake, (m.serviceTypeInfo k.1).maxStake)

section OwnedRecords

variable [Keccak256] {w : Wiring} {msg : Msg} {s s' : System}

namespace ServiceProviderFactory

variable (f : ServiceProviderFactory)

/-- Owner of the record of a type and an id; there is no record when it is `0`. -/
def ownerOf (k : Bytes32 × ℕ) : Address :=
  (f.serviceProviderInfo k.1 k.2).owner

/-- What an account holds of the number of its endpoints and of its bounds. -/
def tally (o : Address) : ℕ × ℕ × ℕ :=
  ((f.spDetails o).numberOfEndpoints, (f.spDetails o).minAccountStake,
    (f.spDetails o).maxAccountStake)

theorem ownerOf_setInfo (serviceType : Bytes32) (id : ℕ) (info : ServiceEndpoint) :
    (f.setInfo serviceType id info).ownerOf
      = update f.ownerOf (serviceType, id) info.owner := by
  funext ⟨ty, n⟩
  by_cases hty : ty = serviceType
  · subst hty
    by_cases hn : n = id
    · subst hn
      simp [ownerOf, setInfo]
    · simp [ownerOf, setInfo, hn]
  · simp [ownerOf, setInfo, hty]

/-- A record written without another owner. -/
theorem ownerOf_setInfo_of_owner {f : ServiceProviderFactory} {serviceType : Bytes32} {id : ℕ}
    {info : ServiceEndpoint} (h : info.owner = (f.serviceProviderInfo serviceType id).owner) :
    (f.setInfo serviceType id info).ownerOf = f.ownerOf := by
  rw [ownerOf_setInfo, h]
  exact update_eq_self _ _

theorem serviceProviderAddressToId_setIds (owner : Address) (serviceType : Bytes32) (ids : List ℕ)
    (o : Address) (ty : Bytes32) :
    (f.setIds owner serviceType ids).serviceProviderAddressToId o ty
      = if o = owner ∧ ty = serviceType then ids else f.serviceProviderAddressToId o ty := by
  by_cases ho : o = owner
  · subst ho
    by_cases hty : ty = serviceType
    · subst hty
      simp [setIds]
    · simp [setIds, hty]
  · simp [setIds, ho]

theorem tally_setDetails (owner : Address) (d : ServiceProviderDetails) (o : Address) :
    (f.setDetails owner d).tally o
      = if o = owner then (d.numberOfEndpoints, d.minAccountStake, d.maxAccountStake)
        else f.tally o := by
  by_cases ho : o = owner
  · subst ho
    simp [tally, setDetails]
  · simp [tally, setDetails, ho]

end ServiceProviderFactory

open ServiceProviderFactory

/-- Records have ids that were issued and types that were added; the accounts and the id lists,
holes apart, are those of the records. -/
structure System.Owned (s : System) : Prop where
  issued : ∀ k, s.spFactory.ownerOf k ≠ 0 →
    k.2 ≠ 0 ∧ k.2 ≤ s.spFactory.serviceProviderTypeIDs k.1
  added : ∀ ty, s.serviceTypeManager.serviceTypeIsValid ty = true →
    (s.serviceTypeManager.serviceTypeInfo ty).maxStake ≠ 0
  known : ∀ k, s.spFactory.ownerOf k ≠ 0 →
    (s.serviceTypeManager.serviceTypeInfo k.1).maxStake ≠ 0
  tallied : ∀ o, o ≠ 0 →
    OwnedTotal s.spFactory.ownerOf s.serviceTypeManager.weight o (s.spFactory.tally o)
  nodup : ∀ o ty, (live 0 (s.spFactory.serviceProviderAddressToId o ty)).Nodup
  listed : ∀ o ty id, id ∈ live 0 (s.spFactory.serviceProviderAddressToId o ty) ↔
    o ≠ 0 ∧ s.spFactory.ownerOf (ty, id) = o

/-- Nothing the records depend on has changed. -/
theorem System.Owned.of_same (h : s.Owned) (howner : s'.spFactory.ownerOf = s.spFactory.ownerOf)
    (hissued : s'.spFactory.serviceProviderTypeIDs = s.spFactory.serviceProviderTypeIDs)
    (hids : s'.spFactory.serviceProviderAddressToId = s.spFactory.serviceProviderAddressToId)
    (htally : ∀ o, SameTally (s.spFactory.spDetails o) (s'.spFactory.spDetails o))
    (htypes : s'.serviceTypeManager = s.serviceTypeManager) : s'.Owned where
  issued k hk := by
    rw [hissued]
    exact h.issued k (howner ▸ hk)
  added ty := by
    rw [htypes]
    exact h.added ty
  known k hk := by
    rw [htypes]
    exact h.known k (howner ▸ hk)
  tallied o ho := by
    have htally' : s'.spFactory.tally o = s.spFactory.tally o := by
      simp only [ServiceProviderFactory.tally, (htally o).numberOfEndpoints,
        (htally o).minAccountStake, (htally o).maxAccountStake]
    rw [howner, htypes, htally']
    exact h.tallied o ho
  nodup o ty := by
    rw [hids]
    exact h.nodup o ty
  listed o ty id := by
    rw [hids, howner]
    exact h.listed o ty id

variable {serviceType : Bytes32} {o : Address} {id : ℕ}

/-- A record under the next id of a valid type is nobody's yet. -/
theorem System.Owned.insert (h : s.Owned) (ho : o ≠ 0)
    (hvalid : s.serviceTypeManager.serviceTypeIsValid serviceType = true)
    (hid : id = s.spFactory.serviceProviderTypeIDs serviceType + 1)
    (howner : s'.spFactory.ownerOf = update s.spFactory.ownerOf (serviceType, id) o)
    (hissued : s'.spFactory.serviceProviderTypeIDs
      = update s.spFactory.serviceProviderTypeIDs serviceType id)
    (hids : ∀ o' ty, s'.spFactory.serviceProviderAddressToId o' ty
      = if o' = o ∧ ty = serviceType then s.spFactory.serviceProviderAddressToId o' ty ++ [id]
        else s.spFactory.serviceProviderAddressToId o' ty) (htally : ∀ o', s'.spFactory.tally o'
      = if o' = o then s.spFactory.tally o + s.serviceTypeManager.weight (serviceType, id)
        else s.spFactory.tally o') (htypes : s'.serviceTypeManager = s.serviceTypeManager) :
    s'.Owned := by
  have hfree : s.spFactory.ownerOf (serviceType, id) = 0 := by
    by_contra hne
    have hle := (h.issued _ hne).2
    simp only at hle
    omega
  have hfree' : ∀ o', o' ≠ 0 → s.spFactory.ownerOf (serviceType, id) ≠ o' :=
    fun o' ho' ↦ hfree ▸ ho'.symm
  refine ⟨fun k hk ↦ ?_, fun ty ↦ htypes ▸ h.added ty, fun k hk ↦ ?_, fun o' ho' ↦ ?_,
    fun o' ty ↦ ?_, fun o' ty n ↦ ?_⟩
  · rw [howner] at hk
    rw [hissued]
    by_cases hkey : k = (serviceType, id)
    · subst hkey
      exact ⟨by simp [hid], by simp⟩
    · rw [update_of_ne hkey] at hk
      obtain ⟨hpos, hle⟩ := h.issued k hk
      refine ⟨hpos, hle.trans ?_⟩
      by_cases hty : k.1 = serviceType
      · rw [hty, update_self, hid]
        exact Nat.le_succ _
      · rw [update_of_ne hty]
  · rw [htypes]
    rw [howner] at hk
    by_cases hkey : k = (serviceType, id)
    · subst hkey
      exact h.added serviceType hvalid
    · rw [update_of_ne hkey] at hk
      exact h.known k hk
  · rw [howner, htypes, htally]
    by_cases hsame : o' = o
    · subst hsame
      rw [if_pos rfl]
      exact (h.tallied o' ho').insert (hfree' o' ho')
    · rw [if_neg hsame]
      exact (h.tallied o' ho').update_of_ne (hfree' o' ho') (Ne.symm hsame)
  · rw [hids]
    split
    · rw [live_concat _ (by omega), List.nodup_append]
      refine ⟨h.nodup o' ty, List.nodup_singleton id, fun n hn m hm heq ↦ ?_⟩
      obtain rfl := List.mem_singleton.mp hm
      next hand =>
      subst heq
      obtain ⟨hne, hmem⟩ := (h.listed o' ty n).mp hn
      rw [hand.2] at hmem
      exact hfree' o' hne hmem
    · exact h.nodup o' ty
  · rw [hids, howner]
    by_cases hkey : (ty, n) = (serviceType, id)
    · obtain ⟨rfl, rfl⟩ := Prod.mk.inj hkey
      rw [update_self]
      by_cases hsame : o' = o
      · subst hsame
        rw [if_pos ⟨rfl, rfl⟩, live_concat _ (by omega)]
        simp [ho]
      · rw [if_neg (fun hand ↦ hsame hand.1), h.listed]
        constructor
        · rintro ⟨hne, heq⟩
          exact absurd heq (hfree' o' hne)
        · rintro ⟨-, heq⟩
          exact absurd heq.symm hsame
    · rw [update_of_ne hkey, ← h.listed]
      split
      · next hand =>
        rw [live_concat _ (by omega), List.mem_append, List.mem_singleton, or_iff_left_iff_imp]
        intro heq
        exact absurd (Prod.ext hand.2 heq) hkey
      · exact Iff.rfl

/-- A record that its owner gives up. -/
theorem System.Owned.erase {rest : ℕ × ℕ × ℕ} (h : s.Owned) (ho : o ≠ 0)
    (hkey : s.spFactory.ownerOf (serviceType, id) = o)
    (howner : s'.spFactory.ownerOf = update s.spFactory.ownerOf (serviceType, id) 0)
    (hissued : s'.spFactory.serviceProviderTypeIDs = s.spFactory.serviceProviderTypeIDs)
    (hids : ∀ o' ty, s'.spFactory.serviceProviderAddressToId o' ty
      = if o' = o ∧ ty = serviceType then
          deleteSlot 0 id (s.spFactory.serviceProviderAddressToId o' ty)
        else s.spFactory.serviceProviderAddressToId o' ty)
    (hrest : s.spFactory.tally o = rest + s.serviceTypeManager.weight (serviceType, id))
    (htally : ∀ o', s'.spFactory.tally o' = if o' = o then rest else s.spFactory.tally o')
    (htypes : s'.serviceTypeManager = s.serviceTypeManager) : s'.Owned := by
  have hid : id ≠ 0 := (h.issued _ (hkey ▸ ho)).1
  have hkept : ∀ k, s'.spFactory.ownerOf k ≠ 0 → s.spFactory.ownerOf k ≠ 0 := by
    intro k hk
    rw [howner] at hk
    by_cases hsame : k = (serviceType, id)
    · subst hsame
      exact hkey ▸ ho
    · rwa [update_of_ne hsame] at hk
  refine ⟨fun k hk ↦ hissued ▸ h.issued k (hkept k hk), fun ty ↦ htypes ▸ h.added ty,
    fun k hk ↦ htypes ▸ h.known k (hkept k hk), fun o' ho' ↦ ?_, fun o' ty ↦ ?_,
    fun o' ty n ↦ ?_⟩
  · rw [howner, htypes, htally]
    by_cases hsame : o' = o
    · subst hsame
      rw [if_pos rfl]
      obtain ⟨rest', htotal, hrest'⟩ := (h.tallied o' ho').erase hkey (Ne.symm ho')
      have heq : rest = rest' := add_right_cancel (hrest.symm.trans htotal)
      exact heq ▸ hrest'
    · rw [if_neg hsame]
      exact (h.tallied o' ho').update_of_ne (fun heq ↦ hsame (heq.symm.trans hkey))
        (Ne.symm ho')
  · rw [hids]
    split
    · rw [live_deleteSlot hid]
      exact (h.nodup o' ty).erase id
    · exact h.nodup o' ty
  · rw [hids, howner]
    by_cases hsame : (ty, n) = (serviceType, id)
    · obtain ⟨rfl, rfl⟩ := Prod.mk.inj hsame
      rw [update_self]
      have hright : ¬ (o' ≠ 0 ∧ 0 = o') := fun hand ↦ hand.1 hand.2.symm
      refine iff_of_false ?_ hright
      by_cases hown : o' = o
      · subst hown
        rw [if_pos ⟨rfl, rfl⟩, live_deleteSlot hid]
        exact (h.nodup o' ty).not_mem_erase
      · rw [if_neg (fun hand ↦ hown hand.1), h.listed]
        rintro ⟨-, heq⟩
        exact hown (heq.symm.trans hkey)
    · rw [update_of_ne hsame, ← h.listed]
      split
      · next hand =>
        rw [live_deleteSlot hid, (h.nodup o' ty).mem_erase_iff, and_iff_right_iff_imp]
        intro _ heq
        exact hsame (Prod.ext hand.2 heq)
      · exact Iff.rfl

namespace ServiceProviderFactory

/-- A registration gives the caller the next record of its type. -/
theorem register_owned {serviceType : Bytes32} {endpoint : String} {amount result : ℕ}
    {wallet : Address} (hcaller : w.Caller msg.sender)
    (h : register w msg serviceType endpoint amount wallet s = .ok (s', result)) (hs : s.Owned) :
    s'.Owned := by
  have hvalid := register_valid h
  obtain ⟨mid, hmoved, -, hresult, rfl⟩ := register_eq_ok hcaller.ne_staking h
  refine hs.insert hcaller.nonzero hvalid hresult (ownerOf_setInfo _ _ _ _) rfl (fun o ty ↦ ?_)
    (fun o ↦ ?_) hmoved.records.serviceTypeManager
  · refine (serviceProviderAddressToId_setIds _ _ _ _ o ty).trans
      (ite_congr rfl (fun hand ↦ ?_) fun _ ↦ rfl)
    rw [hand.1, hand.2]
  · exact tally_setDetails _ _ _ o

/-- A deregistration takes the record of the caller the id leads to. -/
theorem deregister_owned {serviceType : Bytes32} {endpoint : String} {result : ℕ}
    (hcaller : w.Caller msg.sender) (h : deregister msg serviceType endpoint s = .ok (s', result))
    (hs : s.Owned) : s'.Owned := by
  obtain ⟨f, details, hlast, -, -, -, howner, rfl, -, -, hcount, hmin, hmax⟩ := deregister_eq_ok h
  have hsame : f.ownerOf = s.spFactory.ownerOf ∧
      f.serviceProviderTypeIDs = s.spFactory.serviceProviderTypeIDs ∧
      f.serviceProviderAddressToId = s.spFactory.serviceProviderAddressToId ∧
      f.tally = s.spFactory.tally := by
    rcases requestLastStake_eq_ok hlast with rfl | rfl
    · exact ⟨rfl, rfl, rfl, rfl⟩
    · exact ⟨rfl, rfl, rfl, rfl⟩
  obtain ⟨howners, hissued, hids, htally⟩ := hsame
  have hkey : s.spFactory.ownerOf (serviceType, result) = msg.sender := howners ▸ howner
  have hrest : s.spFactory.tally msg.sender = (details.numberOfEndpoints, details.minAccountStake,
      details.maxAccountStake) + s.serviceTypeManager.weight (serviceType, result) := by
    rw [← htally]
    simp only [tally, weight, Prod.mk_add_mk, hcount, hmin, hmax]
  refine hs.erase hcaller.nonzero hkey ?_ hissued (fun o ty ↦ ?_) hrest (fun o ↦ ?_) rfl
  · rw [← howners]
    exact ownerOf_setInfo _ _ _ _
  · rw [← hids]
    refine (serviceProviderAddressToId_setIds _ _ _ _ o ty).trans
      (ite_congr rfl (fun hand ↦ ?_) fun _ ↦ rfl)
    rw [hand.1, hand.2]
  · rw [← htally]
    exact tally_setDetails _ _ _ o

end ServiceProviderFactory

/-! ### The other calls -/

/-- Registry, id lists, tallies and service types stand. -/
structure RecordsStand (s s' : System) : Prop where
  registry : SameRegistry s.spFactory s'.spFactory
  serviceProviderAddressToId :
    s'.spFactory.serviceProviderAddressToId = s.spFactory.serviceProviderAddressToId
  tally : ∀ o, SameTally (s.spFactory.spDetails o) (s'.spFactory.spDetails o)
  serviceTypeManager : s'.serviceTypeManager = s.serviceTypeManager

theorem RecordsStand.of_eq (hfactory : s'.spFactory = s.spFactory)
    (htypes : s'.serviceTypeManager = s.serviceTypeManager) : RecordsStand s s' := by
  refine ⟨?_, ?_, fun o ↦ ?_, htypes⟩
  · rw [hfactory]
    exact ⟨rfl, rfl, rfl⟩
  · rw [hfactory]
  · rw [hfactory]

/-- Stake and flag of one account are no part of the records. -/
theorem RecordsStand.of_details {sp : Address} {details : ServiceProviderDetails}
    {f : ServiceProviderFactory} (hfactory : s'.spFactory = f.setDetails sp details)
    (hregistry : SameRegistry s.spFactory f)
    (hids : f.serviceProviderAddressToId = s.spFactory.serviceProviderAddressToId)
    (hdetails : f.spDetails = s.spFactory.spDetails)
    (htally : SameTally (s.spFactory.spDetails sp) details)
    (htypes : s'.serviceTypeManager = s.serviceTypeManager) : RecordsStand s s' := by
  refine ⟨?_, ?_, fun o ↦ ?_, htypes⟩
  · rw [hfactory]
    exact ⟨hregistry.1, hregistry.2, hregistry.3⟩
  · rw [hfactory]
    exact hids
  · rw [hfactory]
    by_cases ho : o = sp
    · subst ho
      simpa [setDetails] using htally
    · simp [setDetails, ho, hdetails, SameTally.refl]

theorem System.Owned.of_stand (h : s.Owned) (hstand : RecordsStand s s') : s'.Owned :=
  h.of_same (by unfold ownerOf; rw [hstand.registry.serviceProviderInfo])
    hstand.registry.serviceProviderTypeIDs hstand.serviceProviderAddressToId hstand.tally
    hstand.serviceTypeManager

/-- The delegation contract writes stakes and flags of accounts only. -/
theorem DelegationCall.perform_recordsStand {c : DelegationCall} (hcaller : w.Caller msg.sender)
    (h : c.perform w msg s = .ok s') : RecordsStand s s' := by
  have hregistry : SameRegistry s.spFactory s.spFactory := ⟨rfl, rfl, rfl⟩
  cases c with
  | delegateStake sp amount =>
    obtain ⟨⟨s'', n⟩, hcall, rfl⟩ := map_eq_ok.mp h
    obtain ⟨mid, d, hmoved, -, -, -, rfl⟩ :=
      delegateStake_eq_ok hcaller.ne_staking hcall
    exact .of_eq hmoved.records.spFactory hmoved.records.serviceTypeManager
  | undelegateStake =>
    obtain ⟨⟨s'', n⟩, hcall, rfl⟩ := map_eq_ok.mp h
    obtain ⟨mid, d, sp, amount, locked, v, -, -, -, -, hmoved, -, -, rfl⟩ :=
      undelegateStake_eq_ok hcall
    exact .of_details rfl hregistry rfl rfl ⟨rfl, rfl, rfl⟩ hmoved.records.serviceTypeManager
  | claimRewards sp =>
    obtain ⟨mid, reward, hclaimed, -, -, hresult⟩ := claimRewards_eq_ok h
    have htypes := hclaimed.records.serviceTypeManager
    rcases hresult with ⟨-, rfl⟩ | ⟨d, increase, v, hspread⟩
    · exact .of_eq hclaimed.records.spFactory htypes
    · rw [hspread.result, hclaimed.records.spFactory]
      exact .of_details rfl hregistry rfl rfl ⟨rfl, rfl, rfl⟩ htypes
  | slash amount sp =>
    obtain ⟨f, mid, d, decrease, v, -, hf, -, hmoved, -, -, -, -, rfl⟩ :=
      slash_eq_ok h
    have htypes := hmoved.records.serviceTypeManager
    rcases hf with rfl | rfl
    · exact .of_details rfl hregistry rfl rfl ⟨rfl, rfl, rfl⟩ htypes
    · exact .of_details rfl ⟨rfl, rfl, rfl⟩ rfl rfl ⟨rfl, rfl, rfl⟩ htypes
  | removeDelegator sp delegator =>
    obtain ⟨mid, d, d', amount, -, -, -, -, -, -, hmoved, -, -, rfl⟩ :=
      removeDelegator_eq_ok h
    exact .of_eq hmoved.records.spFactory hmoved.records.serviceTypeManager
  | _ =>
    obtain ⟨d, rfl, -⟩ := perform_records rfl h
    exact .of_eq rfl rfl

/-- Calls of neither the factory nor the service types. -/
theorem Call.perform_recordsStand {c : Call} {frame : Option Frame} (hcaller : w.Caller msg.sender)
    (hproviders : ∀ c', c ≠ .providers c') (htypes : ∀ c', c ≠ .types c')
    (h : c.perform w msg s = .ok (s', frame)) : RecordsStand s s' := by
  cases c with
  | delegation c => exact c.perform_recordsStand hcaller (settled_eq_ok.mp h).1
  | providers c => exact absurd rfl (hproviders c)
  | _ =>
    obtain ⟨hfactory, -, -, hmanager⟩ := perform_frame hcaller hproviders (by simp) h
    exact .of_eq hfactory (hmanager htypes)

/-- Service types come with a positive maximum and keep their bounds. -/
theorem TypeCall.perform_owned {c : TypeCall} {m : ServiceTypeManager}
    (h : c.perform w msg s.serviceTypeManager = .ok m) (hs : s.Owned) :
    System.Owned { s with serviceTypeManager := m } := by
  have hbounds : (∀ ty, m.serviceTypeIsValid ty = true → (m.serviceTypeInfo ty).maxStake ≠ 0) ∧
      ∀ ty, (s.serviceTypeManager.serviceTypeInfo ty).maxStake ≠ 0 →
        (m.serviceTypeInfo ty).minStake = (s.serviceTypeManager.serviceTypeInfo ty).minStake ∧
        (m.serviceTypeInfo ty).maxStake = (s.serviceTypeManager.serviceTypeInfo ty).maxStake := by
    cases c with
    | addServiceType serviceType min max =>
      unfold perform ServiceTypeManager.addServiceType at h
      simp only [↓require_bind_eq_ok, pure_eq_ok] at h
      obtain ⟨-, -, hlt, hnew, rfl⟩ := h
      refine ⟨fun ty hvalid ↦ ?_, fun ty hold ↦ ?_⟩
      · by_cases hty : ty = serviceType
        · subst hty
          simpa using hlt.ne_bot
        · simp only [serviceTypeIsValid, update_of_ne hty] at hvalid ⊢
          exact hs.added ty hvalid
      · have hty : ty ≠ serviceType := fun heq ↦ hold (heq ▸ hnew)
        simp [update_of_ne hty]
    | removeServiceType serviceType =>
      unfold perform ServiceTypeManager.removeServiceType at h
      simp only [↓require_bind_eq_ok, pure_eq_ok] at h
      obtain ⟨-, -, rfl⟩ := h
      refine ⟨fun ty hvalid ↦ ?_, fun ty _ ↦ ?_⟩
      · by_cases hty : ty = serviceType
        · subst hty
          simp [serviceTypeIsValid] at hvalid
        · simp only [serviceTypeIsValid, update_of_ne hty] at hvalid ⊢
          exact hs.added ty hvalid
      · by_cases hty : ty = serviceType
        · subst hty
          simp
        · simp [update_of_ne hty]
    | setServiceVersion serviceType version =>
      unfold perform ServiceTypeManager.setServiceVersion at h
      simp only [↓require_bind_eq_ok, pure_eq_ok] at h
      obtain ⟨-, -, -, rfl⟩ := h
      exact ⟨hs.added, fun _ _ ↦ ⟨rfl, rfl⟩⟩
  obtain ⟨hadded, hkept⟩ := hbounds
  refine ⟨hs.issued, hadded, fun k hk ↦ ?_, fun o ho ↦ ?_, hs.nodup, hs.listed⟩
  · have hknown := hs.known k hk
    rw [(hkept k.1 hknown).2]
    exact hknown
  · refine (hs.tallied o ho).congr rfl fun k hk ↦ ?_
    have hknown := hkept k.1 (hs.known k (hk ▸ ho))
    simp only [weight, hknown]

/-- The factory's calls. -/
theorem ProviderCall.perform_owned {c : ProviderCall} (hcaller : w.Caller msg.sender)
    (h : c.perform w msg s = .ok s') (hs : s.Owned) : s'.Owned := by
  cases c with
  | register ty endpoint amount wallet =>
    obtain ⟨⟨s'', n⟩, hcall, rfl⟩ := map_eq_ok.mp h
    exact register_owned hcaller hcall hs
  | deregister ty endpoint =>
    obtain ⟨⟨s'', n⟩, hcall, rfl⟩ := map_eq_ok.mp h
    exact deregister_owned hcaller hcall hs
  | updateEndpoint ty old new =>
    obtain ⟨⟨s'', n⟩, hcall, rfl⟩ := map_eq_ok.mp h
    obtain ⟨-, -, -, rfl⟩ := updateEndpoint_eq_ok hcall
    exact hs.of_same (ownerOf_setInfo_of_owner rfl) rfl rfl (fun _ ↦ .refl _) rfl
  | updateDelegateOwnerWallet ty endpoint wallet =>
    obtain ⟨id, -, -, rfl⟩ := updateDelegateOwnerWallet_eq_ok h
    exact hs.of_same (ownerOf_setInfo_of_owner rfl) rfl rfl (fun _ ↦ .refl _) rfl
  | increaseStake amount =>
    obtain ⟨⟨s'', n⟩, hcall, rfl⟩ := map_eq_ok.mp h
    obtain ⟨mid, details, hmoved, rfl, -, -, htally⟩ :=
      increaseStake_eq_ok hcaller.ne_staking hcall
    exact hs.of_stand (.of_details rfl ⟨rfl, rfl, rfl⟩ rfl rfl htally
      hmoved.records.serviceTypeManager)
  | decreaseStake =>
    obtain ⟨⟨s'', n⟩, hcall, rfl⟩ := map_eq_ok.mp h
    obtain ⟨mid, details, amount, -, -, -, -, hmoved, rfl, -, -, htally⟩ :=
      decreaseStake_eq_ok hcall
    exact hs.of_stand (.of_details (f := s.spFactory.setDecreaseStakeRequest msg.sender ⟨0, 0⟩) rfl
      ⟨rfl, rfl, rfl⟩ rfl rfl htally hmoved.records.serviceTypeManager)
  | _ =>
    obtain ⟨f, rfl, -, hregistry, -, haccounts, -⟩ := perform_records hcaller rfl h
    have hsame := haccounts (fun _ _ ↦ nofun)
    exact hs.of_stand ⟨hregistry rfl, hsame.serviceProviderAddressToId, hsame.tally, rfl⟩

theorem Call.perform_owned {c : Call} {frame : Option Frame} (hcaller : w.Caller msg.sender)
    (h : c.perform w msg s = .ok (s', frame)) (hs : s.Owned) : s'.Owned := by
  by_cases hproviders : ∃ c', c = .providers c'
  · obtain ⟨c, rfl⟩ := hproviders
    obtain ⟨hcall, rfl⟩ := settled_eq_ok.mp h
    exact c.perform_owned hcaller hcall hs
  · by_cases htypes : ∃ c', c = .types c'
    · obtain ⟨c, rfl⟩ := htypes
      obtain ⟨m, hm, rfl, rfl⟩ := perform_types_eq_ok h
      exact TypeCall.perform_owned hm hs
    · exact hs.of_stand (c.perform_recordsStand hcaller (fun c' heq ↦ hproviders ⟨c', heq⟩)
        (fun c' heq ↦ htypes ⟨c', heq⟩) h)

theorem step_owned {ss ss' : Session System} {e : Event} (hs : ss.state.Owned)
    (h : step w ss e = .ok ss') : ss'.state.Owned := by
  cases e with
  | returned =>
    obtain ⟨frame, rest, g, -, -, rfl⟩ := step_returned_eq_ok h
    exact hs.of_same rfl rfl rfl (fun _ ↦ .refl _) rfl
  | call msg c =>
    obtain ⟨hadmits, ⟨s', frame⟩, hperform, rfl⟩ := step_call_eq_ok h
    exact c.perform_owned (admits_caller hadmits) hperform hs

theorem deploy_owned {p : Deployment} {start : Session System} (h : deploy w p = .ok start) :
    start.state.Owned := by
  obtain ⟨-, -, -, -, token, -, rfl⟩ := deploy_eq_ok h
  have hnone : ∀ k, ServiceProviderFactory.empty.ownerOf k = 0 := fun _ ↦ rfl
  refine ⟨fun k hk ↦ absurd (hnone k) hk, fun ty hvalid ↦ ?_, fun k hk ↦ absurd (hnone k) hk,
    fun o ho ↦ .zero fun k heq ↦ ho (heq.symm.trans (hnone k)), fun o ty ↦ List.nodup_nil,
    fun o ty id ↦ ?_⟩
  · simp [serviceTypeIsValid, ServiceTypeManager.initialStorage] at hvalid
  · refine iff_of_false (List.not_mem_nil) ?_
    rintro ⟨hne, heq⟩
    exact hne (heq.symm.trans (hnone (ty, id)))

theorem Reachable.owned {ss : Session System} (h : Reachable w ss) : ss.state.Owned :=
  h.induction (fun _ _ hp ↦ deploy_owned hp) fun _ _ _ hs hstep ↦ step_owned hs hstep

/-! ### Counts and bounds -/

/-- The account of an owner holds a record of it with the bounds of its type. -/
theorem System.Owned.record_le (h : s.Owned) (ho : o ≠ 0)
    (hkey : s.spFactory.ownerOf (serviceType, id) = o) :
    1 ≤ (s.spFactory.spDetails o).numberOfEndpoints ∧
      (s.serviceTypeManager.serviceTypeInfo serviceType).minStake
        ≤ (s.spFactory.spDetails o).minAccountStake ∧
      (s.serviceTypeManager.serviceTypeInfo serviceType).maxStake
        ≤ (s.spFactory.spDetails o).maxAccountStake := by
  obtain ⟨⟨count, min, max⟩, htotal, -⟩ := (h.tallied o ho).erase hkey (Ne.symm ho)
  simp only [ServiceProviderFactory.tally, weight, Prod.mk_add_mk, Prod.mk.injEq] at htotal
  omega

/-- The check of the bounds computes nothing. -/
theorem revalidate_ne_panic {unstaked : Bool} :
    revalidate msg unstaked s ≠ .error "Panic(0x11)" := by
  intro h
  unfold revalidate validateAccountStakeBalance _validateBalanceInternal at h
  split at h
  · cases h
  · rcases bind_eq_error.mp h with hguard | ⟨_, -, hreturn⟩
    · rcases (require_bind_eq_error _ _ _ _).mp hguard with ⟨-, habsurd⟩ | ⟨-, hguard⟩
      · simp at habsurd
      · unfold require at hguard
        split at hguard
        · cases hguard
        · simp at hguard
    · simp [pure, Except.pure] at hreturn

/-- A deregistration panics only when the end of the lockup overflows: its subtractions are made
for a record of the caller. -/
theorem deregister_panic {endpoint : String} (h : s.Owned) (hsender : msg.sender ≠ 0)
    (hpanic : deregister msg serviceType endpoint s = .error "Panic(0x11)") :
    uint256Bound ≤ msg.blockNumber + s.spFactory.decreaseStakeLockupDuration := by
  by_contra hfits
  have hlast : ∃ f, s.spFactory.requestLastStake msg = .ok f := by
    unfold requestLastStake SafeMath.add Checked.add
    rw [if_pos (Nat.lt_of_not_le hfits)]
    split
    · exact ⟨_, rfl⟩
    · exact ⟨_, rfl⟩
  obtain ⟨f, hlast⟩ := hlast
  have hsame : f.ownerOf = s.spFactory.ownerOf ∧ f.spDetails = s.spFactory.spDetails := by
    rcases requestLastStake_eq_ok hlast with rfl | rfl
    · exact ⟨rfl, rfl⟩
    · exact ⟨rfl, rfl⟩
  unfold deregister at hpanic
  rw [hlast, ok_bind, require_bind_eq_error] at hpanic
  rcases hpanic with ⟨-, habsurd⟩ | ⟨-, hpanic⟩
  · simp at habsurd
  rw [require_bind_eq_error] at hpanic
  rcases hpanic with ⟨-, habsurd⟩ | ⟨-, hpanic⟩
  · simp at habsurd
  rw [require_bind_eq_error] at hpanic
  rcases hpanic with ⟨-, habsurd⟩ | ⟨howner, hpanic⟩
  · simp at habsurd
  have hkey : s.spFactory.ownerOf
      (serviceType, f.serviceProviderEndpointToId (keccak256 endpoint)) = msg.sender := by
    rw [← hsame.1]
    exact howner
  obtain ⟨hcount, hmin, hmax⟩ := h.record_le hsender hkey
  rw [← hsame.2] at hcount hmin hmax
  simp only [setInfo, setEndpointId, setIds, sub_bind_of_le _ _ _ hcount, sub_bind_of_le _ _ _ hmin,
    sub_bind_of_le _ _ _ hmax] at hpanic
  rcases bind_eq_error.mp hpanic with hrevalidate | ⟨_, -, hreturn⟩
  · exact revalidate_ne_panic hrevalidate
  · simp [pure, Except.pure] at hreturn

/-- In every reachable state the account of an owner has the number of its records and the sums of
their types' bounds, removed types included, and no subtraction of a deregistration underflows. -/
theorem accounts_match_records {ss : Session System} (h : Reachable w ss) {o : Address}
    (ho : o ≠ 0) :
    ∃ records : Finset (Bytes32 × ℕ),
      (∀ ty id, (ty, id) ∈ records ↔ (ss.state.spFactory.serviceProviderInfo ty id).owner = o) ∧
      (ss.state.spFactory.spDetails o).numberOfEndpoints = records.card ∧
      (ss.state.spFactory.spDetails o).minAccountStake
        = ∑ k ∈ records, (ss.state.serviceTypeManager.serviceTypeInfo k.1).minStake ∧
      (ss.state.spFactory.spDetails o).maxAccountStake
        = ∑ k ∈ records, (ss.state.serviceTypeManager.serviceTypeInfo k.1).maxStake ∧
      ∀ (msg : Msg) ty endpoint, msg.sender = o →
        deregister msg ty endpoint ss.state = .error "Panic(0x11)" →
        uint256Bound ≤ msg.blockNumber + ss.state.spFactory.decreaseStakeLockupDuration := by
  obtain ⟨records, hrecords, htotal⟩ := h.owned.tallied o ho
  have hcount := congrArg Prod.fst htotal
  have hmin := congrArg (fun total ↦ total.2.1) htotal
  have hmax := congrArg (fun total ↦ total.2.2) htotal
  simp only [Prod.fst_sum, Prod.snd_sum, ServiceProviderFactory.tally,
    ServiceTypeManager.weight] at hcount hmin hmax
  refine ⟨records, fun ty id ↦ hrecords (ty, id), ?_, hmin, hmax,
    fun msg ty endpoint hsender hpanic ↦ ?_⟩
  · rw [hcount, Finset.card_eq_sum_ones]
  · exact deregister_panic h.owned (hsender ▸ ho) hpanic

end OwnedRecords

namespace Scenario

/-- The type of the service of `owner` is removed. -/
def typeRemoved : List Event := opening ++ setting 3 (.types (.removeServiceType 1))

end Scenario

open Scenario in
theorem accounts_match_records_removed :
    ∃ records : Finset (Bytes32 × ℕ),
      (∀ ty id, (ty, id) ∈ records ↔
        ((after typeRemoved).state.spFactory.serviceProviderInfo ty id).owner = owner) ∧
      ((after typeRemoved).state.spFactory.spDetails owner).numberOfEndpoints = records.card ∧
      ((after typeRemoved).state.spFactory.spDetails owner).minAccountStake
        = ∑ k ∈ records,
          ((after typeRemoved).state.serviceTypeManager.serviceTypeInfo k.1).minStake ∧
      ((after typeRemoved).state.spFactory.spDetails owner).maxAccountStake
        = ∑ k ∈ records,
          ((after typeRemoved).state.serviceTypeManager.serviceTypeInfo k.1).maxStake ∧
      ∀ (msg : Msg) ty endpoint, msg.sender = owner →
        ServiceProviderFactory.deregister msg ty endpoint (after typeRemoved).state
          = .error "Panic(0x11)" →
        uint256Bound ≤ msg.blockNumber
          + (after typeRemoved).state.spFactory.decreaseStakeLockupDuration :=
  accounts_match_records (reachable_after typeRemoved) (by decide)

end ColivingSpec
