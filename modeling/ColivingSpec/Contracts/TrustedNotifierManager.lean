import ColivingSpec.Eth.Word
import ColivingSpec.Lib.Replay

/-!
# Trusted notifiers

`TrustedNotifierManager.sol`: records by id, with maps from wallets, endpoints and emails back
to the ids. Only the notifier of the deployment may have an empty field.
-/

namespace ColivingSpec

open Lib Function

section Maps

variable {K : Type} [DecidableEq K] {find : K → ℕ} {k x : K} {a c : ℕ}

/-- A value that an update did not bring was there before. -/
theorem of_update_eq (hne : a ≠ c) (h : update find k a x = c) : x ≠ k ∧ find x = c := by
  by_cases hx : x = k
  · rw [hx, update_self] at h
    exact absurd h hne
  · exact ⟨hx, (update_of_ne hx _ _).symm.trans h⟩

/-- A bound holds after an update within it. -/
theorem update_le (h : ∀ x, find x ≤ c) (ha : a ≤ c) (x : K) : update find k a x ≤ c := by
  by_cases hx : x = k
  · rw [hx, update_self]
    exact ha
  · rw [update_of_ne hx]
    exact h x

end Maps

/-- `TrustedNotifierManager.sol:13–17`. -/
structure TrustedNotifier where
  wallet : Address
  endpoint : String
  email : String
  deriving DecidableEq

/-- The record a deleted or never written slot has. -/
def TrustedNotifier.empty : TrustedNotifier := ⟨0, "", ""⟩

section

variable [Keccak256]

/-- `TrustedNotifierManager.sol:10–31`. -/
structure TrustedNotifierManager where
  governanceAddress : Address
  latestID : ℕ
  idToTrustedNotifierMap : ℕ → TrustedNotifier
  walletToIDMap : Address → ℕ
  endpointToIDMap : Keccak256.Digest → ℕ
  emailToIDMap : Keccak256.Digest → ℕ

namespace TrustedNotifierManager

variable (isGovernanceAddress : Address → Bool) (msg : Msg)

variable (m : TrustedNotifierManager) (governanceAddress wallet : Address)

/-- `TrustedNotifierManager.sol:200–206`. -/
def _updateGovernanceAddress (m : TrustedNotifierManager) :
    Except String TrustedNotifierManager := do
  require (isGovernanceAddress governanceAddress)
    "TrustedNotifierManager: _governanceAddress is not a valid governance contract"
  return { m with governanceAddress }

/-- A notifier entered under its fields. -/
def enter (id : ℕ) (notifier : TrustedNotifier) (m : TrustedNotifierManager) :
    TrustedNotifierManager :=
  { m with
    latestID := id
    idToTrustedNotifierMap := Function.update m.idToTrustedNotifierMap id notifier
    walletToIDMap := Function.update m.walletToIDMap notifier.wallet id
    endpointToIDMap := Function.update m.endpointToIDMap (keccak256 notifier.endpoint) id
    emailToIDMap := Function.update m.emailToIDMap (keccak256 notifier.email) id }

/-- The notifier of a wallet deleted, with the entries of its fields. -/
def leave (m : TrustedNotifierManager) : TrustedNotifierManager :=
  let id := m.walletToIDMap wallet
  let notifier := m.idToTrustedNotifierMap id
  { m with
    idToTrustedNotifierMap := Function.update m.idToTrustedNotifierMap id .empty
    walletToIDMap := Function.update m.walletToIDMap wallet 0
    endpointToIDMap := Function.update m.endpointToIDMap (keccak256 notifier.endpoint) 0
    emailToIDMap := Function.update m.emailToIDMap (keccak256 notifier.email) 0 }

/-- Storage before deployment. -/
def blank : TrustedNotifierManager :=
  ⟨0, 0, fun _ ↦ .empty, fun _ ↦ 0, fun _ ↦ 0, fun _ ↦ 0⟩

/-- `TrustedNotifierManager.sol:38–60`. -/
def initialStorage (notifier : TrustedNotifier) : Except String TrustedNotifierManager := do
  let m ← blank._updateGovernanceAddress isGovernanceAddress governanceAddress
  return m.enter 1 notifier

/-- `TrustedNotifierManager.sol:69–111`. -/
def registerNotifier (endpoint email : String) (m : TrustedNotifierManager) :
    Except String (TrustedNotifierManager × ℕ) := do
  require (msg.sender = m.governanceAddress)
    "TrustedNotifierManager: Only callable by Governance contract."
  require (wallet ≠ 0 ∧ m.walletToIDMap wallet = 0)
    "TrustedNotifierManager: Wallet must be unique and non-zero."
  require (endpoint ≠ "" ∧ m.endpointToIDMap (keccak256 endpoint) = 0)
    "TrustedNotifierManager: Endpoint must be unique and non-empty."
  require (email ≠ "" ∧ m.emailToIDMap (keccak256 email) = 0)
    "TrustedNotifierManager: Email must be unique and non-empty."
  let id ← SafeMath.add m.latestID 1
  return (m.enter id ⟨wallet, endpoint, email⟩, id)

/-- `TrustedNotifierManager.sol:118–135`. -/
def deregisterNotifier (m : TrustedNotifierManager) :
    Except String (TrustedNotifierManager × ℕ) := do
  require (msg.sender = m.governanceAddress ∨ msg.sender = wallet)
    "TrustedNotifierManager: Only callable by Governance contract or _wallet."
  return (m.leave wallet, m.walletToIDMap wallet)

/-- `TrustedNotifierManager.sol:184–192`. -/
def setGovernanceAddress (m : TrustedNotifierManager) : Except String TrustedNotifierManager := do
  require (msg.sender = m.governanceAddress)
    "TrustedNotifierManager: Only callable by Governance contract"
  m._updateGovernanceAddress isGovernanceAddress governanceAddress

/-- The calls that write. -/
inductive Call where
  | registerNotifier (wallet : Address) (endpoint email : String)
  | deregisterNotifier (wallet : Address)
  | setGovernanceAddress (governanceAddress : Address)

/-- A call, with what the addresses asked answer about themselves. -/
structure Event where
  isGovernanceAddress : Address → Bool
  msg : Msg
  c : Call

/-- One call. -/
def step (e : Event) : Except String TrustedNotifierManager :=
  match e.c with
  | .registerNotifier wallet endpoint email =>
    Prod.fst <$> m.registerNotifier e.msg wallet endpoint email
  | .deregisterNotifier wallet => Prod.fst <$> m.deregisterNotifier e.msg wallet
  | .setGovernanceAddress address => m.setGovernanceAddress e.isGovernanceAddress e.msg address

/-! ### What the maps should say -/

/-- The id an endpoint leads to. -/
def idOfEndpoint (endpoint : String) : ℕ :=
  m.endpointToIDMap (keccak256 endpoint)

/-- The id an email leads to. -/
def idOfEmail (email : String) : ℕ :=
  m.emailToIDMap (keccak256 email)

/-- A notifier of this id has a record, or a wallet leads to it. -/
def Live (id : ℕ) : Prop :=
  m.idToTrustedNotifierMap id ≠ .empty ∨ ∃ wallet, m.walletToIDMap wallet = id

/-- A live notifier is found by its own value of a field, and no value leads to a record with a
different one. -/
def Agrees {F : Type} (m : TrustedNotifierManager) (field : TrustedNotifier → F) (find : F → ℕ) :
    Prop :=
  ∀ id, 0 < id → id ≤ m.latestID →
    (m.Live id → find (field (m.idToTrustedNotifierMap id)) = id) ∧
      ∀ value, find value = id → field (m.idToTrustedNotifierMap id) = value

/-- The four maps agree. -/
structure MapsAgree (m : TrustedNotifierManager) : Prop where
  wallet : m.Agrees TrustedNotifier.wallet m.walletToIDMap
  endpoint : m.Agrees TrustedNotifier.endpoint m.idOfEndpoint
  email : m.Agrees TrustedNotifier.email m.idOfEmail

/-- A wallet without a notifier is deregistered while a live notifier has an empty endpoint or an
empty email. -/
def ErasesEmpty (e : Event) : Prop :=
  ∃ wallet, e.c = .deregisterNotifier wallet ∧
    (e.msg.sender = m.governanceAddress ∨ e.msg.sender = wallet) ∧ m.walletToIDMap wallet = 0 ∧
    ∃ id, 0 < id ∧ id ≤ m.latestID ∧ m.Live id ∧ ((m.idToTrustedNotifierMap id).endpoint = "" ∨
      (m.idToTrustedNotifierMap id).email = "")

/-- What every call keeps: no record and no lookup beyond the ids issued. -/
structure Issued (m : TrustedNotifierManager) : Prop where
  zero : m.idToTrustedNotifierMap 0 = .empty
  wallet : ∀ wallet, m.walletToIDMap wallet ≤ m.latestID
  endpoint : ∀ digest, m.endpointToIDMap digest ≤ m.latestID
  email : ∀ digest, m.emailToIDMap digest ≤ m.latestID

/-! ### Entering and leaving -/

variable {m m' : TrustedNotifierManager} {F : Type} [DecidableEq F]
  {field : TrustedNotifier → F} {find : F → ℕ} {n : TrustedNotifier} {wallet : Address}

/-- A new notifier is found by a value that led nowhere. -/
theorem Agrees.enter (h : m.Agrees field find) (hbound : ∀ value, find value ≤ m.latestID)
    (hfree : find (field n) = 0) : (m.enter (m.latestID + 1) n).Agrees field
      (update find (field n) (m.latestID + 1)) := by
  intro id hpos hle
  by_cases hid : id = m.latestID + 1
  · subst hid
    have hrecord : (m.enter (m.latestID + 1) n).idToTrustedNotifierMap (m.latestID + 1) = n :=
      update_self _ _ _
    rw [hrecord]
    refine ⟨fun _ ↦ update_self _ _ _, fun value hvalue ↦ ?_⟩
    by_contra hne
    rw [update_of_ne (Ne.symm hne)] at hvalue
    exact absurd (hbound value) (by omega)
  · have hrecord : (m.enter (m.latestID + 1) n).idToTrustedNotifierMap id
        = m.idToTrustedNotifierMap id := update_of_ne hid _ _
    obtain ⟨hfinds, hleads⟩ := h id hpos (Nat.lt_succ_iff.mp (lt_of_le_of_ne hle hid))
    rw [hrecord]
    refine ⟨fun hlive ↦ ?_, fun value hvalue ↦ hleads value (of_update_eq (Ne.symm hid) hvalue).2⟩
    have hfound := hfinds (hlive.imp (hrecord ▸ ·) fun ⟨wallet, hwallet⟩ ↦
      ⟨wallet, (of_update_eq (Ne.symm hid) hwallet).2⟩)
    rw [update_of_ne, hfound]
    intro heq
    rw [heq, hfree] at hfound
    exact hpos.ne hfound

/-- A leaving notifier takes the entry of its value along. -/
theorem Agrees.leave (h : m.Agrees field find)
    (hwallet : m.Agrees TrustedNotifier.wallet m.walletToIDMap)
    (hpos : 0 < m.walletToIDMap wallet) (hle : m.walletToIDMap wallet ≤ m.latestID) :
    (m.leave wallet).Agrees field (update find
      (field (m.idToTrustedNotifierMap (m.walletToIDMap wallet))) 0) := by
  obtain ⟨hfound, hback⟩ := h _ hpos hle
  intro id hpos' hle'
  obtain ⟨hfinds, hleads⟩ := h id hpos' hle'
  by_cases hid : id = m.walletToIDMap wallet
  · subst hid
    constructor
    · rintro (hne | ⟨other, hother⟩)
      · exact absurd (update_self _ _ _) hne
      · obtain ⟨hne, hleft⟩ := of_update_eq hpos.ne hother
        have hself := (hwallet _ hpos hle).2 wallet rfl
        exact absurd (((hwallet _ hpos hle).2 other hleft).symm.trans hself) hne
    · intro value hvalue
      obtain ⟨hne, hvalue⟩ := of_update_eq hpos.ne hvalue
      exact absurd (hback value hvalue).symm hne
  · have hrecord : (m.leave wallet).idToTrustedNotifierMap id = m.idToTrustedNotifierMap id :=
      update_of_ne hid _ _
    rw [hrecord]
    refine ⟨fun hlive ↦ ?_, fun value hvalue ↦ hleads value (of_update_eq hpos'.ne hvalue).2⟩
    have hthis := hfinds (hlive.imp (hrecord ▸ ·) fun ⟨other, hother⟩ ↦
      ⟨other, (of_update_eq hpos'.ne hother).2⟩)
    rw [update_of_ne, hthis]
    intro heq
    rw [heq, hfound (.inr ⟨wallet, rfl⟩)] at hthis
    exact hid hthis.symm

/-- A map that forgets a value agrees as long as no live notifier has it. -/
theorem Agrees.forget_iff (h : m.Agrees field find) (value : F) :
    m.Agrees field (update find value 0) ↔
      ∀ id, 0 < id → id ≤ m.latestID → m.Live id → field (m.idToTrustedNotifierMap id) ≠ value := by
  constructor
  · rintro h' id hpos hle hlive rfl
    have hfound := (h' id hpos hle).1 hlive
    rw [update_self] at hfound
    exact hpos.ne hfound
  · intro hnone id hpos hle
    obtain ⟨hfinds, hleads⟩ := h id hpos hle
    refine ⟨fun hlive ↦ ?_, fun other hother ↦ hleads other (of_update_eq hpos.ne hother).2⟩
    rw [update_of_ne (hnone id hpos hle hlive)]
    exact hfinds hlive

theorem Issued.enter (h : m.Issued) (n : TrustedNotifier) :
    (m.enter (m.latestID + 1) n).Issued where
  zero := (update_of_ne (Nat.succ_ne_zero m.latestID).symm n _).trans h.zero
  wallet := update_le (fun x ↦ (h.wallet x).trans (Nat.le_succ _)) (Nat.le_refl _)
  endpoint := update_le (fun x ↦ (h.endpoint x).trans (Nat.le_succ _)) (Nat.le_refl _)
  email := update_le (fun x ↦ (h.email x).trans (Nat.le_succ _)) (Nat.le_refl _)

theorem Issued.leave (h : m.Issued) (wallet : Address) : (m.leave wallet).Issued where
  zero := by
    simp only [TrustedNotifierManager.leave]
    by_cases hid : 0 = m.walletToIDMap wallet
    · rw [hid, update_self]
    · rw [update_of_ne hid]
      exact h.zero
  wallet := update_le h.wallet (Nat.zero_le _)
  endpoint := update_le h.endpoint (Nat.zero_le _)
  email := update_le h.email (Nat.zero_le _)

section Injective

variable (hinj : Function.Injective (keccak256 : String → Keccak256.Digest))

include hinj

theorem idOfEndpoint_update (text : String) (id : ℕ) :
    (fun s ↦ update m.endpointToIDMap (keccak256 text) id (keccak256 s))
      = update m.idOfEndpoint text id :=
  update_comp_eq_of_injective m.endpointToIDMap hinj text id

theorem idOfEmail_update (text : String) (id : ℕ) :
    (fun s ↦ update m.emailToIDMap (keccak256 text) id (keccak256 s))
      = update m.idOfEmail text id :=
  update_comp_eq_of_injective m.emailToIDMap hinj text id

/-- A notifier entered under free fields keeps the maps in step. -/
theorem MapsAgree.enter (h : m.MapsAgree) (hs : m.Issued) (hwallet : m.walletToIDMap n.wallet = 0)
    (hendpoint : m.idOfEndpoint n.endpoint = 0) (hemail : m.idOfEmail n.email = 0) :
    (m.enter (m.latestID + 1) n).MapsAgree where
  wallet := h.wallet.enter hs.wallet hwallet
  endpoint := by
    have hagrees := h.endpoint.enter (fun _ ↦ hs.endpoint _) hendpoint
    rwa [← idOfEndpoint_update hinj] at hagrees
  email := by
    have hagrees := h.email.enter (fun _ ↦ hs.email _) hemail
    rwa [← idOfEmail_update hinj] at hagrees

/-- A leaving notifier takes its entries along; a wallet without one takes those of the empty
texts. -/
theorem MapsAgree.leave_iff (h : m.MapsAgree) (hs : m.Issued) (wallet : Address) :
    (m.leave wallet).MapsAgree ↔ (m.walletToIDMap wallet = 0 →
      ∀ id, 0 < id → id ≤ m.latestID → m.Live id → (m.idToTrustedNotifierMap id).endpoint ≠ "" ∧
        (m.idToTrustedNotifierMap id).email ≠ "") := by
  by_cases hid : m.walletToIDMap wallet = 0
  · have hleave : m.leave wallet = { m with
        endpointToIDMap := update m.endpointToIDMap (keccak256 "") 0
        emailToIDMap := update m.emailToIDMap (keccak256 "") 0 } := by
      have hrecords := update_eq_self 0 m.idToTrustedNotifierMap
      have hwallets := update_eq_self wallet m.walletToIDMap
      rw [hs.zero] at hrecords
      rw [hid] at hwallets
      simp only [TrustedNotifierManager.leave, hid, hs.zero, hrecords, hwallets]
      rfl
    have hboth : (m.leave wallet).MapsAgree ↔
        m.Agrees TrustedNotifier.endpoint (update m.idOfEndpoint "" 0) ∧
          m.Agrees TrustedNotifier.email (update m.idOfEmail "" 0) := by
      rw [hleave, ← idOfEndpoint_update hinj, ← idOfEmail_update hinj]
      exact ⟨fun h' ↦ ⟨h'.endpoint, h'.email⟩, fun h' ↦ ⟨h.wallet, h'.1, h'.2⟩⟩
    rw [hboth, h.endpoint.forget_iff, h.email.forget_iff]
    constructor
    · exact fun h' _ id hpos hle hlive ↦ ⟨h'.1 id hpos hle hlive, h'.2 id hpos hle hlive⟩
    · exact fun h' ↦ ⟨fun id hpos hle hlive ↦ (h' hid id hpos hle hlive).1,
        fun id hpos hle hlive ↦ (h' hid id hpos hle hlive).2⟩
  · have hpos := Nat.pos_of_ne_zero hid
    refine iff_of_true ⟨?_, ?_, ?_⟩ fun hzero ↦ absurd hzero hid
    · have hagrees := h.wallet.leave h.wallet hpos (hs.wallet wallet)
      rwa [(h.wallet _ hpos (hs.wallet wallet)).2 wallet rfl] at hagrees
    · have hagrees := h.endpoint.leave h.wallet hpos (hs.wallet wallet)
      rwa [← idOfEndpoint_update hinj] at hagrees
    · have hagrees := h.email.leave h.wallet hpos (hs.wallet wallet)
      rwa [← idOfEmail_update hinj] at hagrees

/-- What a deployment leaves is in step. -/
theorem initialStorage_agrees {isGovernanceAddress : Address → Bool} {governanceAddress : Address}
    (h : initialStorage isGovernanceAddress governanceAddress n = .ok m) :
    m.Issued ∧ m.MapsAgree := by
  simp only [initialStorage, _updateGovernanceAddress, bind_assoc, ↓require_bind_eq_ok, pure_bind,
    pure_eq_ok] at h
  obtain ⟨-, rfl⟩ := h
  have hs : Issued { blank with governanceAddress } :=
    ⟨rfl, fun _ ↦ Nat.zero_le _, fun _ ↦ Nat.zero_le _, fun _ ↦ Nat.zero_le _⟩
  have hagree : MapsAgree { blank with governanceAddress } := by
    refine ⟨?_, ?_, ?_⟩
    all_goals exact fun id hpos hle ↦ absurd hle (Nat.not_le.mpr hpos)
  exact ⟨hs.enter n, hagree.enter hinj hs rfl rfl rfl⟩

omit hinj in
/-- What a successful call does. -/
theorem step_cases {e : Event} (h : step m e = .ok m') :
    (∃ n : TrustedNotifier, m.walletToIDMap n.wallet = 0 ∧ m.idOfEndpoint n.endpoint = 0 ∧
      m.idOfEmail n.email = 0 ∧ (∀ wallet, e.c ≠ .deregisterNotifier wallet) ∧
      m' = m.enter (m.latestID + 1) n) ∨
    (∃ wallet, e.c = .deregisterNotifier wallet ∧
      (e.msg.sender = m.governanceAddress ∨ e.msg.sender = wallet) ∧ m' = m.leave wallet) ∨
    ∃ governanceAddress, (∀ wallet, e.c ≠ .deregisterNotifier wallet) ∧
      m' = { m with governanceAddress } := by
  obtain ⟨isGovernanceAddress, msg, c⟩ := e
  cases c with
  | registerNotifier wallet endpoint email =>
    obtain ⟨⟨_, _⟩, hcall, rfl⟩ := map_eq_ok.mp h
    simp only [registerNotifier, ↓require_bind_eq_ok, ↓add_bind_eq_ok, pure_eq_ok] at hcall
    obtain ⟨-, ⟨-, hwallet⟩, ⟨-, hendpoint⟩, ⟨-, hemail⟩, -, heq⟩ := hcall
    cases heq
    exact .inl ⟨⟨wallet, endpoint, email⟩, hwallet, hendpoint, hemail, by simp, rfl⟩
  | deregisterNotifier wallet =>
    obtain ⟨⟨_, _⟩, hcall, rfl⟩ := map_eq_ok.mp h
    simp only [deregisterNotifier, ↓require_bind_eq_ok, pure_eq_ok] at hcall
    obtain ⟨hsender, heq⟩ := hcall
    cases heq
    exact .inr (.inl ⟨wallet, rfl, hsender, rfl⟩)
  | setGovernanceAddress address =>
    simp only [step, setGovernanceAddress, _updateGovernanceAddress, ↓require_bind_eq_ok,
      pure_eq_ok] at h
    obtain ⟨-, -, rfl⟩ := h
    exact .inr (.inr ⟨address, by simp, rfl⟩)

omit hinj in
theorem step_issued {e : Event} (hs : m.Issued) (h : step m e = .ok m') : m'.Issued := by
  obtain ⟨n, -, -, -, -, rfl⟩ | ⟨wallet, -, -, rfl⟩ | ⟨_, -, rfl⟩ := step_cases h
  · exact hs.enter n
  · exact hs.leave wallet
  · exact ⟨hs.zero, hs.wallet, hs.endpoint, hs.email⟩

/-- A successful call keeps the maps in step, unless it erases the entry of an empty field. -/
theorem step_mapsAgree_iff {e : Event} (hs : m.Issued) (hagree : m.MapsAgree)
    (h : step m e = .ok m') : m'.MapsAgree ↔ ¬ ErasesEmpty m e := by
  obtain ⟨n, hwallet, hendpoint, hemail, hcall, rfl⟩ | ⟨wallet, hcall, hsender, rfl⟩ |
    ⟨_, hcall, rfl⟩ := step_cases h
  · refine iff_of_true (hagree.enter hinj hs hwallet hendpoint hemail) ?_
    exact fun ⟨wallet, heq, _⟩ ↦ hcall wallet heq
  · rw [hagree.leave_iff hinj hs]
    constructor
    · rintro hfree ⟨wallet', heq, -, hnone, id, hpos, hle, hlive, hempty⟩
      obtain rfl : wallet = wallet' := Call.deregisterNotifier.inj (hcall.symm.trans heq)
      have hfilled := hfree hnone id hpos hle hlive
      exact hempty.elim hfilled.1 hfilled.2
    · intro hkept hnone id hpos hle hlive
      refine ⟨fun hempty ↦ hkept ?_, fun hempty ↦ hkept ?_⟩
      · exact ⟨wallet, hcall, hsender, hnone, id, hpos, hle, hlive, .inl hempty⟩
      · exact ⟨wallet, hcall, hsender, hnone, id, hpos, hle, hlive, .inr hempty⟩
  · refine iff_of_true ⟨hagree.wallet, hagree.endpoint, hagree.email⟩ ?_
    exact fun ⟨wallet, heq, _⟩ ↦ hcall wallet heq

/-- The maps agree at all times just when no wallet without a notifier is deregistered while a live
notifier has an empty endpoint or email. -/
theorem trusted_notifier_maps_agree_iff {isGovernanceAddress : Address → Bool}
    {governanceAddress : Address} {n : TrustedNotifier} {start : TrustedNotifierManager}
    (hstart : initialStorage isGovernanceAddress governanceAddress n = .ok start)
    (es : List Event) :
    (∀ fs, fs <+: es → MapsAgree (replay step start fs)) ↔
      Along step (fun m e ↦ ¬ ErasesEmpty m e) start es := by
  obtain ⟨hs, hagree⟩ := initialStorage_agrees hinj hstart
  refine prefixes_iff_along_of_ok (fun _ _ _ hs h ↦ step_issued hs h)
    (fun _ _ _ hs hagree h ↦ step_mapsAgree_iff hinj hs hagree h) ?_ hs hagree
  rintro m ⟨_, msg, c⟩ hreverts ⟨wallet, rfl, hsender, -⟩
  refine hreverts ⟨_, map_eq_ok.mpr ⟨(m.leave wallet, m.walletToIDMap wallet), ?_, rfl⟩⟩
  simp only [deregisterNotifier, ↓require_bind_eq_ok]
  exact ⟨hsender, rfl⟩

end Injective

end TrustedNotifierManager

end

namespace TrustedNotifierManager.Example

/-- Texts hashed to themselves. -/
local instance keccak : Keccak256 := ⟨String, inferInstance, id⟩

/-- Deployed by governance at `7`, with a notifier that has no endpoint. -/
def start : TrustedNotifierManager := valueOf (initialStorage (· = 7) 7 ⟨1, "", "a@b.c"⟩) rfl

/-- A wallet that has no notifier deregisters itself. -/
def strayed : List Event := [⟨fun _ ↦ false, ⟨9, 1⟩, .deregisterNotifier 9⟩]

theorem stray_deregistration_unlinks_notifier : ¬ ∀ [Keccak256],
    Function.Injective (keccak256 : String → Keccak256.Digest) →
      ∀ isGovernanceAddress governanceAddress n start es,
        initialStorage isGovernanceAddress governanceAddress n = .ok start →
          MapsAgree (replay step start es) := by
  intro h
  have hagree := @h keccak (fun _ _ heq ↦ heq) _ _ _ start strayed (eq_ok_valueOf _ rfl)
  have hlive : (replay step start strayed).Live 1 := .inl (by decide)
  exact absurd ((hagree.endpoint 1 Nat.one_pos (by decide)).1 hlive) (by decide)

theorem trusted_notifier_maps_agree_iff_strayed :
    (∀ fs, fs <+: strayed → MapsAgree (replay step start fs)) ↔
      Along step (fun m e ↦ ¬ ErasesEmpty m e) start strayed :=
  trusted_notifier_maps_agree_iff (fun _ _ heq ↦ heq) (eq_ok_valueOf _ rfl) strayed

end TrustedNotifierManager.Example

end ColivingSpec
