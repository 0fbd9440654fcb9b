import ColivingSpec.DataContracts.UserReplicaSetManager

/-!
# Who changes a replica set

An update takes effect for a signer with a say over the replica set it replaces, on the
replica set that was expected, and puts registered and distinct nodes in its place. A
request burns its digest, so it takes effect once.
-/

namespace ColivingSpec

open Lib List

namespace UserReplicaSetManager

section Authority

variable [Signing] {m m' : UserReplicaSetManager}

/-! ### Burned digests -/

/-- The digest was burned for its signer. -/
def Burned (digest : Signing.Digest) (m : UserReplicaSetManager) : Prop :=
  ∃ sig signer, Signing.recover digest sig = .ok signer ∧
    m.usedSignatures (Signing.keccak256 (.burned digest signer)) = true

variable {digest : Signing.Digest} {sig : List UInt8} {signer : Address}

/-- A burned digest stays burned while the used signatures grow. -/
theorem Burned.mono (h : Burned digest m)
    (hused : ∀ k, m.usedSignatures k = true → m'.usedSignatures k = true) : Burned digest m' := by
  obtain ⟨sig, signer, hrecover, hkey⟩ := h
  exact ⟨sig, signer, hrecover, hused _ hkey⟩

/-- Recovering the signer of a request marks it used, and does nothing else. -/
theorem recoverAndBurn_eq_ok (h : m.recoverAndBurn digest sig = .ok (m', signer)) :
    Signing.recover digest sig = .ok signer ∧ signer ≠ 0 ∧
      m.usedSignatures (Signing.keccak256 (.burned digest signer)) = false ∧
      m' = { m with
        usedSignatures :=
          Function.update m.usedSignatures (Signing.keccak256 (.burned digest signer)) true } := by
  unfold recoverAndBurn recoverSigner burnSignatureDigest at h
  simp only [bind_eq_ok, require_eq_ok, pure_eq_ok, Prod.mk.injEq] at h
  obtain ⟨a, ⟨b, hrecover, -, hnonzero, rfl⟩, mid, ⟨-, hfresh, rfl⟩, rfl, rfl⟩ := h
  exact ⟨hrecover, hnonzero, hfresh, rfl⟩

/-- Used signatures only grow. -/
theorem recoverAndBurn_mono (h : m.recoverAndBurn digest sig = .ok (m', signer))
    (k : Signing.Digest) (hk : m.usedSignatures k = true) : m'.usedSignatures k = true := by
  obtain ⟨-, -, -, rfl⟩ := recoverAndBurn_eq_ok h
  by_cases heq : k = Signing.keccak256 (.burned digest signer)
  · simp [heq]
  · simpa [heq] using hk

/-- The digest is burned afterwards. -/
theorem recoverAndBurn_burns (h : m.recoverAndBurn digest sig = .ok (m', signer)) :
    Burned digest m' := by
  obtain ⟨hrecover, -, -, rfl⟩ := recoverAndBurn_eq_ok h
  exact ⟨sig, signer, hrecover, by simp⟩

/-- A burned digest is not accepted again: its only signer is the one it was burned for. -/
theorem recoverAndBurn_fresh (hunique : UniqueSigners)
    (h : m.recoverAndBurn digest sig = .ok (m', signer)) :
    ¬ Burned digest m := by
  obtain ⟨hrecover, -, hfresh, -⟩ := recoverAndBurn_eq_ok h
  rintro ⟨sig', signer', hrecover', hused⟩
  rw [hunique digest sig' sig signer' signer hrecover' hrecover, hfresh] at hused
  cases hused

/-- What a transaction does to the digests it carries: none was burned, none is carried
twice, and all are burned. -/
structure Burns (digests : List Signing.Digest) (m m' : UserReplicaSetManager) : Prop where
  fresh : ∀ digest ∈ digests, ¬ Burned digest m
  nodup : digests.Nodup
  burned : ∀ digest ∈ digests, Burned digest m'
  mono : ∀ k, m.usedSignatures k = true → m'.usedSignatures k = true

/-- No digests, and no change of the used signatures. -/
theorem Burns.of_eq (h : m'.usedSignatures = m.usedSignatures) : Burns [] m m' :=
  ⟨fun _ hmem ↦ absurd hmem not_mem_nil, nodup_nil,
    fun _ hmem ↦ absurd hmem not_mem_nil, fun _ hk ↦ h ▸ hk⟩

/-- One more digest, burned first. -/
theorem Burns.cons (hunique : UniqueSigners) {mid : UserReplicaSetManager}
    {digests : List Signing.Digest} (hfirst : m.recoverAndBurn digest sig = .ok (mid, signer))
    (hrest : Burns digests mid m') : Burns (digest :: digests) m m' where
  fresh d hd := by
    rcases mem_cons.mp hd with rfl | hd
    · exact recoverAndBurn_fresh hunique hfirst
    · exact fun hburned ↦ hrest.fresh d hd (hburned.mono (recoverAndBurn_mono hfirst))
  nodup := nodup_cons.mpr
    ⟨fun hmem ↦ hrest.fresh digest hmem (recoverAndBurn_burns hfirst), hrest.nodup⟩
  burned d hd := by
    rcases mem_cons.mp hd with rfl | hd
    · exact (recoverAndBurn_burns hfirst).mono hrest.mono
    · exact hrest.burned d hd
  mono k hk := hrest.mono k (recoverAndBurn_mono hfirst k hk)

/-! ### What the operations check -/

/-- The nodes of a replica set are registered. -/
def Registered (m : UserReplicaSetManager) (ids : List ℕ) : Prop :=
  ∀ id ∈ ids, (m.spIdToContentNodeWallets id).delegateOwnerWallet ≠ 0

theorem requireSecondaries_eq_ok {ids : List ℕ} {u : Unit} :
    m.requireSecondaries ids = .ok u ↔ Registered m ids := by
  induction ids with
  | nil => simp [requireSecondaries, Registered]
  | cons id rest ih =>
    unfold requireSecondaries
    rw [require_bind_eq_ok, ih]
    simp [Registered]

omit [Signing] in
/-- Three different replicas. -/
theorem distinctReplicas_eq_ok {primaryId : ℕ} {secondaryIds : List ℕ}
    (h : distinctReplicas primaryId secondaryIds = .ok true) :
    ∃ secondary1 secondary2 rest, secondaryIds = secondary1 :: secondary2 :: rest ∧
      primaryId ≠ secondary1 ∧ primaryId ≠ secondary2 ∧ secondary1 ≠ secondary2 := by
  match secondaryIds, h with
  | [], h => cases h
  | [secondary1], h =>
    simp only [distinctReplicas, elementAt, getElem?_cons_zero, ok_bind] at h
    split at h
    · cases h
    · cases h
  | secondary1 :: secondary2 :: rest, h =>
    simp only [distinctReplicas, elementAt, getElem?_cons_zero, getElem?_cons_succ, ok_bind] at h
    split at h
    · cases h
    · next hne =>
      simp only [pure_eq_ok, decide_eq_true_eq] at h
      exact ⟨secondary1, secondary2, rest, rfl, hne, h.1, h.2⟩

/-- The loop accepts the stored ids only, and finds the signer among them or before. -/
theorem compareSecondaries_eq_ok {storedIds oldIds : List ℕ} {senderFound : Bool}
    (hlength : oldIds.length = storedIds.length)
    (h : m.compareSecondaries signer storedIds oldIds senderFound = .ok true) :
    storedIds = oldIds ∧ (senderFound = true ∨
      ∃ id ∈ oldIds, signer = (m.spIdToContentNodeWallets id).delegateOwnerWallet) := by
  induction storedIds generalizing oldIds senderFound with
  | nil =>
    obtain rfl : oldIds = [] := length_eq_zero_iff.mp hlength
    simp only [compareSecondaries, Except.ok.injEq] at h
    exact ⟨rfl, .inl h⟩
  | cons stored storedIds ih =>
    cases oldIds with
    | nil => simp at hlength
    | cons old oldIds =>
      unfold compareSecondaries at h
      rw [require_bind_eq_ok] at h
      obtain ⟨rfl, h⟩ := h
      obtain ⟨rfl, hfound⟩ := ih (by simpa using hlength) h
      refine ⟨rfl, ?_⟩
      rcases hfound with hfound | ⟨id, hid, hsigner⟩
      · rw [Bool.or_eq_true, decide_eq_true_eq] at hfound
        exact hfound.imp_right fun hsigner ↦ ⟨stored, mem_cons_self, hsigner⟩
      · exact .inr ⟨id, mem_cons_of_mem _ hid, hsigner⟩

/-- The signer has a say over the old replica set of the user. -/
def Authorises (m : UserReplicaSetManager) (users : UserWallets) (u : ReplicaSetUpdate)
    (signer : Address) : Prop :=
  users.getUser m.registry m.userFactoryRegistryKey u.userId = .ok signer ∨
    signer = m.userReplicaSetBootstrapAddress ∨
    ∃ id ∈ u.oldPrimaryId :: u.oldSecondaryIds,
      signer = (m.spIdToContentNodeWallets id).delegateOwnerWallet

/-- What an update that takes effect leaves, and what it checked before. -/
structure Updated (users : UserWallets) (u : ReplicaSetUpdate) (m m' : UserReplicaSetManager) :
    Prop where
  stored : m'.userReplicaSets u.userId = ⟨u.primaryId, u.secondaryIds⟩
  distinct : ∃ secondary1 secondary2 rest, u.secondaryIds = secondary1 :: secondary2 :: rest ∧
    u.primaryId ≠ secondary1 ∧ u.primaryId ≠ secondary2 ∧ secondary1 ≠ secondary2
  registered : Registered m (u.primaryId :: u.secondaryIds)
  expected : m.userReplicaSets u.userId = ⟨u.oldPrimaryId, u.oldSecondaryIds⟩
  authorised : ∃ signer, Signing.recover (m.updateDigest u) u.subjectSig = .ok signer ∧
    signer ≠ 0 ∧ Authorises m users u signer

theorem updateReplicaSet_eq_ok {users : UserWallets} {u : ReplicaSetUpdate}
    (h : m.updateReplicaSet users u = .ok m') :
    Updated users u m m' ∧ ∃ mid signer,
      m.recoverAndBurn (m.updateDigest u) u.subjectSig = .ok (mid, signer) ∧
        m'.usedSignatures = mid.usedSignatures := by
  unfold updateReplicaSet _requireSeed _compareUserSecondariesAndCheckSender at h
  rw [require_bind_eq_ok] at h
  obtain ⟨-, h⟩ := h
  obtain ⟨⟨mid, signer⟩, hburn, h⟩ := bind_eq_ok.mp h
  obtain ⟨userWallet, hwallet, h⟩ := bind_eq_ok.mp h
  simp only [↓require_bind_eq_ok] at h
  obtain ⟨-, hprimary, h⟩ := h
  obtain ⟨valid, hcompare, h⟩ := bind_eq_ok.mp h
  simp only [↓require_bind_eq_ok] at h hcompare
  obtain ⟨rfl, hexists, h⟩ := h
  obtain ⟨_, hsecondaries, h⟩ := bind_eq_ok.mp h
  obtain ⟨distinct, hdistinct, h⟩ := bind_eq_ok.mp h
  simp only [↓require_bind_eq_ok, pure_eq_ok] at h
  obtain ⟨rfl, rfl⟩ := h
  refine ⟨?_, mid, signer, hburn, rfl⟩
  obtain ⟨hrecover, hnonzero, -, rfl⟩ := recoverAndBurn_eq_ok hburn
  obtain ⟨hold, hfound⟩ := compareSecondaries_eq_ok hcompare.1 hcompare.2
  refine ⟨by simp, distinctReplicas_eq_ok hdistinct, ?_, ?_, signer, hrecover, hnonzero, ?_⟩
  · intro id hid
    rcases mem_cons.mp hid with rfl | hid
    · exact hexists
    · exact requireSecondaries_eq_ok.mp hsecondaries id hid
  · calc m.userReplicaSets u.userId
        = ⟨(m.userReplicaSets u.userId).primaryId, (m.userReplicaSets u.userId).secondaryIds⟩ := rfl
      _ = ⟨u.oldPrimaryId, u.oldSecondaryIds⟩ := congrArg₂ ReplicaSet.mk hprimary hold
  · rcases hfound with hfound | ⟨id, hid, hsigner⟩
    · rw [decide_eq_true_eq] at hfound
      rcases hfound with rfl | hold | hbootstrap
      · exact .inl hwallet
      · exact .inr (.inr ⟨_, mem_cons_self, hold⟩)
      · exact .inr (.inl hbootstrap)
    · exact .inr (.inr ⟨id, mem_cons_of_mem _ hid, hsigner⟩)

theorem addOrUpdateContentNode_burns (hunique : UniqueSigners) {p : ContentNodeProposal}
    (h : m.addOrUpdateContentNode p = .ok m') :
    Burns [m.proposalDigest p p.proposer1, m.proposalDigest p p.proposer2,
      m.proposalDigest p p.proposer3] m m' := by
  unfold addOrUpdateContentNode _requireSeed at h
  rw [require_bind_eq_ok] at h
  obtain ⟨-, h⟩ := h
  obtain ⟨⟨m1, wallet1⟩, hburn1, h⟩ := bind_eq_ok.mp h
  obtain ⟨⟨m2, wallet2⟩, hburn2, h⟩ := bind_eq_ok.mp h
  obtain ⟨⟨m3, wallet3⟩, hburn3, h⟩ := bind_eq_ok.mp h
  simp only [↓require_bind_eq_ok, pure_eq_ok] at h
  obtain ⟨-, -, -, -, -, rfl⟩ := h
  -- Burning leaves the domain of the digests.
  have hdigest1 : m1.proposalDigest p p.proposer2 = m.proposalDigest p p.proposer2 := by
    obtain ⟨-, -, -, rfl⟩ := recoverAndBurn_eq_ok hburn1
    rfl
  have hdigest2 : m2.proposalDigest p p.proposer3 = m.proposalDigest p p.proposer3 := by
    obtain ⟨-, -, -, rfl⟩ := recoverAndBurn_eq_ok hburn2
    obtain ⟨-, -, -, rfl⟩ := recoverAndBurn_eq_ok hburn1
    rfl
  rw [hdigest1] at hburn2
  rw [hdigest2] at hburn3
  exact .cons hunique hburn1 (.cons hunique hburn2 (.cons hunique hburn3 (.of_eq rfl)))

/-- Seeding uses no signature. -/
theorem usedSignatures_seed (nodes : List (ℕ × Address × Address)) (m : UserReplicaSetManager) :
    (nodes.foldl (fun m node ↦ m.setContentNodeWallets node.1 ⟨node.2.2, node.2.1⟩)
      m).usedSignatures = m.usedSignatures := by
  induction nodes generalizing m with
  | nil => rfl
  | cons node rest ih =>
    rw [foldl_cons, ih]
    rfl

/-- Every transaction burns the digests it carries. -/
theorem step_burns (hunique : UniqueSigners) {t : Transaction} (h : m.step t = .ok m') :
    Burns (m.requestDigests t) m m' := by
  obtain ⟨sender, users, operation⟩ := t
  cases operation with
  | seedBootstrapNodes spIds delegateWallets ownerWallets =>
    have hseed : m.seedBootstrapNodes sender spIds delegateWallets ownerWallets = .ok m' := h
    unfold seedBootstrapNodes at hseed
    simp only [↓require_bind_eq_ok, pure_eq_ok] at hseed
    obtain ⟨-, -, -, rfl⟩ := hseed
    exact .of_eq (usedSignatures_seed _ m)
  | addOrUpdateContentNode p => exact addOrUpdateContentNode_burns hunique h
  | updateReplicaSet u =>
    obtain ⟨-, mid, signer, hburn, hused⟩ := updateReplicaSet_eq_ok h
    exact .cons hunique hburn (.of_eq hused)
  | updateUserReplicaBootstrapAddress a =>
    have hset : m.updateUserReplicaBootstrapAddress sender a = .ok m' := h
    unfold updateUserReplicaBootstrapAddress _requireSeed at hset
    simp only [↓require_bind_eq_ok, pure_eq_ok] at hset
    obtain ⟨-, -, rfl⟩ := hset
    exact .of_eq rfl

/-! ### Runs -/

/-- A digest is accepted by a transaction at most once, and is burned by it. -/
theorem acceptances_once (hunique : UniqueSigners) (digest : Signing.Digest)
    (m : UserReplicaSetManager) (t : Transaction) :
    acceptances digest m t = 0 ∨
      acceptances digest m t = 1 ∧ Burned digest (attempt step m t) := by
  unfold acceptances
  split
  · next hok =>
    have hburns := step_burns hunique (eq_ok_attempt step hok)
    by_cases hmem : digest ∈ m.requestDigests t
    · exact .inr ⟨count_eq_one_of_mem hburns.nodup hmem, hburns.burned digest hmem⟩
    · exact .inl (count_eq_zero_of_not_mem hmem)
  · exact .inl rfl

/-- A burned digest is not accepted, and stays burned. -/
theorem acceptances_burned (hunique : UniqueSigners) (digest : Signing.Digest)
    (m : UserReplicaSetManager) (t : Transaction) (hburned : Burned digest m) :
    acceptances digest m t = 0 ∧ Burned digest (attempt step m t) := by
  unfold acceptances
  split
  · next hok =>
    have hburns := step_burns hunique (eq_ok_attempt step hok)
    exact ⟨count_eq_zero_of_not_mem fun hmem ↦ hburns.fresh digest hmem hburned,
      hburned.mono hburns.mono⟩
  · next hno =>
    refine ⟨rfl, ?_⟩
    rcases attempt_cases step m t with heq | hok
    · rw [heq]
      exact hburned
    · exact absurd (by rw [hok]; rfl) hno

/-- When every digest has one signer: after any run an update that takes effect stores distinct
and registered replicas over the expected ones, for a signer with a say over them, and over
the run no digest is accepted twice. -/
theorem replica_set_authority (hunique : UniqueSigners) (start : UserReplicaSetManager)
    (ts : List Transaction) :
    (∀ users u m', (replay step start ts).updateReplicaSet users u = .ok m' →
      Updated users u (replay step start ts) m') ∧
    ∀ digest, accumulated step (acceptances digest) start ts ≤ 1 :=
  ⟨fun _ _ _ h ↦ (updateReplicaSet_eq_ok h).1, fun digest ↦
    (accumulated_le_one (fun m t ↦ acceptances_burned hunique digest m t)
      (fun m t ↦ acceptances_once hunique digest m t) start ts).1⟩

end Authority

open Scenario in
theorem replica_set_authority_seeded :
    (∃ m', (replay step Scenario.start [seeded]).updateReplicaSet users firstUpdate = .ok m' ∧
      Updated users firstUpdate (replay step Scenario.start [seeded]) m') ∧
    accumulated step (acceptances (Scenario.start.updateDigest firstUpdate)) Scenario.start
      [seeded, ⟨account 9, users, .updateReplicaSet firstUpdate⟩,
        ⟨account 9, users, .updateReplicaSet firstUpdate⟩] ≤ 1 := by
  have hok : ((replay step Scenario.start [seeded]).updateReplicaSet users firstUpdate).isOk
      = true := by decide +kernel
  have hupdate := eq_ok_valueOf _ hok
  exact ⟨⟨_, hupdate, (replica_set_authority uniqueSigners _ _).1 _ _ _ hupdate⟩,
    (replica_set_authority uniqueSigners _ _).2 _⟩

end UserReplicaSetManager

end ColivingSpec
