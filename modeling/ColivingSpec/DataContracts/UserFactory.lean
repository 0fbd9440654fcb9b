import ColivingSpec.Eth.Word
import ColivingSpec.Lib.Replay

/-!
# User registration on chain

`addUser` of `UserFactory.sol`, with the signing base it inherits and `UserStorage.sol` behind it: a
handle of sixteen bytes is lower-cased up to its first zero byte and taken under what comes out.
Hashing and signature recovery are parameters, what is hashed is kept as a term. The factory is
taken wired to one storage; events are not modelled, no function reads them.
-/

namespace ColivingSpec

open Lib

/-- Sixteen bytes, `bytes16` of the language. -/
abbrev Bytes16 : Type := { bytes : List UInt8 // bytes.length = 16 }

/-! ### Storage -/

/-- `UserStorage.sol:15–36`. -/
structure UserStorage where
  userId : ℕ
  userWallets : ℕ → Address
  userHandles : ℕ → Bytes16
  handlesTaken : Bytes16 → Bool

namespace UserStorage

/-- Storage nothing was registered in, `UserStorage.sol:16`. -/
def initialStorage : UserStorage where
  userId := 1
  userWallets := fun _ ↦ 0
  userHandles := fun _ ↦ ⟨List.replicate 16 0, rfl⟩
  handlesTaken := fun _ ↦ false

/-- `UserStorage.sol:45–60`. -/
def addUser (wallet : Address) (handle handleLower : Bytes16) (u : UserStorage) :
    Except String (UserStorage × ℕ) := do
  let newUserId := u.userId
  let userId ← SafeMath.add newUserId 1
  require (userId ≠ newUserId) "expected incremented userId"
  return ({
    userId
    userWallets := Function.update u.userWallets newUserId wallet
    userHandles := Function.update u.userHandles newUserId handle
    handlesTaken := Function.update u.handlesTaken handleLower true }, newUserId)

/-- `UserStorage.sol:78–82`. -/
def handleIsTaken (handleLower : Bytes16) (u : UserStorage) : Bool := u.handlesTaken handleLower

end UserStorage

namespace UserFactory

/-- What `keccak256` is applied to, one constructor for each `abi.encode`. -/
inductive Encoded (Digest : Type) where
  | domain (name version : String) (chainId : ℕ) (verifyingContract : Address)
  | addUserRequest (handle : Bytes16) (nonce : Bytes32)
  | typedData (domainSeparator requestHash : Digest)
  | burned (signatureDigest : Digest) (sender : Address)

end UserFactory

/-- The hash, and `ECDSA.recover`. -/
class HandleSigning where
  Digest : Type
  decEq : DecidableEq Digest
  keccak256 : UserFactory.Encoded Digest → Digest
  recover : Digest → List UInt8 → Except String Address

instance instDecidableEqHandleDigest [HandleSigning] : DecidableEq HandleSigning.Digest :=
  HandleSigning.decEq

/-- `SigningLogic.sol:16–20`, and the storage the registry leads to. -/
structure UserFactory [HandleSigning] where
  domainSeparator : HandleSigning.Digest
  usedSignatures : HandleSigning.Digest → Bool
  userStorage : UserStorage

namespace UserFactory

/-! ### Handles -/

/-- `UserFactory.sol:384–391`. -/
def handleCharIsValid (char : UInt8) : Bool :=
  (0x30 ≤ char ∧ char ≤ 0x39) ∨ (0x41 ≤ char ∧ char ≤ 0x5A) ∨ char = 0x5F ∨
    (0x61 ≤ char ∧ char ≤ 0x7A)

/-- An upper case letter made lower case, `UserFactory.sol:348–354`. -/
def lowerChar (char : UInt8) : UInt8 := if 65 ≤ char ∧ char ≤ 90 then char + 32 else char

/-- The loop of `UserFactory.sol:336–355`. The bytes from the first zero on are neither checked nor
changed. -/
def lowerFrom : (bytes : List UInt8) →
    Except String { lower : List UInt8 // lower.length = bytes.length }
  | [] => .ok ⟨[], rfl⟩
  | char :: rest =>
    if char = 0 then
      .ok ⟨char :: rest, rfl⟩
    else do
      require (handleCharIsValid char) "invalid character found in handle"
      let lower ← lowerFrom rest
      return ⟨lowerChar char :: lower.1, congrArg (· + 1) lower.2⟩

/-- `UserFactory.sol:332–358`. -/
def toLower (str : Bytes16) : Except String Bytes16 := do
  let lower ← lowerFrom str.1
  return ⟨lower.1, lower.2.trans str.2⟩

variable [HandleSigning]

/-! ### Requests -/

/-- `SigningLogic.sol:47–49`. -/
def generateSchemaHash (requestHash : HandleSigning.Digest) (f : UserFactory) :
    HandleSigning.Digest :=
  HandleSigning.keccak256 (.typedData f.domainSeparator requestHash)

/-- `UserFactory.sol:393–405`. -/
def generateAddUserRequestSchemaHash (handle : Bytes16) (nonce : Bytes32) (f : UserFactory) :
    HandleSigning.Digest :=
  f.generateSchemaHash (HandleSigning.keccak256 (.addUserRequest handle nonce))

/-- `SigningLogic.sol:51–55`. -/
def recoverSigner (digest : HandleSigning.Digest) (sig : List UInt8) :
    Except String Address := do
  let signer ← HandleSigning.recover digest sig
  require (signer ≠ 0) "Signer cannot be contract creation address"
  return signer

/-- `SigningLogic.sol:41–45`. -/
def burnSignatureDigest (signatureDigest : HandleSigning.Digest) (sender : Address)
    (f : UserFactory) : Except String UserFactory := do
  let txDataHash := HandleSigning.keccak256 (.burned signatureDigest sender)
  require (f.usedSignatures txDataHash = false) "Signature not unique"
  return { f with usedSignatures := Function.update f.usedSignatures txDataHash true }

/-- `UserFactory.sol:60–75` and `SigningLogic.sol:30–39`, by the contract at `self`. -/
def initialStorage (self registryAddress : Address) (networkId : ℕ) :
    Except String UserFactory := do
  require (registryAddress ≠ 0)
    "requires non-zero _registryAddress, non-empty _userStorageRegistryKey"
  return {
    domainSeparator := HandleSigning.keccak256 (.domain "User Factory" "1" networkId self)
    usedSignatures := fun _ ↦ false
    userStorage := UserStorage.initialStorage }

/-- `UserFactory.sol:96–121`. -/
def addUser (owner : Address) (handle : Bytes16) (nonce : Bytes32) (subjectSig : List UInt8)
    (f : UserFactory) : Except String (UserFactory × ℕ) := do
  let signatureDigest := f.generateAddUserRequestSchemaHash handle nonce
  let signer ← recoverSigner signatureDigest subjectSig
  require (owner = signer) "Invalid signature for given user"
  let f ← f.burnSignatureDigest signatureDigest owner
  let handleLower ← toLower handle
  require (f.userStorage.handleIsTaken handleLower = false) "Handle is already taken"
  let (userStorage, userId) ← f.userStorage.addUser owner handle handleLower
  return ({ f with userStorage }, userId)

/-- What can happen to the factory: a registration, or the end of another signed request, which
burns its digest and stores nothing else. -/
inductive Event where
  | addUser (owner : Address) (handle : Bytes16) (nonce : Bytes32) (subjectSig : List UInt8)
  | request (signatureDigest : HandleSigning.Digest) (signer : Address)

/-- One event. -/
def step (f : UserFactory) : Event → Except String UserFactory
  | .addUser owner handle nonce subjectSig => Prod.fst <$> f.addUser owner handle nonce subjectSig
  | .request signatureDigest signer => f.burnSignatureDigest signatureDigest signer

/-! ### What a registration does -/

variable {f f' : UserFactory} {e : Event} {handle : Bytes16} {owner : Address} {nonce : Bytes32}
  {sig : List UInt8}

/-- A registration is of a handle whose lower case form was free, under the next id. -/
theorem addUser_eq_ok {id : ℕ} (h : f.addUser owner handle nonce sig = .ok (f', id)) :
    ∃ lower, toLower handle = .ok lower ∧ f.userStorage.handlesTaken lower = false ∧
      f'.userStorage = {
        userId := f.userStorage.userId + 1
        userWallets := Function.update f.userStorage.userWallets f.userStorage.userId owner
        userHandles := Function.update f.userStorage.userHandles f.userStorage.userId handle
        handlesTaken := Function.update f.userStorage.handlesTaken lower true } := by
  unfold addUser UserStorage.addUser burnSignatureDigest at h
  obtain ⟨signer, -, h⟩ := bind_eq_ok.mp h
  simp only [↓require_bind_eq_ok, bind_assoc, pure_bind] at h
  obtain ⟨-, -, h⟩ := h
  obtain ⟨lower, hlower, h⟩ := bind_eq_ok.mp h
  simp only [↓require_bind_eq_ok, ↓add_bind_eq_ok, pure_eq_ok, Prod.mk.injEq] at h
  obtain ⟨hfree, -, -, rfl, -⟩ := h
  exact ⟨lower, hlower, hfree, rfl⟩

/-- Any other request leaves the users. -/
theorem burnSignatureDigest_eq_ok {digest : HandleSigning.Digest} {signer : Address}
    (h : f.burnSignatureDigest digest signer = .ok f') : f'.userStorage = f.userStorage := by
  unfold burnSignatureDigest at h
  simp only [↓require_bind_eq_ok, pure_eq_ok] at h
  rw [← h.2]

end UserFactory

end ColivingSpec

/-!
## Who has which handle

Lower-casing stops at the first zero byte, but a handle is taken as all sixteen bytes of what comes
out. The two agree on handles that are padded with zeros; a handle with something behind its first
zero is another one than the padded handle it reads like.
-/

namespace ColivingSpec

open Lib

namespace UserFactory

/-! ### Padded handles -/

variable (bytes : List UInt8)

/-- The bytes before the first zero. -/
def name : List UInt8 := bytes.takeWhile (· ≠ 0)

/-- The bytes from the first zero on. -/
def padding : List UInt8 := bytes.dropWhile (· ≠ 0)

/-- Something before the first zero, and nothing but zeros from there. -/
def Padded : Prop := name bytes ≠ [] ∧ ∀ char ∈ padding bytes, char = 0

/-- A run of allowed characters, padded with zeros. -/
structure WellFormed (bytes : List UInt8) : Prop where
  padded : Padded bytes
  valid : ∀ char ∈ name bytes, handleCharIsValid char = true

theorem name_append_padding : name bytes ++ padding bytes = bytes :=
  List.takeWhile_append_dropWhile

/-- The loop accepts the name and lowers it, and leaves the padding. -/
theorem lowerFrom_eq_ok : ∀ {bytes : List UInt8}
    {lower : { lower : List UInt8 // lower.length = bytes.length }}, lowerFrom bytes = .ok lower →
    (∀ char ∈ name bytes, handleCharIsValid char = true) ∧
      lower.1 = (name bytes).map lowerChar ++ padding bytes := by
  intro bytes
  induction bytes with
  | nil =>
    intro lower h
    cases h
    exact ⟨by simp [name], rfl⟩
  | cons char rest ih =>
    intro lower h
    unfold lowerFrom at h
    by_cases hzero : char = 0
    · rw [if_pos hzero] at h
      cases h
      subst hzero
      exact ⟨by simp [name], by simp [name, padding]⟩
    · rw [if_neg hzero] at h
      simp only [↓require_bind_eq_ok, bind_eq_ok, pure_eq_ok] at h
      obtain ⟨hvalid, lower', hrest, rfl⟩ := h
      obtain ⟨hvalid', hlower⟩ := ih hrest
      have hname : name (char :: rest) = char :: name rest := by simp [name, hzero]
      have hpadding : padding (char :: rest) = padding rest := by simp [padding, hzero]
      rw [hname, hpadding]
      refine ⟨fun c hc ↦ ?_, ?_⟩
      · rcases List.mem_cons.mp hc with rfl | hc
        · exact hvalid
        · exact hvalid' c hc
      · rw [List.map_cons, List.cons_append, ← hlower]

theorem toLower_eq_ok {handle lower : Bytes16} (h : toLower handle = .ok lower) :
    (∀ char ∈ name handle.1, handleCharIsValid char = true) ∧
      lower.1 = (name handle.1).map lowerChar ++ padding handle.1 := by
  unfold toLower at h
  simp only [bind_eq_ok, pure_eq_ok] at h
  obtain ⟨lower', hlower, rfl⟩ := h
  exact lowerFrom_eq_ok hlower

/-- Padded handles that read alike are lowered to the same bytes. -/
theorem toLower_eq_of_padded {handle handle' lower lower' : Bytes16}
    (hpadded : Padded handle.1) (hpadded' : Padded handle'.1)
    (hname : (name handle.1).map lowerChar = (name handle'.1).map lowerChar)
    (h : toLower handle = .ok lower) (h' : toLower handle' = .ok lower') : lower = lower' := by
  apply Subtype.ext
  rw [(toLower_eq_ok h).2, (toLower_eq_ok h').2, hname]
  have hlength : (name handle.1).length = (name handle'.1).length := by
    simpa using congrArg List.length hname
  have hsize := congrArg List.length (name_append_padding handle.1)
  have hsize' := congrArg List.length (name_append_padding handle'.1)
  rw [List.length_append, handle.2] at hsize
  rw [List.length_append, handle'.2] at hsize'
  have hsame : (padding handle.1).length = (padding handle'.1).length := by omega
  rw [List.eq_replicate_of_mem hpadded.2, List.eq_replicate_of_mem hpadded'.2, hsame]

/-! ### Registered users -/

/-- An id that was given out. -/
def Registered (u : UserStorage) (id : ℕ) : Prop := 0 < id ∧ id < u.userId

/-- Every handle is well-formed, and no two read alike but for the case of letters. -/
structure HandlesUnique (u : UserStorage) : Prop where
  wellFormed : ∀ id, Registered u id → WellFormed (u.userHandles id).1
  distinct : ∀ id id', Registered u id → Registered u id' → id ≠ id' →
    (name (u.userHandles id).1).map lowerChar ≠ (name (u.userHandles id').1).map lowerChar

/-- What handles are lowered to is taken. -/
structure HandlesEntered (u : UserStorage) : Prop where
  positive : 0 < u.userId
  entered : ∀ id, Registered u id → ∃ lower, toLower (u.userHandles id) = .ok lower ∧
    u.handlesTaken lower = true

section Registrations

variable [HandleSigning] {f f' start : UserFactory} {e : Event} {handle : Bytes16}
  {owner : Address} {nonce : Bytes32} {sig : List UInt8}

/-- A registration of a handle that is not padded goes through. -/
def AcceptsUnpadded (f : UserFactory) (e : Event) : Prop :=
  Succeeds (f.step e) ∧
    ∃ owner handle nonce sig, e = .addUser owner handle nonce sig ∧ ¬ Padded handle.1

theorem addUser_entered {id : ℕ} (hentered : HandlesEntered f.userStorage)
    (h : f.addUser owner handle nonce sig = .ok (f', id)) : HandlesEntered f'.userStorage := by
  obtain ⟨lower, hlower, -, hstorage⟩ := addUser_eq_ok h
  rw [hstorage]
  refine ⟨Nat.succ_pos _, fun x hx ↦ ?_⟩
  by_cases hnew : x = f.userStorage.userId
  · subst hnew
    exact ⟨lower, by simpa using hlower, by simp⟩
  · have hlt : x < f.userStorage.userId :=
      Nat.lt_of_le_of_ne (Nat.le_of_lt_succ hx.2) hnew
    obtain ⟨lower', hlower', htaken⟩ := hentered.entered x ⟨hx.1, hlt⟩
    refine ⟨lower', by simpa [hnew] using hlower', ?_⟩
    by_cases hsame : lower' = lower
    · simp [hsame]
    · simpa [hsame] using htaken

/-- From unique handles a registration leads to unique handles just when it is of a padded one. -/
theorem addUser_unique_iff {id : ℕ} (hentered : HandlesEntered f.userStorage)
    (hunique : HandlesUnique f.userStorage)
    (h : f.addUser owner handle nonce sig = .ok (f', id)) :
    HandlesUnique f'.userStorage ↔ Padded handle.1 := by
  obtain ⟨lower, hlower, hfree, hstorage⟩ := addUser_eq_ok h
  rw [hstorage]
  constructor
  · intro hafter
    have hnew := hafter.wellFormed f.userStorage.userId ⟨hentered.positive, Nat.lt_succ_self _⟩
    simpa using hnew.padded
  · intro hpadded
    have hold : ∀ x, Registered f.userStorage x → (name handle.1).map lowerChar
        ≠ (name (f.userStorage.userHandles x).1).map lowerChar := by
      intro x hx heq
      obtain ⟨lower', hlower', htaken⟩ := hentered.entered x hx
      have hsame := toLower_eq_of_padded hpadded (hunique.wellFormed x hx).padded heq hlower
        hlower'
      rw [← hsame, hfree] at htaken
      cases htaken
    have hcases : ∀ x, Registered { f'.userStorage with userId := f.userStorage.userId + 1 } x →
        x ≠ f.userStorage.userId → Registered f.userStorage x :=
      fun x hx hne ↦ ⟨hx.1, Nat.lt_of_le_of_ne (Nat.le_of_lt_succ hx.2) hne⟩
    refine ⟨fun x hx ↦ ?_, fun x y hx hy hne ↦ ?_⟩
    · by_cases hnew : x = f.userStorage.userId
      · subst hnew
        simpa using (⟨hpadded, (toLower_eq_ok hlower).1⟩ : WellFormed handle.1)
      · simpa [hnew] using hunique.wellFormed x (hcases x hx hnew)
    · by_cases hnew : x = f.userStorage.userId
      · subst hnew
        simpa [Ne.symm hne] using hold y (hcases y hy (Ne.symm hne))
      · by_cases hnew' : y = f.userStorage.userId
        · subst hnew'
          simpa [hne] using (hold x (hcases x hx hne)).symm
        · simpa [hnew, hnew'] using
            hunique.distinct x y (hcases x hx hnew) (hcases y hy hnew') hne

theorem step_entered (hentered : HandlesEntered f.userStorage) (h : f.step e = .ok f') :
    HandlesEntered f'.userStorage := by
  cases e with
  | addUser owner handle nonce sig =>
    obtain ⟨⟨f'', id⟩, hadd, rfl⟩ := map_eq_ok.mp h
    exact addUser_entered hentered hadd
  | request digest signer =>
    rw [burnSignatureDigest_eq_ok h]
    exact hentered

/-- In a run of any newly deployed factory all accepted handles are well-formed and unique at all
times just when no handle is accepted that is empty or has something behind its first zero. -/
theorem handles_unique_iff {self registryAddress : Address} {networkId : ℕ} {es : List Event}
    (h : initialStorage self registryAddress networkId = .ok start) :
    (∀ fs, fs <+: es → HandlesUnique (replay step start fs).userStorage) ↔
      Along step (fun f e ↦ ¬ AcceptsUnpadded f e) start es := by
  unfold initialStorage at h
  simp only [↓require_bind_eq_ok, pure_eq_ok] at h
  obtain ⟨-, rfl⟩ := h
  have hnone : ∀ id, ¬ Registered UserStorage.initialStorage id :=
    fun id hid ↦ absurd (Nat.lt_of_lt_of_le hid.2 hid.1) (Nat.lt_irrefl id)
  apply prefixes_iff_along_of_ok (W := fun f : UserFactory ↦ HandlesEntered f.userStorage)
    (P := fun f ↦ HandlesUnique f.userStorage) (fun _ _ _ ↦ step_entered)
  · intro f e f' hentered hunique hstep
    cases e with
    | addUser owner handle nonce sig =>
      obtain ⟨⟨f'', id⟩, hadd, rfl⟩ := map_eq_ok.mp hstep
      rw [addUser_unique_iff hentered hunique hadd]
      constructor
      · rintro hpadded ⟨-, owner', handle', nonce', sig', heq, hunpadded⟩
        cases heq
        exact hunpadded hpadded
      · intro hrefused
        by_contra hunpadded
        exact hrefused ⟨⟨_, hstep⟩, owner, handle, nonce, sig, rfl, hunpadded⟩
    | request digest signer =>
      rw [burnSignatureDigest_eq_ok hstep]
      refine iff_of_true hunique ?_
      rintro ⟨-, owner, handle, nonce, sig, heq, -⟩
      cases heq
  · exact fun f e hreverts haccepts ↦ hreverts haccepts.1
  · exact ⟨Nat.one_pos, fun id hid ↦ absurd hid (hnone id)⟩
  · exact ⟨fun id hid ↦ absurd hid (hnone id), fun id _ hid ↦ absurd hid (hnone id)⟩

end Registrations

/-! ### A small factory -/

namespace HandleScenario

/-- Terms spelled out as digests; every signature is of account 100. -/
scoped instance signing : HandleSigning where
  Digest := List ℕ
  decEq := inferInstance
  keccak256
    | .domain _ _ chainId verifyingContract => [0, chainId, verifyingContract.val.val]
    | .addUserRequest handle nonce => 1 :: nonce :: handle.1.map UInt8.toNat
    | .typedData domainSeparator requestHash => requestHash ++ domainSeparator
    | .burned signatureDigest sender => 2 :: sender.val.val :: signatureDigest
  recover _ _ := .ok 100

/-- The factory after deployment. -/
def deployed : UserFactory := valueOf (initialStorage 1 2 3) rfl

/-- `Alice`, padded with zeros. -/
def alice : Bytes16 := ⟨[65, 108, 105, 99, 101] ++ List.replicate 11 0, rfl⟩

/-- `alice`, a zero, and a byte behind it. -/
def impostor : Bytes16 := ⟨[97, 108, 105, 99, 101, 0, 1] ++ List.replicate 9 0, rfl⟩

/-- Both registered. -/
def both : List Event := [.addUser 100 alice 0 [], .addUser 100 impostor 1 []]

end HandleScenario

open HandleScenario in
/-- Two users read alike. -/
theorem handles_read_alike : ¬ ∀ (start : UserFactory) (es : List Event),
    initialStorage 1 2 3 = .ok start → HandlesUnique (replay step start es).userStorage := by
  intro h
  have hunique := h deployed both rfl
  refine hunique.distinct 1 2 ?_ ?_ (by decide) ?_
  · constructor <;> decide +kernel
  · constructor <;> decide +kernel
  · decide +kernel

open HandleScenario in
theorem handles_unique_iff_alice :
    (∀ fs, fs <+: [.addUser 100 alice 0 []] →
        HandlesUnique (replay step deployed fs).userStorage) ↔
      Along step (fun f e ↦ ¬ AcceptsUnpadded f e) deployed [.addUser 100 alice 0 []] :=
  handles_unique_iff (rfl : initialStorage 1 2 3 = .ok deployed)

end UserFactory

end ColivingSpec
