import ColivingSpec.Eth.Word
import ColivingSpec.Lib.Replay

/-!
# Replica sets on chain

`UserReplicaSetManager.sol` with the signing base it inherits: the content nodes known to
the contract, the replica set of each user, and the signed requests that change them.
Hashing and signature recovery are parameters, what is hashed is kept as a term. The
contract is taken wired to one registry; events are not modelled, no function reads them.
-/

namespace ColivingSpec

open Lib

/-! ### Signatures -/

/-- What `keccak256` is applied to, one constructor for each `abi.encode`. -/
inductive Encoded (Digest : Type) where
  | domain (name version : String) (chainId : ℕ) (verifyingContract : Address)
  | ids (l : List ℕ)
  | proposeAddOrUpdateContentNode (cnodeSpId : ℕ) (delegateOwnerWallet ownerWallet : Address)
      (proposerSpId : ℕ) (nonce : Bytes32)
  | updateReplicaSet (userId primaryId : ℕ) (secondaryIdsHash : Digest) (oldPrimaryId : ℕ)
      (oldSecondaryIdsHash : Digest) (nonce : Bytes32)
  | typedData (domainSeparator requestHash : Digest)
  | burned (signatureDigest : Digest) (sender : Address)

/-- The hash, and `ECDSA.recover`. -/
class Signing where
  Digest : Type
  decEq : DecidableEq Digest
  keccak256 : Encoded Digest → Digest
  recover : Digest → List UInt8 → Except String Address

instance [Signing] : DecidableEq Signing.Digest := Signing.decEq

/-- A digest has one signer, whatever signature it is recovered from. -/
def UniqueSigners [Signing] : Prop :=
  ∀ (digest : Signing.Digest) (sig sig' : List UInt8) (a a' : Address),
    Signing.recover digest sig = .ok a → Signing.recover digest sig' = .ok a' → a = a'

/-! ### Storage -/

/-- `UserReplicaSetManager.sol:23–26`. -/
structure ContentNodeWallets where
  ownerWallet : Address
  delegateOwnerWallet : Address

/-- `UserReplicaSetManager.sol:34–37`. -/
structure ReplicaSet where
  primaryId : ℕ
  secondaryIds : List ℕ
  deriving DecidableEq

/-- `UserReplicaSetManager.sol:12–43` and `SigningLogicInitializable.sol:18–22`. -/
structure UserReplicaSetManager [Signing] where
  registry : Address
  userFactoryRegistryKey : Bytes32
  userReplicaSetBootstrapAddress : Address
  spIdToContentNodeWallets : ℕ → ContentNodeWallets
  userReplicaSets : ℕ → ReplicaSet
  seedComplete : Bool
  domainSeparator : Signing.Digest
  usedSignatures : Signing.Digest → Bool

/-- The wallet of a user, in the factory that a registry gives for a key. -/
structure UserWallets where
  getUser : Address → Bytes32 → ℕ → Except String Address

/-- One of the three proposers of a content node. -/
structure Proposer where
  spId : ℕ
  nonce : Bytes32
  sig : List UInt8

/-- Arguments of `addOrUpdateContentNode`. -/
structure ContentNodeProposal where
  cnodeSpId : ℕ
  delegateOwnerWallet : Address
  ownerWallet : Address
  proposer1 : Proposer
  proposer2 : Proposer
  proposer3 : Proposer

/-- Arguments of `updateReplicaSet`. -/
structure ReplicaSetUpdate where
  userId : ℕ
  primaryId : ℕ
  secondaryIds : List ℕ
  oldPrimaryId : ℕ
  oldSecondaryIds : List ℕ
  requestNonce : Bytes32
  subjectSig : List UInt8

namespace UserReplicaSetManager

variable [Signing]

/-- `UserReplicaSetManager.sol:72–94`, by the contract at `self`. -/
def initialStorage (self registryAddress : Address) (userFactoryRegistryKey : Bytes32)
    (userReplicaSetBootstrapAddress : Address) (networkId : ℕ) :
    Except String UserReplicaSetManager := do
  require (registryAddress ≠ 0) "Requires non-zero _registryAddress and registryKey"
  return {
    registry := registryAddress
    userFactoryRegistryKey
    userReplicaSetBootstrapAddress
    spIdToContentNodeWallets := fun _ ↦ ⟨0, 0⟩
    userReplicaSets := fun _ ↦ ⟨0, []⟩
    seedComplete := false
    domainSeparator :=
      Signing.keccak256 (.domain "User Replica Set Manager" "1" networkId self)
    usedSignatures := fun _ ↦ false }

/-! ### Requests -/

/-- `SigningLogicInitializable.sol:53–55`. -/
def generateSchemaHash (requestHash : Signing.Digest) (m : UserReplicaSetManager) :
    Signing.Digest :=
  Signing.keccak256 (.typedData m.domainSeparator requestHash)

/-- `SigningLogicInitializable.sol:57–61`. -/
def recoverSigner (digest : Signing.Digest) (sig : List UInt8) : Except String Address := do
  let signer ← Signing.recover digest sig
  require (signer ≠ 0) "Signer cannot be contract creation address"
  return signer

/-- `SigningLogicInitializable.sol:47–51`. -/
def burnSignatureDigest (signatureDigest : Signing.Digest) (sender : Address)
    (m : UserReplicaSetManager) : Except String UserReplicaSetManager := do
  let txDataHash := Signing.keccak256 (.burned signatureDigest sender)
  require (m.usedSignatures txDataHash = false) "Signature not unique"
  return { m with usedSignatures := Function.update m.usedSignatures txDataHash true }

/-- Recover the signer of a digest and burn the digest for it, the end of both recover
helpers, `UserReplicaSetManager.sol:403–405` and `UserReplicaSetManager.sol:431–433`. -/
def recoverAndBurn (signatureDigest : Signing.Digest) (sig : List UInt8)
    (m : UserReplicaSetManager) : Except String (UserReplicaSetManager × Address) := do
  let signer ← recoverSigner signatureDigest sig
  let m ← m.burnSignatureDigest signatureDigest signer
  return (m, signer)

/-- Digest of `UserReplicaSetManager.sol:391–402`. -/
def proposalDigest (p : ContentNodeProposal) (proposer : Proposer) (m : UserReplicaSetManager) :
    Signing.Digest :=
  m.generateSchemaHash (Signing.keccak256 (.proposeAddOrUpdateContentNode p.cnodeSpId
    p.delegateOwnerWallet p.ownerWallet proposer.spId proposer.nonce))

/-- Digest of `UserReplicaSetManager.sol:418–430`. -/
def updateDigest (u : ReplicaSetUpdate) (m : UserReplicaSetManager) : Signing.Digest :=
  m.generateSchemaHash (Signing.keccak256 (.updateReplicaSet u.userId u.primaryId
    (Signing.keccak256 (.ids u.secondaryIds)) u.oldPrimaryId
    (Signing.keccak256 (.ids u.oldSecondaryIds)) u.requestNonce))

/-! ### Operations -/

variable (m : UserReplicaSetManager)

/-- `UserReplicaSetManager.sol:465–467`. -/
def _requireSeed : Except String Unit :=
  require (m.seedComplete = true) "Must be initialized"

/-- Record the wallets of a content node. -/
def setContentNodeWallets (spId : ℕ) (wallets : ContentNodeWallets) (m : UserReplicaSetManager) :
    UserReplicaSetManager :=
  { m with spIdToContentNodeWallets := Function.update m.spIdToContentNodeWallets spId wallets }

/-- `UserReplicaSetManager.sol:100–133`. -/
def seedBootstrapNodes (sender : Address) (bootstrapSPIds : List ℕ)
    (bootstrapNodeDelegateWallets bootstrapNodeOwnerWallets : List Address)
    (m : UserReplicaSetManager) : Except String UserReplicaSetManager := do
  require (sender = m.userReplicaSetBootstrapAddress)
    "Only callable by userReplicaSetBootstrapAddress"
  require (m.seedComplete = false) "Seed operation already completed"
  require (bootstrapSPIds.length = bootstrapNodeDelegateWallets.length ∧
    bootstrapSPIds.length = bootstrapNodeOwnerWallets.length) "Mismatched bootstrap array lengths"
  let nodes := bootstrapSPIds.zip (bootstrapNodeDelegateWallets.zip bootstrapNodeOwnerWallets)
  let seeded := nodes.foldl
    (fun m node ↦ m.setContentNodeWallets node.1 ⟨node.2.2, node.2.1⟩) m
  return { seeded with seedComplete := true }

/-- `UserReplicaSetManager.sol:151–230`. -/
def addOrUpdateContentNode (p : ContentNodeProposal) (m : UserReplicaSetManager) :
    Except String UserReplicaSetManager := do
  m._requireSeed
  let (m, wallet1) ← m.recoverAndBurn (m.proposalDigest p p.proposer1) p.proposer1.sig
  let (m, wallet2) ← m.recoverAndBurn (m.proposalDigest p p.proposer2) p.proposer2.sig
  let (m, wallet3) ← m.recoverAndBurn (m.proposalDigest p p.proposer3) p.proposer3.sig
  require (wallet1 ≠ wallet2 ∧ wallet1 ≠ wallet3 ∧ wallet2 ≠ wallet3)
    "Distinct proposer delegateOwnerWallets required"
  let known1 := m.spIdToContentNodeWallets p.proposer1.spId
  let known2 := m.spIdToContentNodeWallets p.proposer2.spId
  let known3 := m.spIdToContentNodeWallets p.proposer3.spId
  require (known1.delegateOwnerWallet = wallet1)
    "Invalid delegateOwnerWallet provided for 1st proposer"
  require (known2.delegateOwnerWallet = wallet2)
    "Invalid delegateOwnerWallet provided for 2nd proposer"
  require (known3.delegateOwnerWallet = wallet3)
    "Invalid delegateOwnerWallet provided for 3rd proposer"
  require (known1.ownerWallet ≠ known2.ownerWallet ∧ known2.ownerWallet ≠ known3.ownerWallet ∧
    known1.ownerWallet ≠ known3.ownerWallet) "Distinct proposer ownerWallets required"
  return m.setContentNodeWallets p.cnodeSpId ⟨p.ownerWallet, p.delegateOwnerWallet⟩

/-- The loop of `UserReplicaSetManager.sol:453–461` over arrays of one length. -/
def compareSecondaries (signer : Address) (m : UserReplicaSetManager) :
    List ℕ → List ℕ → Bool → Except String Bool
  | stored :: storedIds, old :: oldIds, senderFound => do
    require (stored = old) "Invalid prior secondary configuration"
    m.compareSecondaries signer storedIds oldIds
      (senderFound || signer = (m.spIdToContentNodeWallets old).delegateOwnerWallet)
  | _, _, senderFound => .ok senderFound

/-- `UserReplicaSetManager.sol:439–463`. -/
def _compareUserSecondariesAndCheckSender (userId : ℕ) (oldSecondaryIds : List ℕ)
    (signer : Address) (senderFound : Bool) (m : UserReplicaSetManager) : Except String Bool := do
  require (oldSecondaryIds.length = (m.userReplicaSets userId).secondaryIds.length)
    "Invalid prior secondary configuration"
  m.compareSecondaries signer (m.userReplicaSets userId).secondaryIds oldSecondaryIds senderFound

/-- The loop of `UserReplicaSetManager.sol:305–310`. -/
def requireSecondaries (m : UserReplicaSetManager) : List ℕ → Except String Unit
  | [] => .ok ()
  | id :: rest => do
    require ((m.spIdToContentNodeWallets id).delegateOwnerWallet ≠ 0) "Secondary must exist"
    m.requireSecondaries rest

/-- An element of an array; the access reverts past its end. -/
def elementAt (l : List ℕ) (i : ℕ) : Except String ℕ :=
  match l[i]? with
  | some id => .ok id
  | none => .error "Panic(0x32)"

/-- The condition of `UserReplicaSetManager.sol:315–320`, evaluated from left to right. -/
def distinctReplicas (primaryId : ℕ) (secondaryIds : List ℕ) : Except String Bool := do
  let secondary1 ← elementAt secondaryIds 0
  if primaryId = secondary1 then return false
  let secondary2 ← elementAt secondaryIds 1
  return primaryId ≠ secondary2 ∧ secondary1 ≠ secondary2

/-- `UserReplicaSetManager.sol:248–329`. -/
def updateReplicaSet (users : UserWallets) (u : ReplicaSetUpdate) (m : UserReplicaSetManager) :
    Except String UserReplicaSetManager := do
  m._requireSeed
  let (m, signer) ← m.recoverAndBurn (m.updateDigest u) u.subjectSig
  let userWallet ← users.getUser m.registry m.userFactoryRegistryKey u.userId
  require (userWallet ≠ 0) "Valid user required"
  let validUpdater : Bool := signer = userWallet ∨
    signer = (m.spIdToContentNodeWallets u.oldPrimaryId).delegateOwnerWallet ∨
    signer = m.userReplicaSetBootstrapAddress
  require ((m.userReplicaSets u.userId).primaryId = u.oldPrimaryId)
    "Invalid prior primary configuration"
  let validUpdater ← m._compareUserSecondariesAndCheckSender u.userId u.oldSecondaryIds signer
    validUpdater
  require (validUpdater = true) "Invalid update operation"
  require ((m.spIdToContentNodeWallets u.primaryId).delegateOwnerWallet ≠ 0) "Primary must exist"
  m.requireSecondaries u.secondaryIds
  let distinct ← distinctReplicas u.primaryId u.secondaryIds
  require (distinct = true)
    "Distinct replica IDs expected for primary, secondary1, secondary2"
  return { m with
    userReplicaSets :=
      Function.update m.userReplicaSets u.userId ⟨u.primaryId, u.secondaryIds⟩ }

/-- `UserReplicaSetManager.sol:334–344`. -/
def updateUserReplicaBootstrapAddress (sender newBootstrapAddress : Address)
    (m : UserReplicaSetManager) : Except String UserReplicaSetManager := do
  m._requireSeed
  require (sender = m.userReplicaSetBootstrapAddress)
    "Invalid sender, expect current userReplicaSetBootstrapAddress"
  return { m with userReplicaSetBootstrapAddress := newBootstrapAddress }

/-! ### Runs -/

/-- The external functions that change storage. -/
inductive Operation where
  | seedBootstrapNodes (spIds : List ℕ) (delegateWallets ownerWallets : List Address)
  | addOrUpdateContentNode (p : ContentNodeProposal)
  | updateReplicaSet (u : ReplicaSetUpdate)
  | updateUserReplicaBootstrapAddress (newBootstrapAddress : Address)

/-- A transaction, with the users there are when it runs. -/
structure Transaction where
  sender : Address
  users : UserWallets
  operation : Operation

/-- One transaction. -/
def step (t : Transaction) : Except String UserReplicaSetManager :=
  match t.operation with
  | .seedBootstrapNodes spIds delegateWallets ownerWallets =>
    m.seedBootstrapNodes t.sender spIds delegateWallets ownerWallets
  | .addOrUpdateContentNode p => m.addOrUpdateContentNode p
  | .updateReplicaSet u => m.updateReplicaSet t.users u
  | .updateUserReplicaBootstrapAddress a => m.updateUserReplicaBootstrapAddress t.sender a

/-- The digests of the requests a transaction carries. -/
def requestDigests (t : Transaction) : List Signing.Digest :=
  match t.operation with
  | .addOrUpdateContentNode p =>
    [m.proposalDigest p p.proposer1, m.proposalDigest p p.proposer2,
      m.proposalDigest p p.proposer3]
  | .updateReplicaSet u => [m.updateDigest u]
  | _ => []

/-- How often a transaction, when it takes effect, carries the digest. -/
def acceptances (digest : Signing.Digest) (m : UserReplicaSetManager) (t : Transaction) : ℕ :=
  if (m.step t).isOk then (m.requestDigests t).count digest else 0

end UserReplicaSetManager

/-! ### A small contract -/

namespace UserReplicaSetManager.Scenario

/-- An account written as a number. -/
def account (n : ℕ) : Address := OfNat.ofNat n

/-- Terms spelled out as digests. A user's requests are signed by the user's wallet,
a proposer's by its wallet, and `[27]` is the one valid signature of each. -/
scoped instance signing : Signing where
  Digest := List ℕ
  decEq := inferInstance
  keccak256
    | .domain _ _ chainId verifyingContract => [0, chainId, verifyingContract.val.val]
    | .ids l => 1 :: l
    | .proposeAddOrUpdateContentNode cnodeSpId delegateOwnerWallet ownerWallet proposerSpId nonce =>
      [2, proposerSpId, cnodeSpId, delegateOwnerWallet.val.val, ownerWallet.val.val, nonce]
    | .updateReplicaSet userId primaryId secondaryIdsHash oldPrimaryId oldSecondaryIdsHash nonce =>
      [3, userId, primaryId, oldPrimaryId, nonce, secondaryIdsHash.length] ++ secondaryIdsHash
        ++ oldSecondaryIdsHash
    | .typedData domainSeparator requestHash => requestHash ++ domainSeparator
    | .burned signatureDigest sender => 5 :: sender.val.val :: signatureDigest
  recover digest sig :=
    match digest with
    | 2 :: proposerSpId :: _ =>
      if sig = [27] then .ok (account (200 + proposerSpId)) else .error "ECDSA: invalid signature"
    | 3 :: userId :: _ =>
      if sig = [27] then .ok (account (100 + userId)) else .error "ECDSA: invalid signature"
    | _ => .error "ECDSA: invalid signature"

theorem uniqueSigners : UniqueSigners := by
  intro digest sig sig' a a' h h'
  simp only [Signing.recover] at h h'
  split at h
  · grind
  · grind
  · cases h

/-- Wallets of the users. -/
def users : UserWallets := ⟨fun _ _ userId ↦ .ok (account (100 + userId))⟩

/-- The contract after initialisation. -/
def start : UserReplicaSetManager :=
  valueOf (initialStorage (account 1) (account 2) 0 (account 3) 1) rfl

/-- Three nodes seeded. -/
def seeded : Transaction :=
  ⟨account 3, users, .seedBootstrapNodes [1, 2, 3] [account 201, account 202, account 203]
    [account 301, account 302, account 303]⟩

/-- The first replica set of user 7, chosen by the user. -/
def firstUpdate : ReplicaSetUpdate := ⟨7, 1, [2, 3], 0, [], 0, [27]⟩

end UserReplicaSetManager.Scenario

end ColivingSpec
