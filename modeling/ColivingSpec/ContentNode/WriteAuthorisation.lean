import ColivingSpec.ContentNode.SessionManager
import Mathlib.Algebra.Ring.Int.Defs
import Mathlib.Algebra.Ring.Nat

/-!
# Whose writes a node lets through

`authMiddleware` finds the user of a session, and `ensurePrimaryMiddleware` asks the chain whether
this node is the user's primary (middlewares.js). The user id that is looked up in the blacklist and
on the chain comes with the request. Only where a request has none is the id of a `ColivingUser` row
taken in its place.
-/

namespace ColivingSpec

open Lib List Option

namespace WriteAuthorisation

/-! ### What the middlewares read -/

/-- A row of the table of users (models/cNodeUser.js). -/
structure CNodeUser where
  cnodeUserUUID : String
  walletPublicKey : String
deriving DecidableEq

/-- A row of the table of profiles (models/colivingsUser.js). -/
structure ColivingUser where
  cnodeUserUUID : String
  blockchainId : ℤ
deriving DecidableEq

/-- The tables, with their rows as queries find them, and the keys of Redis. -/
structure Database where
  store : Sessions.Store
  CNodeUsers : List CNodeUser
  ColivingUsers : List ColivingUser

/-- A user id: the text of the header, or the number that `parseInt` makes of an id. -/
inductive UserId where
  | header (text : String)
  | parsed (blockchainId : ℤ)
deriving DecidableEq

/-- Neither an empty text nor zero. -/
def UserId.truthy : UserId → Bool
  | .header text => text ≠ ""
  | .parsed blockchainId => blockchainId ≠ 0

/-- The id of a profile, in decimal digits where it is a text. -/
def UserId.Names (blockchainId : ℤ) : UserId → Prop
  | .header text => text = toString blockchainId
  | .parsed number => number = blockchainId

/-- What JavaScript and web3 make of user ids and of block numbers: the text of a number, the
argument that a call is given, and the block it reads when another is the latest. Numbers that are
not safe integers are refused as arguments. -/
structure Web3 (β : Type) where
  numberText : ℤ → String
  encode : UserId → Option ℕ
  blockAt : β → ℕ → Option ℕ
  numberText_eq : ∀ n : ℤ, n.natAbs < 2 ^ 53 → numberText n = toString n
  encode_header : ∀ (n : ℤ) (user : ℕ), encode (.header (toString n)) = some user → (user : ℤ) = n
  encode_parsed : ∀ (n : ℤ) (user : ℕ), encode (.parsed n) = some user →
    (user : ℤ) = n ∧ n.natAbs < 2 ^ 53

/-- The headers, and the block number of the body unless that is falsy. -/
structure Request (β : Type) where
  sessionToken : Option String
  userId : Option String
  blockNumber : Option β

/-- Of one user. -/
structure ReplicaSet where
  primaryId : ℕ
  secondaryIds : List ℕ
deriving DecidableEq

/-- What the chain says in each block about each user. -/
abbrev Chain := ℕ → ℕ → ReplicaSet

/-- How the node's reads end, and when the provider answers, with its latest block at each retry. -/
structure Provider where
  readRedis : Lib.Outcome
  readDB : Lib.Outcome
  answers : ℕ → Bool
  latest : ℕ → ℕ

/-- The session of a request (lines 81–87, 176–177), with the retry at which the chain answered. -/
structure Session where
  cnodeUser : CNodeUser
  cnodeUserUUID : String
  userId : Option UserId
  replicaSetSpIDs : List ℕ
  retry : ℕ

/-- A value that has to be there. -/
def orReject {α : Type} (value : Option α) (reason : String) : Except String α :=
  value.elim (.error reason) .ok

variable {β : Type} (web3 : Web3 β) (db : Database) (provider : Provider) (chain : Chain)
  (blacklist : List ℕ) (selfSpID : ℕ) (request : Request β)

/-! ### Authentication -/

/-- The text that is looked up in Redis. -/
def UserId.text : UserId → String
  | .header text => text
  | .parsed number => web3.numberText number

/-- `userIdIsInBlacklist` (blacklistManager.js, lines 606–608) on the ids of the set. -/
def userIdIsInBlacklist (userId : Option UserId) : Bool :=
  userId.any fun userId ↦ blacklist.any fun id ↦ toString (id : ℤ) == userId.text web3

/-- The user id of a request (lines 60–73). -/
def userIdOf (cnodeUserUUID : String) : Option UserId :=
  match request.userId.filter (· ≠ "") with
  | some text => some (.header text)
  | none =>
    (db.ColivingUsers.find? fun row ↦ row.cnodeUserUUID == cnodeUserUUID).map fun row ↦
      .parsed row.blockchainId

/-- `verifySession` of the manager of sessions, which may throw. -/
def verified (sessionToken : String) : Except String (Option String) :=
  (Effectful.runOn (Sessions.verifySession sessionToken provider.readRedis provider.readDB)
    db.store).1

/-- `authMiddleware` (lines 25–89). -/
def authMiddleware : Except String Session := do
  let sessionToken ← orReject (request.sessionToken.filter (· ≠ ""))
    "Authentication token not provided"
  let session ← verified db provider sessionToken
  let cnodeUserUUID ← orReject (session.filter (· ≠ "")) "Invalid authentication token"
  let cnodeUser ← orReject (db.CNodeUsers.find? fun row ↦ row.cnodeUserUUID == cnodeUserUUID)
    "No node user exists for provided authentication token"
  let userId := userIdOf db request cnodeUserUUID
  require (!userIdIsInBlacklist web3 blacklist userId) "User not allowed to make changes on node"
  return ⟨cnodeUser, cnodeUserUUID, userId, [], 0⟩

/-! ### The replica set -/

variable (userId : UserId)

/-- `getUserReplicaSet` (UserReplicaSetManagerClient.ts, lines 105–114) at a retry. -/
def getUserReplicaSet (retry : ℕ) : Option ReplicaSet :=
  if provider.answers retry then
    (web3.encode userId).map (chain (provider.latest retry))
  else none

/-- The block that a call at the block number reads at a retry. -/
def blockRead (blockNumber : β) (retry : ℕ) : Option ℕ :=
  if provider.answers retry then web3.blockAt blockNumber (provider.latest retry) else none

/-- `getUserReplicaSetAtBlockNumber` (UserReplicaSetManagerClient.ts, lines 121–130). -/
def getUserReplicaSetAtBlockNumber (blockNumber : β) (retry : ℕ) : Option ReplicaSet := do
  let block ← blockRead web3 provider blockNumber retry
  (web3.encode userId).map (chain block)

/-- The retries of a loop, from one on. -/
def retries (MAX_RETRIES : ℕ) : List ℕ := List.range' 1 MAX_RETRIES

/-- The first retry that is answered (lines 754–779). -/
def pollUntilIndexed (call : ℕ → Option ReplicaSet) : Option (ℕ × ReplicaSet) :=
  (retries 201).findSome? fun retry ↦ (call retry).map fun replicaSet ↦ (retry, replicaSet)

/-- The first retry that answers with the primary, or else the last that answers (lines 806–833). -/
def pollUntilPrimary (call : ℕ → Option ReplicaSet) :
    List ℕ → Option (ℕ × ReplicaSet) → Option (ℕ × ReplicaSet)
  | [], last => last
  | retry :: rest, last =>
    match call retry with
    | some replicaSet =>
      if replicaSet.primaryId = selfSpID then some (retry, replicaSet)
      else pollUntilPrimary call rest (some (retry, replicaSet))
    | none => pollUntilPrimary call rest last

/-- The replica set that `getReplicaSetSpIDs` goes on with (lines 737–867), and its retry. -/
def pollReplicaSet (blockNumber : Option β) (ensurePrimary : Bool) :
    Except String (ℕ × ReplicaSet) :=
  match blockNumber with
  | some blockNumber =>
    orReject (pollUntilIndexed
        (getUserReplicaSetAtBlockNumber web3 provider chain userId blockNumber))
      "Web3 provider failed to index target blockNumber"
  | none =>
    orReject
      (if ensurePrimary && selfSpID ≠ 0 then
        pollUntilPrimary selfSpID (getUserReplicaSet web3 provider chain userId) (retries 61) none
      else (getUserReplicaSet web3 provider chain userId 1).map fun replicaSet ↦ (1, replicaSet))
      "Failed to retrieve user from UserReplicaSetManager"

/-- `getReplicaSetSpIDs` (lines 717–879), with the retry that was answered. -/
def getReplicaSetSpIDs (blockNumber : Option β) (ensurePrimary : Bool) :
    Except String (ℕ × List ℕ) := do
  let (retry, replicaSet) ←
    pollReplicaSet web3 provider chain selfSpID userId blockNumber ensurePrimary
  require (replicaSet.primaryId ≠ 0) "Failed to retrieve user from UserReplicaSetManager"
  require (blockNumber.isSome ∨ !ensurePrimary ∨ selfSpID = 0 ∨ replicaSet.primaryId = selfSpID)
    "found different primary for user"
  return (retry, replicaSet.primaryId :: replicaSet.secondaryIds)

/-- `ensurePrimaryMiddleware` (lines 94–199), up to the endpoints of the replica set. -/
def ensurePrimaryMiddleware (session : Session) : Except String Session := do
  require (session.cnodeUser.walletPublicKey ≠ "") "User must be logged in"
  let userId ← orReject (session.userId.filter UserId.truthy)
    "User must specify 'User-Id' request header"
  require (selfSpID ≠ 0) "Node failed to recover its own spID. Cannot validate user write."
  let (retry, replicaSetSpIDs) ←
    getReplicaSetSpIDs web3 provider chain selfSpID userId request.blockNumber true
  require (replicaSetSpIDs.head? = some selfSpID)
    "This node's spID does not match user's primary spID on chain"
  return { session with replicaSetSpIDs, retry }

/-- Both middlewares, one after the other. -/
def authorise : Except String Session := do
  let session ← authMiddleware web3 db provider blacklist request
  ensurePrimaryMiddleware web3 provider chain selfSpID request session

/-! ### What a write needs -/

/-- The profiles that a user has. -/
def profiles (cnodeUserUUID : String) : List ColivingUser :=
  db.ColivingUsers.filter fun row ↦ row.cnodeUserUUID == cnodeUserUUID

/-- One of the stores of sessions has the token for the user. -/
def LiveSession (store : Sessions.Store) (token cnodeUserUUID : String) : Prop :=
  store.redis (Sessions.sessionKey token) = some cnodeUserUUID ∨
    ∃ row ∈ store.SessionTokens, row.token = token ∧ row.cnodeUserUUID = cnodeUserUUID

/-- The id is not on the blacklist, and on the chain as the provider sees it at the retry this node
is its primary. -/
structure MayWrite (retry : ℕ) (blockchainId : ℤ) : Prop where
  notBlacklisted : ∀ id ∈ blacklist, (id : ℤ) ≠ blockchainId
  primary : ∃ user : ℕ, (user : ℤ) = blockchainId ∧
    (chain (provider.latest retry) user).primaryId = selfSpID

/-- A request that is let through has the live session of a user, and each profile of the user may
be written by this node. -/
def Authorised : Prop :=
  ∀ session, authorise web3 db provider chain blacklist selfSpID request = .ok session →
    (∃ token, request.sessionToken = some token ∧
      LiveSession db.store token session.cnodeUserUUID) ∧
    session.cnodeUser ∈ db.CNodeUsers ∧ session.cnodeUser.cnodeUserUUID = session.cnodeUserUUID ∧
    ∀ row ∈ profiles db session.cnodeUserUUID,
      MayWrite provider chain blacklist selfSpID session.retry row.blockchainId

/-! ### When the chain is asked -/

/-- The first retry of the loop that the provider answers, and the block that it reads. -/
def firstIndexed (blockNumber : β) : Option (ℕ × ℕ) :=
  (retries 201).findSome? fun retry ↦
    (blockRead web3 provider blockNumber retry).map fun block ↦ (retry, block)

/-- A retry that can be answered, and the block that it reads. -/
def ReadAt (retry block : ℕ) : Prop :=
  match request.blockNumber with
  | some blockNumber => firstIndexed web3 provider blockNumber = some (retry, block)
  | none => retry ∈ retries 61 ∧ provider.answers retry = true ∧ block = provider.latest retry

/-- The request gets as far as an answer of the chain, about the user that web3 makes of its user
id. -/
structure Asked (cnodeUserUUID : String) (userId : UserId) (user : ℕ) : Prop where
  verified : ∃ token, request.sessionToken = some token ∧ token ≠ "" ∧
    WriteAuthorisation.verified db provider token = .ok (some cnodeUserUUID) ∧ cnodeUserUUID ≠ ""
  cnodeUser : ∃ cnodeUser, db.CNodeUsers.find? (·.cnodeUserUUID == cnodeUserUUID) = some cnodeUser ∧
    cnodeUser.walletPublicKey ≠ ""
  judged : userIdOf db request cnodeUserUUID = some userId ∧ userId.truthy = true
  spID : selfSpID ≠ 0
  encoded : web3.encode userId = some user
  answered : ∃ retry block, ReadAt web3 provider request retry block

/-- The user id names each profile of the user, and a block number of the body names the latest
block. -/
structure Guarded (cnodeUserUUID : String) (userId : UserId) : Prop where
  names : ∀ row ∈ profiles db cnodeUserUUID, userId.Names row.blockchainId
  latest : ∀ retry block, ReadAt web3 provider request retry block → block = provider.latest retry

/-! ### The calls -/

section Calls

variable {web3 db provider chain blacklist selfSpID request}
variable {cnodeUserUUID token : String} {userId : UserId} {user : ℕ}

theorem orReject_eq_ok {α : Type} {value : Option α} {reason : String} {a : α} :
    orReject value reason = .ok a ↔ value = some a := by
  cases value <;> simp [orReject]

theorem orReject_bind_eq_ok {α γ : Type} {value : Option α} {reason : String}
    {f : α → Except String γ} {c : γ} :
    (orReject value reason >>= f) = .ok c ↔ ∃ a, value = some a ∧ f a = .ok c := by
  rw [bind_eq_ok]
  simp only [orReject_eq_ok]

/-- What Redis has for a token, unless the read fails. -/
theorem runOn_getSessionFromRedis (read : Lib.Outcome) (s : Sessions.Store) :
    Effectful.runOn (Sessions.getSessionFromRedis token read) s = match read with
      | .done => (.ok (s.redis (Sessions.sessionKey token)), s)
      | .failed _ => (.error "get", s) := by
  unfold Sessions.getSessionFromRedis
  cases read with
  | done => rfl
  | failed effect => cases effect <;> rfl

/-- A verified token is in one of the stores. -/
theorem live_of_verified (h : verified db provider token = .ok (some cnodeUserUUID)) :
    LiveSession db.store token cnodeUserUUID := by
  unfold verified Sessions.verifySession at h
  rw [Effectful.runOn_bind, runOn_getSessionFromRedis] at h
  cases hread : provider.readRedis with
  | failed effect =>
    rw [hread] at h
    cases h
  | done =>
    rw [hread] at h
    dsimp only at h
    split at h
    · rename_i session hsession
      cases h
      exact .inl (filter_eq_some_iff.mp hsession).1
    · -- the key has no value, so the table is asked
      right
      cases hreadDB : provider.readDB with
      | failed effect =>
        rw [hreadDB] at h
        cases effect <;> cases h
      | done =>
        rw [hreadDB] at h
        have hfind : (db.store.SessionTokens.find? fun session ↦ session.token == token).map
            Sessions.SessionToken.cnodeUserUUID = some cnodeUserUUID := Except.ok.inj h
        obtain ⟨row, hrow, huuid⟩ := map_eq_some_iff.mp hfind
        exact ⟨row, mem_of_find?_eq_some hrow, by simpa using find?_some hrow, huuid⟩

variable {call : ℕ → Option ReplicaSet} {replicaSet : ReplicaSet} {retry : ℕ}
  (last : Option (ℕ × ReplicaSet))

/-- What the loop ends with was answered at that retry, if it was not there before. -/
theorem call_of_pollUntilPrimary (l : List ℕ) (last : Option (ℕ × ReplicaSet))
    (h : pollUntilPrimary selfSpID call l last = some (retry, replicaSet)) :
    retry ∈ l ∧ call retry = some replicaSet ∨ last = some (retry, replicaSet) := by
  induction l generalizing last with
  | nil => exact .inr h
  | cons first rest ih =>
    rw [pollUntilPrimary] at h
    split at h
    · rename_i found hfound
      split at h
      · cases h
        exact .inl ⟨mem_cons_self, hfound⟩
      · rcases ih _ h with ⟨hmem, hcall⟩ | hlast
        · exact .inl ⟨mem_cons_of_mem _ hmem, hcall⟩
        · cases hlast
          exact .inl ⟨mem_cons_self, hfound⟩
    · rcases ih _ h with ⟨hmem, hcall⟩ | hlast
      · exact .inl ⟨mem_cons_of_mem _ hmem, hcall⟩
      · exact .inr hlast

/-- When each answer has the primary and there is one, the loop ends with it. -/
theorem pollUntilPrimary_of_forall (l : List ℕ) (last : Option (ℕ × ReplicaSet))
    (hprimary : ∀ retry ∈ l, ∀ replicaSet, call retry = some replicaSet →
      replicaSet.primaryId = selfSpID) (hanswered : ∃ retry ∈ l, (call retry).isSome) :
    ∃ retry replicaSet, pollUntilPrimary selfSpID call l last = some (retry, replicaSet) ∧
      replicaSet.primaryId = selfSpID := by
  induction l generalizing last with
  | nil =>
    obtain ⟨retry, hmem, _⟩ := hanswered
    cases hmem
  | cons first rest ih =>
    rw [pollUntilPrimary]
    cases hfirst : call first with
    | some replicaSet =>
      have hself := hprimary first mem_cons_self replicaSet hfirst
      dsimp only
      rw [if_pos hself]
      exact ⟨first, replicaSet, rfl, hself⟩
    | none =>
      apply ih
      · exact fun retry hmem ↦ hprimary retry (mem_cons_of_mem _ hmem)
      · obtain ⟨retry, hmem, hsome⟩ := hanswered
        rcases mem_cons.mp hmem with rfl | hrest
        · rw [hfirst] at hsome
          cases hsome
        · exact ⟨retry, hrest, hsome⟩

/-- The loop until a block is indexed ends at the first retry that is answered, whatever the chain
says. -/
theorem pollUntilIndexed_eq (hencoded : web3.encode userId = some user) (blockNumber : β) :
    pollUntilIndexed (getUserReplicaSetAtBlockNumber web3 provider chain userId blockNumber) =
      (firstIndexed web3 provider blockNumber).map fun answer ↦
        (answer.1, chain answer.2 user) := by
  unfold pollUntilIndexed firstIndexed
  rw [map_findSome?]
  congr 1
  funext retry
  simp only [getUserReplicaSetAtBlockNumber, hencoded, Function.comp]
  cases blockRead web3 provider blockNumber retry with
  | none => rfl
  | some block => rfl

/-- Nothing is answered about an argument that web3 refuses. -/
theorem pollUntilIndexed_eq_none (hencoded : web3.encode userId = none) (blockNumber : β) :
    pollUntilIndexed (getUserReplicaSetAtBlockNumber web3 provider chain userId blockNumber) =
      none := by
  apply findSome?_eq_none_iff.mpr
  intro retry _
  simp only [getUserReplicaSetAtBlockNumber, hencoded]
  cases blockRead web3 provider blockNumber retry with
  | none => rfl
  | some block => rfl

theorem getUserReplicaSet_eq_some :
    getUserReplicaSet web3 provider chain userId retry = some replicaSet ↔
      provider.answers retry = true ∧ ∃ user, web3.encode userId = some user ∧
        chain (provider.latest retry) user = replicaSet := by
  unfold getUserReplicaSet
  split
  · rename_i hanswers
    simp [hanswers, map_eq_some_iff]
  · rename_i hanswers
    simp [hanswers]

/-- A replica set that this node is the primary of was read at a retry that can be answered. -/
theorem readAt_of_pollReplicaSet (hself : selfSpID ≠ 0)
    (h : pollReplicaSet web3 provider chain selfSpID userId request.blockNumber true =
      .ok (retry, replicaSet)) :
    ∃ user block, web3.encode userId = some user ∧ ReadAt web3 provider request retry block ∧
      chain block user = replicaSet := by
  unfold ReadAt
  cases hblock : request.blockNumber with
  | some blockNumber =>
    rw [hblock] at h
    have hfound := orReject_eq_ok.mp h
    cases hencoded : web3.encode userId with
    | none =>
      rw [pollUntilIndexed_eq_none hencoded] at hfound
      cases hfound
    | some user =>
      rw [pollUntilIndexed_eq hencoded] at hfound
      obtain ⟨⟨first, block⟩, hfirst, heq⟩ := map_eq_some_iff.mp hfound
      cases heq
      exact ⟨user, block, rfl, hfirst, rfl⟩
  | none =>
    rw [hblock] at h
    have hfound := orReject_eq_ok.mp h
    rw [if_pos (by simp [hself])] at hfound
    rcases call_of_pollUntilPrimary _ _ hfound with ⟨hmem, hcall⟩ | hlast
    · obtain ⟨hanswers, user, hencoded, rfl⟩ := getUserReplicaSet_eq_some.mp hcall
      exact ⟨user, _, hencoded, ⟨hmem, hanswers, rfl⟩, rfl⟩
    · cases hlast

/-- When this node is the primary in every block that may be read, a replica set with it is
found. -/
theorem pollReplicaSet_of_readAt (hself : selfSpID ≠ 0) (hencoded : web3.encode userId = some user)
    (hanswered : ∃ retry block, ReadAt web3 provider request retry block)
    (hprimary : ∀ retry block, ReadAt web3 provider request retry block →
      (chain block user).primaryId = selfSpID) :
    ∃ retry replicaSet,
      pollReplicaSet web3 provider chain selfSpID userId request.blockNumber true =
        .ok (retry, replicaSet) ∧ replicaSet.primaryId = selfSpID := by
  unfold ReadAt at hanswered hprimary
  cases hblock : request.blockNumber with
  | some blockNumber =>
    rw [hblock] at hanswered hprimary
    obtain ⟨retry, block, hfirst⟩ := hanswered
    refine ⟨retry, chain block user, ?_, hprimary retry block hfirst⟩
    apply orReject_eq_ok.mpr
    rw [pollUntilIndexed_eq hencoded, map_eq_some_iff]
    exact ⟨(retry, block), hfirst, rfl⟩
  | none =>
    rw [hblock] at hanswered hprimary
    obtain ⟨first, block, hmem, hanswers, -⟩ := hanswered
    have hcalled : (getUserReplicaSet web3 provider chain userId first).isSome := by
      apply isSome_iff_exists.mpr
      exact ⟨_, getUserReplicaSet_eq_some.mpr ⟨hanswers, user, hencoded, rfl⟩⟩
    have hself' : ∀ retry ∈ retries 61, ∀ replicaSet,
        getUserReplicaSet web3 provider chain userId retry = some replicaSet →
          replicaSet.primaryId = selfSpID := by
      intro retry hretry replicaSet hcall
      obtain ⟨hanswers, user', hencoded', rfl⟩ := getUserReplicaSet_eq_some.mp hcall
      cases hencoded.symm.trans hencoded'
      exact hprimary retry _ ⟨hretry, hanswers, rfl⟩
    obtain ⟨retry, replicaSet, hpolled, hfound⟩ :=
      pollUntilPrimary_of_forall (retries 61) none hself' ⟨first, hmem, hcalled⟩
    refine ⟨retry, replicaSet, orReject_eq_ok.mpr ?_, hfound⟩
    rw [if_pos (by simp [hself]), hpolled]

/-! ### The middlewares -/

/-- A request is let through just when the chain is asked about its user id, which is not on the
blacklist, and answers with this node. -/
theorem asked_of_authorise {session : Session}
    (h : authorise web3 db provider chain blacklist selfSpID request = .ok session) :
    ∃ userId user block,
      Asked web3 db provider selfSpID request session.cnodeUserUUID userId user ∧
      userIdIsInBlacklist web3 blacklist (some userId) = false ∧
      ReadAt web3 provider request session.retry block ∧
      (chain block user).primaryId = selfSpID ∧
      db.CNodeUsers.find? (·.cnodeUserUUID == session.cnodeUserUUID) = some session.cnodeUser := by
  obtain ⟨authenticated, hauth, h⟩ := bind_eq_ok.mp h
  obtain ⟨token, htoken, hauth⟩ := orReject_bind_eq_ok.mp hauth
  obtain ⟨verified, hverified, hauth⟩ := bind_eq_ok.mp hauth
  obtain ⟨cnodeUserUUID, huuid, hauth⟩ := orReject_bind_eq_ok.mp hauth
  obtain ⟨cnodeUser, huser, hauth⟩ := orReject_bind_eq_ok.mp hauth
  obtain ⟨hblacklist, hauth⟩ := require_bind_eq_ok.mp hauth
  cases hauth
  obtain ⟨hwallet, h⟩ := require_bind_eq_ok.mp h
  obtain ⟨userId, hid, h⟩ := orReject_bind_eq_ok.mp h
  obtain ⟨hself, h⟩ := require_bind_eq_ok.mp h
  obtain ⟨⟨retry, spIDs⟩, hspIDs, h⟩ := bind_eq_ok.mp h
  obtain ⟨hhead, h⟩ := require_bind_eq_ok.mp h
  cases h
  obtain ⟨⟨found, replicaSet⟩, hfound, hspIDs⟩ := bind_eq_ok.mp hspIDs
  obtain ⟨-, hspIDs⟩ := require_bind_eq_ok.mp hspIDs
  obtain ⟨-, hspIDs⟩ := require_bind_eq_ok.mp hspIDs
  cases hspIDs
  obtain ⟨user, block, hencoded, hread, rfl⟩ := readAt_of_pollReplicaSet hself hfound
  obtain ⟨htoken, hnonempty⟩ := filter_eq_some_iff.mp htoken
  obtain ⟨rfl, huuid⟩ := filter_eq_some_iff.mp huuid
  obtain ⟨hid, htruthy⟩ := filter_eq_some_iff.mp hid
  refine ⟨userId, user, block, ?_, ?_, hread, some.inj hhead, huser⟩
  · exact {
      verified := ⟨token, htoken, by simpa using hnonempty, hverified, by simpa using huuid⟩
      cnodeUser := ⟨cnodeUser, huser, hwallet⟩
      judged := ⟨hid, htruthy⟩
      spID := hself
      encoded := hencoded
      answered := ⟨_, block, hread⟩ }
  · have hid : userIdOf db request cnodeUserUUID = some userId := hid
    rw [hid] at hblacklist
    simpa using hblacklist

/-- A request about which the chain is asked is let through when its user id is not on the blacklist
and this node is the primary in every block that may be read. -/
theorem authorise_of_asked (h : Asked web3 db provider selfSpID request cnodeUserUUID userId user)
    (hblacklist : userIdIsInBlacklist web3 blacklist (some userId) = false)
    (hprimary : ∀ retry block, ReadAt web3 provider request retry block →
      (chain block user).primaryId = selfSpID) :
    ∃ session, authorise web3 db provider chain blacklist selfSpID request = .ok session ∧
      session.cnodeUserUUID = cnodeUserUUID := by
  obtain ⟨token, htoken, hnonempty, hverified, huuid⟩ := h.verified
  obtain ⟨cnodeUser, huser, hwallet⟩ := h.cnodeUser
  obtain ⟨hid, htruthy⟩ := h.judged
  obtain ⟨retry, replicaSet, hpolled, hfound⟩ :=
    pollReplicaSet_of_readAt h.spID h.encoded h.answered hprimary
  have hauth : authMiddleware web3 db provider blacklist request =
      .ok ⟨cnodeUser, cnodeUserUUID, some userId, [], 0⟩ := by
    apply orReject_bind_eq_ok.mpr
    refine ⟨token, filter_eq_some_iff.mpr ⟨htoken, by simpa using hnonempty⟩, ?_⟩
    apply bind_eq_ok.mpr
    refine ⟨some cnodeUserUUID, hverified, ?_⟩
    apply orReject_bind_eq_ok.mpr
    refine ⟨cnodeUserUUID, filter_eq_some_iff.mpr ⟨rfl, by simpa using huuid⟩, ?_⟩
    apply orReject_bind_eq_ok.mpr
    refine ⟨cnodeUser, huser, ?_⟩
    rw [hid, require_bind_eq_ok]
    exact ⟨by simpa using hblacklist, rfl⟩
  have hspIDs : getReplicaSetSpIDs web3 provider chain selfSpID userId request.blockNumber true =
      .ok (retry, selfSpID :: replicaSet.secondaryIds) := by
    apply bind_eq_ok.mpr
    refine ⟨(retry, replicaSet), hpolled, ?_⟩
    dsimp only
    rw [hfound, require_bind_eq_ok, require_bind_eq_ok]
    exact ⟨h.spID, by simp, rfl⟩
  refine ⟨⟨cnodeUser, cnodeUserUUID, some userId, selfSpID :: replicaSet.secondaryIds, retry⟩, ?_,
    rfl⟩
  apply bind_eq_ok.mpr
  refine ⟨_, hauth, ?_⟩
  unfold ensurePrimaryMiddleware
  rw [require_bind_eq_ok, orReject_bind_eq_ok]
  refine ⟨hwallet, userId, filter_eq_some_iff.mpr ⟨rfl, htruthy⟩, ?_⟩
  rw [require_bind_eq_ok, hspIDs, ok_bind, require_bind_eq_ok]
  exact ⟨h.spID, rfl, rfl⟩

/-! ### Own ids and other ids -/

/-- An id that names a profile is not on the blacklist unless the profile's is. -/
theorem not_mem_blacklist_of_names {blockchainId : ℤ} (hnames : userId.Names blockchainId)
    (hencoded : web3.encode userId = some user)
    (hblacklist : userIdIsInBlacklist web3 blacklist (some userId) = false) :
    (user : ℤ) = blockchainId ∧ ∀ id ∈ blacklist, (id : ℤ) ≠ blockchainId := by
  have htext : (user : ℤ) = blockchainId ∧ userId.text web3 = toString blockchainId := by
    cases userId with
    | header text =>
      cases hnames
      exact ⟨web3.encode_header blockchainId user hencoded, rfl⟩
    | parsed number =>
      cases hnames
      obtain ⟨huser, hsafe⟩ := web3.encode_parsed blockchainId user hencoded
      exact ⟨huser, web3.numberText_eq blockchainId hsafe⟩
  refine ⟨htext.1, ?_⟩
  rintro id hid rfl
  have hfound : userIdIsInBlacklist web3 blacklist (some userId) = true := by
    show blacklist.any _ = true
    rw [List.any_eq_true]
    exact ⟨id, hid, by simp [htext.2]⟩
  rw [hfound] at hblacklist
  cases hblacklist

/-- With nothing on it, the blacklist stops nobody. -/
theorem userIdIsInBlacklist_nil : userIdIsInBlacklist web3 [] (some userId) = false := rfl

/-- An id that does not name a profile, but that web3 reads as the profile's, is not found where
the profile's id is on the blacklist. -/
theorem userIdIsInBlacklist_of_not_names (hnames : ¬ userId.Names (user : ℤ))
    (hencoded : web3.encode userId = some user) :
    userIdIsInBlacklist web3 [user] (some userId) = false := by
  cases userId with
  | header text =>
    have hne : toString (user : ℤ) ≠ text := fun heq ↦ hnames heq.symm
    simpa [userIdIsInBlacklist, UserId.text] using hne
  | parsed number => exact absurd (web3.encode_parsed number user hencoded).1.symm hnames

/-- Where each write is authorised, each profile may be written at the retry of the session,
whatever is on the blacklist and on the chain that lets the request through. -/
theorem mayWrite_of_authorised
    (h : Asked web3 db provider selfSpID request cnodeUserUUID userId user)
    (hall : ∀ blacklist chain, Authorised web3 db provider chain blacklist selfSpID request) :
    ∀ row ∈ profiles db cnodeUserUUID, ∀ blacklist chain,
      userIdIsInBlacklist web3 blacklist (some userId) = false →
      (∀ retry block, ReadAt web3 provider request retry block →
        (chain block user).primaryId = selfSpID) →
      ∃ retry block, ReadAt web3 provider request retry block ∧
        MayWrite provider chain blacklist selfSpID retry row.blockchainId := by
  intro row hrow blacklist chain hblacklist hprimary
  obtain ⟨session, hsession, huuid⟩ := authorise_of_asked h hblacklist hprimary
  obtain ⟨-, -, -, hmayWrite⟩ := hall blacklist chain session hsession
  obtain ⟨-, -, block, -, -, hread, -, -⟩ := asked_of_authorise hsession
  rw [huuid] at hmayWrite
  exact ⟨session.retry, block, hread, hmayWrite row hrow⟩

section Necessary

variable {row : ColivingUser}
  (h : Asked web3 db provider selfSpID request cnodeUserUUID userId user)
  (hmayWrite : ∀ blacklist chain, userIdIsInBlacklist web3 blacklist (some userId) = false →
    (∀ retry block, ReadAt web3 provider request retry block →
      (chain block user).primaryId = selfSpID) →
    ∃ retry block, ReadAt web3 provider request retry block ∧
      MayWrite provider chain blacklist selfSpID retry row.blockchainId)

include h hmayWrite

/-- The chain may have another primary for any other user, and the blacklist may have the user. -/
theorem names_of_mayWrite : userId.Names row.blockchainId := by
  by_contra hnames
  by_cases huser : (user : ℤ) = row.blockchainId
  · rw [← huser] at hnames
    obtain ⟨retry, block, -, hwrite⟩ := hmayWrite [user] (fun _ _ ↦ ⟨selfSpID, []⟩)
      (userIdIsInBlacklist_of_not_names hnames h.encoded) fun _ _ _ ↦ rfl
    exact hwrite.notBlacklisted user mem_cons_self huser
  · obtain ⟨retry, block, -, hwrite⟩ := hmayWrite []
      (fun _ other ↦ ⟨if other = user then selfSpID else 0, []⟩) userIdIsInBlacklist_nil
      fun _ _ _ ↦ if_pos rfl
    obtain ⟨other, hother, hprimary⟩ := hwrite.primary
    have hne : other ≠ user := by
      rintro rfl
      exact huser hother
    rw [if_neg hne] at hprimary
    exact h.spID hprimary.symm

/-- The primary may be another one in every block but the one that is read. -/
theorem latest_of_mayWrite {retry block : ℕ} (hread : ReadAt web3 provider request retry block) :
    block = provider.latest retry := by
  unfold ReadAt at hread
  cases hblock : request.blockNumber with
  | none =>
    rw [hblock] at hread
    exact hread.2.2
  | some blockNumber =>
    rw [hblock] at hread
    obtain ⟨retry', block', hread', hwrite⟩ := hmayWrite []
      (fun other _ ↦ ⟨if other = block then selfSpID else 0, []⟩) userIdIsInBlacklist_nil <| by
        intro retry' block' hread'
        unfold ReadAt at hread'
        rw [hblock] at hread'
        cases hread.symm.trans hread'
        exact if_pos rfl
    unfold ReadAt at hread'
    rw [hblock] at hread'
    cases hread.symm.trans hread'
    obtain ⟨other, -, hprimary⟩ := hwrite.primary
    by_contra hne
    rw [if_neg (Ne.symm hne)] at hprimary
    exact h.spID hprimary.symm

end Necessary

end Calls

/-! ### A header that names another user -/

/-- The number that a text of digits denotes. -/
def decimal (text : String) : Option ℕ :=
  if text ≠ "" ∧ text.toList.all Char.isDigit then some (Nat.ofDigitChars 10 text.toList 0)
  else none

theorem decimal_toString {n : ℤ} {user : ℕ} (h : decimal (toString n) = some user) :
    (user : ℤ) = n := by
  unfold decimal at h
  split at h
  · rename_i hdigits
    cases h
    cases n with
    | ofNat m =>
      have htoList : (toString (Int.ofNat m)).toList = Nat.toDigits 10 m := Nat.toList_repr
      rw [htoList, Nat.ofDigitChars_ten_toDigits]
      rfl
    | negSucc m =>
      have hminus : (toString (Int.negSucc m)).toList = '-' :: (Nat.repr (m + 1)).toList := by
        show ("-" ++ (m + 1).repr).toList = _
        rw [String.toList_append]
        rfl
      rw [hminus] at hdigits
      simp at hdigits
  · cases h

/-- Decimal digits, and the blocks up to the latest. -/
def exampleWeb3 : Web3 ℕ where
  numberText n := toString n
  encode
    | .header text => decimal text
    | .parsed n => if 0 ≤ n ∧ n < 2 ^ 53 then some n.toNat else none
  blockAt block latest := if block ≤ latest then some block else none
  numberText_eq _ _ := rfl
  encode_header _ _ h := decimal_toString h
  encode_parsed n user h := by
    dsimp only at h
    split at h
    · cases h
      omega
    · cases h

/-- A user with a session, whose profile has the id 7. -/
def exampleDatabase : Database where
  store := ⟨[⟨0, "a1", "t1"⟩], [⟨0, "a1", "t1"⟩], fun _ ↦ none⟩
  CNodeUsers := [⟨"a1", "0xa1"⟩]
  ColivingUsers := [⟨"a1", 7⟩]

/-- Every read and every call is answered. -/
def exampleProvider : Provider := ⟨.done, .done, fun _ ↦ true, fun _ ↦ 100⟩

/-- The first content node is the primary of the user 8 alone. -/
def exampleChain : Chain := fun _ user ↦ if user = 8 then ⟨1, [2, 3]⟩ else ⟨2, [1, 3]⟩

/-- The session of one user with the id of another. -/
def exampleRequest : Request ℕ := ⟨some "t1", some "8", none⟩

theorem asked_exampleRequest :
    Asked exampleWeb3 exampleDatabase exampleProvider 1 exampleRequest "a1" (.header "8") 8 where
  verified := ⟨"t1", rfl, by decide, rfl, by decide⟩
  cnodeUser := ⟨⟨"a1", "0xa1"⟩, rfl, by decide⟩
  judged := ⟨rfl, rfl⟩
  spID := by decide
  encoded := by decide +kernel
  answered := ⟨1, 100, by decide, rfl, rfl⟩

end WriteAuthorisation

open WriteAuthorisation in
/-- Whatever the blacklist and the chain say, a request is let through only with a live session
whose profiles this node may write just when, if the request gets as far as an answer of the chain
and its user has profiles, its user id names each of them as the blacklist does, and its body names
no block but the latest one. -/
theorem writes_authorised_iff {β : Type} (web3 : Web3 β) (db : Database) (provider : Provider)
    (selfSpID : ℕ) (request : Request β) :
    (∀ blacklist chain, Authorised web3 db provider chain blacklist selfSpID request) ↔
      ∀ cnodeUserUUID userId user,
        Asked web3 db provider selfSpID request cnodeUserUUID userId user →
          profiles db cnodeUserUUID = [] ∨
            Guarded web3 db provider request cnodeUserUUID userId := by
  constructor
  · intro hall cnodeUserUUID userId user hasked
    by_cases hprofiles : profiles db cnodeUserUUID = []
    · exact .inl hprofiles
    · right
      have hmayWrite := mayWrite_of_authorised hasked hall
      refine ⟨fun row hrow ↦ ?_, fun retry block hread ↦ ?_⟩
      · exact names_of_mayWrite hasked (hmayWrite row hrow)
      · obtain ⟨row, hrow⟩ := List.exists_mem_of_ne_nil _ hprofiles
        exact latest_of_mayWrite hasked (hmayWrite row hrow) hread
  · intro hguarded blacklist chain session hsession
    obtain ⟨userId, user, block, hasked, hblacklist, hread, hprimary, hfind⟩ :=
      asked_of_authorise hsession
    obtain ⟨token, htoken, -, hverified, -⟩ := hasked.verified
    refine ⟨⟨token, htoken, live_of_verified hverified⟩, List.mem_of_find?_eq_some hfind,
      by simpa using List.find?_some hfind, fun row hrow ↦ ?_⟩
    rcases hguarded _ _ _ hasked with hnil | hguarded
    · rw [hnil] at hrow
      cases hrow
    · obtain ⟨huser, hnot⟩ :=
        not_mem_blacklist_of_names (hguarded.names row hrow) hasked.encoded hblacklist
      refine ⟨hnot, user, huser, ?_⟩
      rw [← hguarded.latest _ _ hread]
      exact hprimary

open WriteAuthorisation in
/-- A user's session is let through with another user's id, although this node is not the primary
of the session's user. -/
theorem writes_not_authorised :
    ¬ ∀ (web3 : Web3 ℕ) (db : Database) (provider : Provider) (chain : Chain)
      (blacklist : List ℕ) (selfSpID : ℕ) (request : Request ℕ),
      Authorised web3 db provider chain blacklist selfSpID request := by
  intro hall
  have hlet : ∃ session, authorise exampleWeb3 exampleDatabase exampleProvider exampleChain [] 1
      exampleRequest = .ok session ∧ session.cnodeUserUUID = "a1" :=
    authorise_of_asked asked_exampleRequest rfl fun _ _ _ ↦ rfl
  obtain ⟨session, hsession, huuid⟩ := hlet
  obtain ⟨-, -, -, hmayWrite⟩ := hall _ _ _ _ _ _ _ session hsession
  rw [huuid] at hmayWrite
  obtain ⟨-, user, huser, hprimary⟩ := hmayWrite ⟨"a1", 7⟩ (by decide)
  obtain rfl : user = 7 := by
    have : (user : ℤ) = 7 := huser
    omega
  cases hprimary

end ColivingSpec
