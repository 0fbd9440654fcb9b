import ColivingSpec.Lib.Effectful
import ColivingSpec.Lib.Replay

/-!
# Sessions of a content node

A session is a row of the database and a key of Redis (sessionManager.js). A call that deletes a
session removes both, one after the other, and any operation on the way may fail. Calls come one
after the other; the tokens that `randomBytes` gives are distinct.
-/

namespace ColivingSpec

open Lib

namespace Sessions

open Effectful

/-- A row of the table (models/sessiontoken.js). -/
structure SessionToken where
  id : ℕ
  cnodeUserUUID : String
  token : String
deriving DecidableEq

/-- The two stores that sessions are kept in. -/
structure Store where
  SessionTokens : List SessionToken
  /-- All rows that the table has had, in the order of their ids. -/
  inserted : List SessionToken
  redis : String → Option String

namespace Store

variable (s : Store)

/-- `SessionToken.create`. -/
def create (cnodeUserUUID token : String) : Store :=
  let session := ⟨s.inserted.length, cnodeUserUUID, token⟩
  { s with SessionTokens := s.SessionTokens ++ [session], inserted := s.inserted ++ [session] }

/-- Destroys the rows with one of the ids. -/
def destroy (ids : List ℕ) : Store :=
  { s with SessionTokens := s.SessionTokens.filter fun session ↦ !ids.contains session.id }

/-- `redisClient.set`. -/
def set (key value : String) : Store :=
  { s with redis := fun other ↦ if other = key then some value else s.redis other }

/-- `redisClient.del`, for one key or for those of a transaction. -/
def del (keys : List String) : Store :=
  { s with redis := fun other ↦ if other ∈ keys then none else s.redis other }

end Store

variable (token sessionToken : String)

/-- The key of a session. -/
def sessionKey : String := "SESSION." ++ token

/-- `createSession` (lines 19–27) with the token that is drawn. -/
def createSession (cnodeUserUUID : String) (create set : Lib.Outcome) : Effectful Store String := do
  operate create "create" (·.create cnodeUserUUID token)
  operate set "set" (·.set (sessionKey token) cnodeUserUUID)
  return token

variable (read : Lib.Outcome) (outcomes : TransactionOutcomes) (sessionTokens : List SessionToken)

/-- `_getSessionFromRedis` (lines 72–74). -/
def getSessionFromRedis : Effectful Store (Option String) := do
  operate read "get" id
  return (← get).redis (sessionKey token)

/-- `_getSessionFromDB` (lines 76–85). -/
def getSessionFromDB (throwOnError : Bool) (read : Lib.Outcome) :
    Effectful Store (Option SessionToken) := do
  operate read "findOne" id
  let session := (← get).SessionTokens.find? fun session ↦ session.token == sessionToken
  if throwOnError && session.isNone then throw "Invalid session"
  return session

/-- `verifySession` (lines 30–38); an empty value of a key is no session. -/
def verifySession (readRedis readDB : Lib.Outcome) : Effectful Store (Option String) := do
  match (← getSessionFromRedis sessionToken readRedis).filter fun session ↦ session ≠ "" with
  | some session => return some session
  | none => return (← getSessionFromDB sessionToken false readDB).map SessionToken.cnodeUserUUID

/-- `deleteSession` (lines 40–44). -/
def deleteSession (destroy del : Lib.Outcome) : Effectful Store Unit := do
  let session ← getSessionFromDB sessionToken true read
  operate destroy "destroy" (·.destroy (session.map SessionToken.id).toList)
  operate del "del" (·.del [sessionKey sessionToken])

/-- How the operations of a transaction end: its begin, its query, and its commit or roll-back. -/
structure TransactionOutcomes where
  transaction : Lib.Outcome
  destroy : Lib.Outcome
  finish : Lib.Outcome

/-- `deleteSessionTokensFromDB` (dbManager.js, lines 173–204) in a transaction of its own. An error
of the query is caught, and nothing throws it again after the roll-back. -/
def deleteSessionTokensFromDB (outcomes : TransactionOutcomes) :
    Effectful Store Unit := do
  operate outcomes.transaction "transaction" id
  match outcomes.destroy with
  | .failed _ => operate outcomes.finish "rollback" id
  | .done => operate outcomes.finish "commit" (·.destroy (sessionTokens.map SessionToken.id))

/-- `deleteSessions` (lines 46–69). -/
def deleteSessions (first second : TransactionOutcomes) (exec : Lib.Outcome) :
    Effectful Store Unit := do
  let keys := sessionTokens.map fun session ↦ sessionKey session.token
  tryCatch (deleteSessionTokensFromDB sessionTokens first) fun e1 ↦
    tryCatch (deleteSessionTokensFromDB sessionTokens second) fun _ ↦
      throw ("[sessionManager]: Failure (and retry failure) when deleting expired sessions from " ++
        "DB: " ++ e1 ++ "\n$")
  tryCatch (operate exec "exec" (·.del keys)) fun e ↦
    throw ("[sessionManager]: Error when deleting expired sessions from Redis: " ++ e)

/-- The tokens that are drawn, one after the other. -/
structure Tokens where
  token : ℕ → String
  injective : Function.Injective token

/-- A call, with how each of its operations ends. -/
inductive Call where
  | createSession (cnodeUserUUID : String) (create set : Lib.Outcome)
  | verifySession (sessionToken : String) (readRedis readDB : Lib.Outcome)
  | deleteSession (sessionToken : String) (read destroy del : Lib.Outcome)
  | deleteSessions (sessionTokens : List SessionToken) (first second : TransactionOutcomes)
      (exec : Lib.Outcome)

/-- The stores, the number of drawn tokens, and the tokens for which a call that deletes sessions
has returned. -/
structure State where
  store : Store
  drawn : ℕ
  revoked : List String

/-- Nothing has been stored. -/
def start : State := ⟨⟨[], [], fun _ ↦ none⟩, 0, []⟩

/-- What a call that deletes the sessions with the tokens leaves. -/
def State.revoke (s : State) (tokens : List String) (m : Effectful Store Unit) : State where
  store := (runOn m s.store).2
  drawn := s.drawn
  revoked := if (runOn m s.store).1.isOk then tokens ++ s.revoked else s.revoked

/-- One call. The sessions that `deleteSessions` is given are rows that were read from the table. -/
def step (tokens : Tokens) (s : State) : Call → Except String State
  | .createSession cnodeUserUUID create set =>
    let m := createSession (tokens.token s.drawn) cnodeUserUUID create set
    .ok { s with store := (runOn m s.store).2, drawn := s.drawn + 1 }
  | .verifySession sessionToken readRedis readDB =>
    .ok { s with store := (runOn (verifySession sessionToken readRedis readDB) s.store).2 }
  | .deleteSession sessionToken read destroy del =>
    .ok (s.revoke [sessionToken] (deleteSession sessionToken read destroy del))
  | .deleteSessions sessionTokens first second exec => do
    require (sessionTokens ⊆ s.store.inserted) "not rows of the table"
    return s.revoke (sessionTokens.map SessionToken.token)
      (deleteSessions sessionTokens first second exec)

/-- The query fails and the roll-back does not, so that the error goes no further. -/
def TransactionOutcomes.Swallows : Prop :=
  outcomes.transaction = .done ∧ outcomes.destroy ≠ .done ∧ outcomes.finish = .done

/-- The transaction ends with an error. -/
def TransactionOutcomes.Throws : Prop :=
  outcomes.transaction ≠ .done ∨ outcomes.finish ≠ .done

instance (outcomes : TransactionOutcomes) : Decidable outcomes.Swallows :=
  inferInstanceAs (Decidable (_ ∧ _ ∧ _))

instance (outcomes : TransactionOutcomes) : Decidable outcomes.Throws :=
  inferInstanceAs (Decidable (_ ∨ _))

/-- No call of `deleteSessions` goes on to delete the keys after a query that failed. -/
def Call.Heard : Call → Prop
  | .deleteSessions _ first second exec =>
    exec = .done → ¬ first.Swallows ∧ (first.Throws → ¬ second.Swallows)
  | _ => True

instance : DecidablePred Call.Heard := fun call ↦
  match call with
  | .deleteSessions _ first second exec =>
    inferInstanceAs (Decidable (exec = .done → ¬ first.Swallows ∧ (_ → ¬ second.Swallows)))
  | .createSession .. => .isTrue trivial
  | .verifySession .. => .isTrue trivial
  | .deleteSession .. => .isTrue trivial

end Sessions

end ColivingSpec
