import ColivingSpec.ContentNode.SessionManager

/-!
# Revoked sessions

Once a call has deleted a session from both stores no later call brings it back, since each token is
drawn once. A call of `deleteSessions` that returns has deleted the rows, unless their deletion
failed and its roll-back did not.
-/

namespace ColivingSpec

open Lib List

namespace Sessions

open Effectful

variable {tokens : Tokens} {drawn : ℕ} {token : String} {s : Store}

/-- The rows are among all that the table has had, of which none has the token of another. -/
structure Sound (s : Store) : Prop where
  rows : s.SessionTokens ⊆ s.inserted
  unique : ∀ a ∈ s.inserted, ∀ b ∈ s.inserted, a.token = b.token → a = b

/-- No store has the session. -/
structure Absent (token : String) (s : Store) : Prop where
  row : ∀ session ∈ s.SessionTokens, session.token ≠ token
  key : s.redis (sessionKey token) = none

/-- The token is one of those drawn. -/
def Drawn (tokens : Tokens) (drawn : ℕ) (token : String) : Prop :=
  ∃ k < drawn, tokens.token k = token

theorem Drawn.mono {later : ℕ} (h : Drawn tokens drawn token) (hle : drawn ≤ later) :
    Drawn tokens later token := by
  obtain ⟨k, hlt, hk⟩ := h
  exact ⟨k, by omega, hk⟩

/-- The next token is none of those drawn. -/
theorem Drawn.ne (h : Drawn tokens drawn token) : token ≠ tokens.token drawn := by
  obtain ⟨k, hlt, rfl⟩ := h
  intro heq
  have hk := tokens.injective heq
  omega

theorem sessionKey_injective {a b : String} (h : sessionKey a = sessionKey b) : a = b :=
  (String.append_right_inj _).mp h

/-! ### What the operations leave -/

theorem Sound.destroy (h : Sound s) (ids : List ℕ) : Sound (s.destroy ids) where
  rows := fun _ hsession ↦ h.rows (mem_filter.mp hsession).1
  unique := h.unique

theorem Sound.set (h : Sound s) (key value : String) : Sound (s.set key value) := ⟨h.rows, h.unique⟩

theorem Sound.del (h : Sound s) (keys : List String) : Sound (s.del keys) := ⟨h.rows, h.unique⟩

theorem Sound.create (h : Sound s) (hnew : ∀ session ∈ s.inserted, session.token ≠ token)
    (cnodeUserUUID : String) : Sound (s.create cnodeUserUUID token) := by
  constructor
  · intro session hsession
    rcases mem_append.mp hsession with hold | hnew
    · exact mem_append_left _ (h.rows hold)
    · exact mem_append_right _ hnew
  · intro a ha b hb heq
    rcases mem_append.mp ha with ha | ha <;> rcases mem_append.mp hb with hb | hb
    · exact h.unique a ha b hb heq
    · cases mem_singleton.mp hb
      exact absurd heq (hnew a ha)
    · cases mem_singleton.mp ha
      exact absurd heq.symm (hnew b hb)
    · rw [mem_singleton.mp ha, mem_singleton.mp hb]

theorem Absent.destroy (h : Absent token s) (ids : List ℕ) : Absent token (s.destroy ids) where
  row := fun session hsession ↦ h.row session (mem_filter.mp hsession).1
  key := h.key

theorem Absent.del (h : Absent token s) (keys : List String) : Absent token (s.del keys) where
  row := h.row
  key := by
    show (if _ then none else s.redis _) = none
    rw [h.key, ite_self]

theorem Absent.create {other : String} (h : Absent token s) (hne : token ≠ other)
    (cnodeUserUUID : String) : Absent token (s.create cnodeUserUUID other) where
  row := by
    intro session hsession
    rcases mem_append.mp hsession with hold | hnew
    · exact h.row session hold
    · rw [mem_singleton.mp hnew]
      exact hne.symm
  key := h.key

theorem Absent.set {other : String} (h : Absent token s) (hne : token ≠ other) (value : String) :
    Absent token (s.set (sessionKey other) value) where
  row := h.row
  key := by
    show (if sessionKey token = sessionKey other then some value else s.redis _) = none
    rw [if_neg fun heq ↦ hne (sessionKey_injective heq), h.key]

variable {sessionTokens : List SessionToken} (sessionToken : String)
  {outcomes : TransactionOutcomes}

/-- When the rows with the ids of some that the table has had are gone, so are their tokens. -/
theorem Sound.row_destroy (h : Sound s) (hrows : sessionTokens ⊆ s.inserted) {gone : SessionToken}
    (hgone : gone ∈ sessionTokens) :
    ∀ session ∈ (s.destroy (sessionTokens.map SessionToken.id)).SessionTokens,
      session.token ≠ gone.token := by
  intro session hsession heq
  obtain ⟨hmem, hid⟩ := mem_filter.mp hsession
  cases h.unique session (h.rows hmem) gone (hrows hgone) heq
  simp only [contains_eq_mem, Bool.not_eq_true', decide_eq_false_iff_not] at hid
  exact hid (mem_map_of_mem hgone)

/-- `createSession` leaves the stores, or has created the row, or has set the key as well. -/
theorem left_createSession (cnodeUserUUID : String) (create set : Lib.Outcome) (s : Store) :
    (runOn (createSession token cnodeUserUUID create set) s).2 = s ∨
    (runOn (createSession token cnodeUserUUID create set) s).2 = s.create cnodeUserUUID token ∨
    (runOn (createSession token cnodeUserUUID create set) s).2 =
      (s.create cnodeUserUUID token).set (sessionKey token) cnodeUserUUID := by
  cases create with
  | failed happens =>
    cases happens with
    | false => exact .inl rfl
    | true => exact .inr (.inl rfl)
  | done =>
    cases set with
    | failed happens =>
      cases happens with
      | false => exact .inr (.inl rfl)
      | true => exact .inr (.inr rfl)
    | done => exact .inr (.inr rfl)

/-! ### The calls that delete -/

section Calls

variable {I : Store → Prop}

theorem keeps_getSessionFromDB (sessionToken : String) (throwOnError : Bool) (read : Lib.Outcome) :
    Keeps I (getSessionFromDB sessionToken throwOnError read) := by
  apply Keeps.bind
  · exact Keeps.operate (fun _ hs ↦ hs) read "findOne"
  · intro _
    refine Keeps.bind Keeps.get fun s ↦ ?_
    dsimp only
    split
    · exact Keeps.bind (Keeps.throw _) fun _ ↦ Keeps.pure _
    · exact Keeps.pure _

theorem keeps_deleteSession (hdestroy : ∀ s ids, I s → I (s.destroy ids))
    (hdel : ∀ s keys, I s → I (s.del keys)) (sessionToken : String)
    (read destroy del : Lib.Outcome) :
    Keeps I (deleteSession sessionToken read destroy del) := by
  refine Keeps.bind (keeps_getSessionFromDB _ _ _) fun session ↦ ?_
  apply Keeps.bind
  · exact Keeps.operate (fun s hs ↦ hdestroy s _ hs) destroy "destroy"
  · exact fun _ ↦ Keeps.operate (fun s hs ↦ hdel s _ hs) del "del"

theorem keeps_deleteSessionTokensFromDB (hdestroy : ∀ s ids, I s → I (s.destroy ids))
    (sessionTokens : List SessionToken) (outcomes : TransactionOutcomes) :
    Keeps I (deleteSessionTokensFromDB sessionTokens outcomes) := by
  apply Keeps.bind
  · exact Keeps.operate (fun _ hs ↦ hs) _ _
  · intro _
    split
    · exact Keeps.operate (fun _ hs ↦ hs) _ _
    · exact Keeps.operate (fun s hs ↦ hdestroy s _ hs) _ _

theorem keeps_deleteSessions (hdestroy : ∀ s ids, I s → I (s.destroy ids))
    (hdel : ∀ s keys, I s → I (s.del keys)) (sessionTokens : List SessionToken)
    (first second : TransactionOutcomes) (exec : Lib.Outcome) :
    Keeps I (deleteSessions sessionTokens first second exec) := by
  apply Keeps.bind
  · refine Keeps.tryCatch (keeps_deleteSessionTokensFromDB hdestroy _ _) fun _ ↦ ?_
    exact Keeps.tryCatch (keeps_deleteSessionTokensFromDB hdestroy _ _) fun _ ↦ Keeps.throw _
  · intro _
    exact Keeps.tryCatch (Keeps.operate (fun s hs ↦ hdel s _ hs) _ _) fun _ ↦ Keeps.throw _

end Calls

/-- `verifySession` only reads. -/
theorem keeps_verifySession (I : Store → Prop) (sessionToken : String)
    (readRedis readDB : Lib.Outcome) : Keeps I (verifySession sessionToken readRedis readDB) := by
  apply Keeps.bind
  · apply Keeps.bind
    · exact Keeps.operate (fun _ hs ↦ hs) readRedis "get"
    · exact fun _ ↦ Keeps.bind Keeps.get fun _ ↦ Keeps.pure _
  · intro session
    split
    · exact Keeps.pure _
    · exact Keeps.bind (keeps_getSessionFromDB _ _ _) fun _ ↦ Keeps.pure _

/-- The first row with the token. -/
def Store.findSession (s : Store) (token : String) : Option SessionToken :=
  s.SessionTokens.find? fun session ↦ session.token == token

/-- `_getSessionFromDB` returns the first row with the token, or throws when it is to and there is
none. -/
theorem runOn_getSessionFromDB (throwOnError : Bool) (s : Store) :
    runOn (getSessionFromDB sessionToken throwOnError .done) s =
      if throwOnError && (s.findSession sessionToken).isNone then (.error "Invalid session", s)
      else (.ok (s.findSession sessionToken), s) := by
  unfold getSessionFromDB
  rw [runOn_bind, runOn_operate_done]
  dsimp only [id]
  show runOn (ite _ _ _) s = _
  unfold Store.findSession
  split
  · rfl
  · rfl

/-- The row that `deleteSession` goes on with. -/
theorem ensures_getSessionFromDB (read : Lib.Outcome) :
    Ensures Sound (getSessionFromDB sessionToken true read) fun session s ↦
      Sound s ∧ ∃ row ∈ s.SessionTokens, session = some row ∧ row.token = sessionToken := by
  intro s session s' hs hrun
  cases read with
  | failed happens => cases happens <;> cases hrun
  | done =>
    rw [runOn_getSessionFromDB] at hrun
    cases hfind : s.findSession sessionToken with
    | none =>
      rw [hfind] at hrun
      cases hrun
    | some row =>
      rw [hfind] at hrun
      cases hrun
      refine ⟨hs, row, mem_of_find?_eq_some hfind, rfl, ?_⟩
      have htoken := find?_some hfind
      exact eq_of_beq htoken

/-- When `deleteSession` returns, no store has the session. -/
theorem ensures_deleteSession (read destroy del : Lib.Outcome) :
    Ensures Sound (deleteSession sessionToken read destroy del) fun _ s ↦
      Absent sessionToken s ∧ ∃ row ∈ s.inserted, row.token = sessionToken := by
  refine Ensures.bind (ensures_getSessionFromDB sessionToken read) fun session ↦ ?_
  have hdestroy : Ensures (fun s ↦ Sound s ∧ ∃ row ∈ s.SessionTokens, session = some row ∧
      row.token = sessionToken)
      (operate destroy "destroy" fun s : Store ↦ s.destroy (session.map SessionToken.id).toList)
      fun _ s ↦ (∀ row ∈ s.SessionTokens, row.token ≠ sessionToken) ∧
        ∃ row ∈ s.inserted, row.token = sessionToken := by
    apply Ensures.operate
    rintro s ⟨hs, row, hrow, rfl, rfl⟩
    have hsub : [row] ⊆ s.inserted := by simpa using hs.rows hrow
    exact ⟨hs.row_destroy hsub (mem_singleton_self row), row, hs.rows hrow, rfl⟩
  refine Ensures.bind hdestroy fun _ ↦ Ensures.operate ?_ del "del"
  rintro s ⟨hrow, hinserted⟩
  exact ⟨⟨hrow, if_pos (mem_singleton_self _)⟩, hinserted⟩

/-- A transaction that does not swallow an error has deleted the rows when it returns. -/
theorem ensures_deleteSessionTokensFromDB {P : Store → Prop} (sessionTokens : List SessionToken)
    (h : ¬ outcomes.Swallows) :
    Ensures P (deleteSessionTokensFromDB sessionTokens outcomes) fun _ s ↦
      ∃ before, P before ∧ s = before.destroy (sessionTokens.map SessionToken.id) := by
  intro s a s' hs hrun
  obtain ⟨transaction, destroy, finish⟩ := outcomes
  cases transaction with
  | failed happens => cases happens <;> cases hrun
  | done =>
    cases finish with
    | failed happens => cases destroy <;> cases happens <;> cases hrun
    | done =>
      cases destroy with
      | failed happens => exact absurd ⟨rfl, by simp, rfl⟩ h
      | done =>
        cases hrun
        exact ⟨s, hs, rfl⟩

/-- A transaction with an error is one that ends with it. -/
theorem throws_of_error {error : String} {s' : Store}
    (h : runOn (deleteSessionTokensFromDB sessionTokens outcomes) s = (.error error, s')) :
    outcomes.Throws := by
  by_contra hnot
  obtain ⟨htransaction, hfinish⟩ := not_or.mp hnot
  obtain ⟨transaction, destroy, finish⟩ := outcomes
  cases not_not.mp htransaction
  cases not_not.mp hfinish
  cases destroy <;> cases h

/-- When `deleteSessions` returns and has heard of the errors, no store has one of the sessions. -/
theorem ensures_deleteSessions {first second : TransactionOutcomes} {exec : Lib.Outcome}
    (h : (Call.deleteSessions sessionTokens first second exec).Heard) :
    Ensures (fun s ↦ Sound s ∧ sessionTokens ⊆ s.inserted)
      (deleteSessions sessionTokens first second exec) fun _ s ↦
        ∀ session ∈ sessionTokens, Absent session.token s ∧ session ∈ s.inserted := by
  have hkeeps : ∀ outcomes, Keeps (fun s ↦ Sound s ∧ sessionTokens ⊆ s.inserted)
      (deleteSessionTokensFromDB sessionTokens outcomes) :=
    keeps_deleteSessionTokensFromDB (fun s ids hs ↦ ⟨hs.1.destroy ids, hs.2⟩) sessionTokens
  cases exec with
  | failed happens =>
    refine Ensures.bind (Ensures.of_keeps ?_) fun _ ↦ ?_
    · refine Keeps.tryCatch (hkeeps first) fun _ ↦ ?_
      exact Keeps.tryCatch (hkeeps second) fun _ ↦ Keeps.throw _
    · refine Ensures.tryCatch (Ensures.operate_failed happens _ _) ?_ fun _ _ _ _ ↦ Ensures.throw _
      exact Keeps.operate (fun s hs ↦ ⟨hs.1.del _, hs.2⟩) _ _
  | done =>
    obtain ⟨hfirst, hsecond⟩ := h rfl
    refine Ensures.bind (Q := fun _ s ↦ ∃ before, (Sound before ∧ sessionTokens ⊆ before.inserted) ∧
      s = before.destroy (sessionTokens.map SessionToken.id)) ?_ fun _ ↦ ?_
    · refine Ensures.tryCatch (ensures_deleteSessionTokensFromDB sessionTokens hfirst)
        (hkeeps first) fun s error s' hfails ↦ ?_
      -- the handler is reached after an attempt that ended with an error
      have hretry := hsecond (throws_of_error hfails)
      exact Ensures.tryCatch (ensures_deleteSessionTokensFromDB sessionTokens hretry)
        (hkeeps second) fun _ _ _ _ ↦ Ensures.throw _
    · intro s a s' hs hrun
      obtain ⟨before, ⟨hsound, hsub⟩, rfl⟩ := hs
      cases hrun
      intro session hsession
      refine ⟨⟨hsound.row_destroy hsub hsession, if_pos ?_⟩, hsub hsession⟩
      exact mem_map_of_mem hsession

/-! ### Runs -/

/-- All tokens of rows have been drawn, and no store has a revoked session. -/
structure Consistent (tokens : Tokens) (s : State) : Prop where
  sound : Sound s.store
  drawn : ∀ session ∈ s.store.inserted, Drawn tokens s.drawn session.token
  revoked : ∀ token ∈ s.revoked, Drawn tokens s.drawn token ∧ Absent token s.store

theorem consistent_start (tokens : Tokens) : Consistent tokens start where
  sound := ⟨fun _ h ↦ h, by simp [start]⟩
  drawn := by simp [start]
  revoked := by simp [start]

variable {state : State}

/-- What only removes rows and keys, and returns when the sessions are gone, keeps the state
consistent. -/
theorem Consistent.revoke (h : Consistent tokens state) {m : Effectful Store Unit}
    {gone : List String} (hkeeps : ∀ I : Store → Prop, (∀ s ids, I s → I (s.destroy ids)) →
      (∀ s keys, I s → I (s.del keys)) → Keeps I m)
    (hgone : ∀ s', runOn m state.store = (.ok (), s') →
      ∀ token ∈ gone, Absent token s' ∧ ∃ row ∈ s'.inserted, row.token = token) :
    Consistent tokens (state.revoke gone m) := by
  have hinserted : (runOn m state.store).2.inserted = state.store.inserted :=
    hkeeps (fun s ↦ s.inserted = state.store.inserted) (fun _ _ hs ↦ hs) (fun _ _ hs ↦ hs)
      state.store rfl
  have hdrawn : ∀ row ∈ (runOn m state.store).2.inserted, Drawn tokens state.drawn row.token := by
    rw [hinserted]
    exact h.drawn
  constructor
  · exact hkeeps Sound (fun _ ids hs ↦ hs.destroy ids) (fun _ keys hs ↦ hs.del keys) _ h.sound
  · exact hdrawn
  · intro token htoken
    have hold : token ∈ state.revoked →
        Drawn tokens state.drawn token ∧ Absent token (runOn m state.store).2 := by
      intro hmem
      obtain ⟨hd, habsent⟩ := h.revoked token hmem
      exact ⟨hd, hkeeps (Absent token) (fun _ ids hs ↦ hs.destroy ids)
        (fun _ keys hs ↦ hs.del keys) _ habsent⟩
    cases hrun : runOn m state.store with
    | mk result s' =>
      cases result with
      | error error =>
        simp only [State.revoke, hrun] at htoken hold ⊢
        exact hold htoken
      | ok _ =>
        simp only [State.revoke, hrun] at htoken hold hdrawn ⊢
        rcases mem_append.mp htoken with hnew | hmem
        · obtain ⟨habsent, row, hrow, rfl⟩ := hgone s' hrun token hnew
          exact ⟨hdrawn row hrow, habsent⟩
        · exact hold hmem

theorem Consistent.createSession (h : Consistent tokens state) (cnodeUserUUID : String)
    (create set : Lib.Outcome) (s' : State)
    (hstep : step tokens state (.createSession cnodeUserUUID create set) = .ok s') :
    Consistent tokens s' := by
  have hfresh : ∀ session ∈ state.store.inserted, session.token ≠ tokens.token state.drawn :=
    fun session hsession ↦ (h.drawn session hsession).ne
  have hcreated : Consistent tokens { state with
      store := state.store.create cnodeUserUUID (tokens.token state.drawn)
      drawn := state.drawn + 1 } := by
    constructor
    · exact h.sound.create hfresh cnodeUserUUID
    · intro session hsession
      rcases mem_append.mp hsession with hold | hnew
      · exact (h.drawn session hold).mono (Nat.le_succ _)
      · rw [mem_singleton.mp hnew]
        exact ⟨state.drawn, Nat.lt_succ_self _, rfl⟩
    · intro token htoken
      obtain ⟨hd, habsent⟩ := h.revoked token htoken
      exact ⟨hd.mono (Nat.le_succ _), habsent.create hd.ne cnodeUserUUID⟩
  cases hstep
  rcases @left_createSession (tokens.token state.drawn) cnodeUserUUID create set state.store with
    hleft | hleft | hleft
  · rw [hleft]
    constructor
    · exact h.sound
    · exact fun session hsession ↦ (h.drawn session hsession).mono (Nat.le_succ _)
    · exact fun token htoken ↦ (h.revoked token htoken).imp_left fun hd ↦ hd.mono (Nat.le_succ _)
  · rw [hleft]
    exact hcreated
  · rw [hleft]
    constructor
    · exact hcreated.sound.set _ _
    · exact hcreated.drawn
    · intro token htoken
      obtain ⟨hd, habsent⟩ := hcreated.revoked token htoken
      exact ⟨hd, habsent.set (h.revoked token htoken).1.ne _⟩

theorem Consistent.step {call : Call} {s' : State} (h : Consistent tokens state)
    (hheard : call.Heard) (hstep : Sessions.step tokens state call = .ok s') :
    Consistent tokens s' := by
  cases call with
  | createSession cnodeUserUUID create set => exact h.createSession _ create set s' hstep
  | verifySession sessionToken readRedis readDB =>
    cases hstep
    have hleft := keeps_verifySession (fun s ↦ s = state.store) sessionToken readRedis readDB
      state.store rfl
    rw [hleft]
    exact h
  | deleteSession sessionToken read destroy del =>
    cases hstep
    apply h.revoke
    · exact fun I hdestroy hdel ↦ keeps_deleteSession hdestroy hdel _ _ _ _
    · intro s' hrun token htoken
      cases mem_singleton.mp htoken
      exact ensures_deleteSession _ _ _ _ _ () s' h.sound hrun
  | deleteSessions sessionTokens first second exec =>
    obtain ⟨hsub, hok⟩ := require_bind_eq_ok.mp hstep
    cases hok
    apply h.revoke
    · exact fun I hdestroy hdel ↦ keeps_deleteSessions hdestroy hdel _ _ _ _
    · intro s' hrun token htoken
      obtain ⟨session, hsession, rfl⟩ := mem_map.mp htoken
      obtain ⟨habsent, hinserted⟩ :=
        ensures_deleteSessions hheard state.store () s' ⟨h.sound, hsub⟩ hrun session hsession
      exact ⟨habsent, session, hinserted, rfl⟩

/-- A session that no store has is verified as none. -/
theorem Absent.verifySession (h : Absent token s) :
    runOn (verifySession token .done .done) s = (.ok none, s) := by
  have hredis : runOn (getSessionFromRedis token .done) s = (.ok none, s) := by
    rw [← h.key]
    rfl
  have hfind : s.findSession token = none := by
    apply find?_eq_none.mpr
    intro session hsession
    simpa using h.row session hsession
  have hdb : runOn (getSessionFromDB token false .done) s = (.ok none, s) := by
    rw [runOn_getSessionFromDB, hfind]
    rfl
  unfold Sessions.verifySession
  rw [runOn_bind, hredis]
  show runOn (getSessionFromDB token false .done >>= _) s = _
  rw [runOn_bind, hdb]
  rfl

/-- Tokens of all lengths. -/
def countedTokens : Tokens where
  token k := String.ofList (List.replicate (k + 1) 'x')
  injective j k h := by simpa using congrArg String.length h

/-- A session is created, and `deleteSessions` is called with its row. -/
def createAndDelete (first : TransactionOutcomes) : List Call :=
  [.createSession "6b0a" .done .done,
    .deleteSessions [⟨0, "6b0a", "x"⟩] first ⟨.done, .done, .done⟩ .done]

end Sessions

open Sessions Effectful in
/-- In a run in which no call goes on after a deletion that failed, a session for which a call that
deletes it has returned is verified as none. -/
theorem verifySession_of_revoked (tokens : Tokens) {calls : List Call}
    (h : Along (Sessions.step tokens) (fun _ call ↦ call.Heard) Sessions.start calls) :
    ∀ token ∈ (replay (Sessions.step tokens) Sessions.start calls).revoked,
      runOn (verifySession token .done .done)
          (replay (Sessions.step tokens) Sessions.start calls).store =
        (.ok none, (replay (Sessions.step tokens) Sessions.start calls).store) := by
  intro token htoken
  have hconsistent := replay_invariant (Consistent tokens)
    (fun _ _ _ hs hheard hstep ↦ hs.step hheard hstep) (consistent_start tokens) h
  exact (hconsistent.revoked token htoken).2.verifySession

open Sessions Effectful in
/-- The deletion of the row is rolled back once with an error and then succeeds. -/
theorem verifySession_of_revoked_retried :
    Along (Sessions.step countedTokens) (fun _ call ↦ call.Heard) Sessions.start
      (createAndDelete ⟨.done, .failed false, .failed false⟩) ∧
    ∀ token ∈ (replay (Sessions.step countedTokens) Sessions.start
        (createAndDelete ⟨.done, .failed false, .failed false⟩)).revoked,
      runOn (verifySession token .done .done) (replay (Sessions.step countedTokens) Sessions.start
          (createAndDelete ⟨.done, .failed false, .failed false⟩)).store =
        (.ok none, (replay (Sessions.step countedTokens) Sessions.start
          (createAndDelete ⟨.done, .failed false, .failed false⟩)).store) := by
  have hheard : Along (Sessions.step countedTokens) (fun _ call ↦ call.Heard) Sessions.start
      (createAndDelete ⟨.done, .failed false, .failed false⟩) := by
    decide +kernel
  exact ⟨hheard, verifySession_of_revoked countedTokens hheard⟩

open Sessions Effectful in
/-- The deletion of the row fails and is rolled back: the call returns, and the session stays. -/
theorem verifySession_of_revoked_swallowed :
    "x" ∈ (replay (Sessions.step countedTokens) Sessions.start
        (createAndDelete ⟨.done, .failed false, .done⟩)).revoked ∧
    (runOn (verifySession "x" .done .done) (replay (Sessions.step countedTokens) Sessions.start
        (createAndDelete ⟨.done, .failed false, .done⟩)).store).1 = .ok (some "6b0a") := by
  constructor
  · decide +kernel
  · decide +kernel

end ColivingSpec
