import ColivingSpec.Solana.PlayData

/-!
# Chunks of plays

A chunk of transactions of the listen-count program is parsed in parallel, and its plays are
committed together. A transaction that cannot be parsed, or has no row, raises; the chunk is then
parsed again ten times, and raises. So one such transaction keeps the others of its chunk out.
-/

namespace ColivingSpec.Solana

open Lib Lib.Bytes Lib.Base58

namespace PlayBatches

/-- The accounts that a transaction is looked for in (`index_solana_plays.py:34–36`). -/
structure Programs where
  digitalContentListenProgram : String
  signerGroup : String
  secpProgram : String

/-- An instruction of a transaction: its program by its place among the accounts, and its data. -/
structure TxInstruction where
  programIdIndex : ℕ
  data : String
  deriving DecidableEq, Repr

/-- What `get_sol_tx_info` returns of a transaction, with its signature. -/
structure TxInfo where
  signature : String
  err : Bool
  slot : ℕ
  accountKeys : List String
  instructions : List TxInstruction
  deriving DecidableEq, Repr

/-- What `parse_sol_play_transaction` returns; a date is the seconds since 1970. -/
structure PlayTransaction where
  userId : Option ℤ
  digitalContentId : ℤ
  createdAt : ℕ
  source : Json
  location : Json
  slot : ℕ
  txSig : String

/-- A row of `plays`, but for the time at which it is written. -/
structure PlayInfo where
  userId : Option ℤ
  playItemId : ℤ
  createdAt : ℕ
  source : Json
  city : Json
  region : Json
  country : Json
  slot : ℕ
  signature : String

variable (programs : Programs) (loads : List UInt8 → Option Json)

/-- `index_solana_plays.py:151–159`. -/
def isValidTx (accountKeys : List String) : Bool :=
  decide (programs.secpProgram ∈ accountKeys) && decide (programs.signerGroup ∈ accountKeys)

/-- The last second of the year 9999. -/
def maxTimestamp : ℕ := 253402300799

/-- `datetime.utcfromtimestamp` of a time from 1970 on. -/
def utcfromtimestamp (timestamp : ℕ) : Except String ℕ :=
  if timestamp ≤ maxTimestamp then .ok timestamp
  else .error (if timestamp < 2 ^ 63 then "ValueError" else "OverflowError")

variable (tx : TxInfo)

/-- The first instruction of the program. -/
def firstCall (programIndex : ℕ) : Option TxInstruction :=
  tx.instructions.find? fun instruction ↦ decide (instruction.programIdIndex = programIndex)

/-- `index_solana_plays.py:162–227`. -/
def parseSolPlayTransaction : Except String (Option PlayTransaction) :=
  if tx.err then .ok none
  else if isValidTx programs tx.accountKeys then
    match tx.accountKeys.idxOf? programs.digitalContentListenProgram with
    | none => .error "ValueError"
    | some programIndex =>
      match firstCall tx programIndex with
      | none => .ok none
      | some instruction => do
        let parsed ← PlayData.parseInstructionData loads instruction.data
        let createdAt ← utcfromtimestamp parsed.timestamp
        .ok (some ⟨parsed.userId, parsed.digitalContentId, createdAt, parsed.source,
          parsed.location, tx.slot, tx.signature⟩)
  else .ok none

/-- `location.get(key)`, which only a dictionary has. -/
def getOf (location : Json) (key : String) : Except String Json :=
  match location.dict? with
  | some entries => .ok ((entries.get? key).getD .null)
  | none => .error "AttributeError"

/-- The row of a play (`index_solana_plays.py:392–403`). -/
def playOf (play : PlayTransaction) : Except String PlayInfo := do
  let city ← getOf play.location "city"
  let region ← getOf play.location "region"
  let country ← getOf play.location "country"
  .ok ⟨play.userId, play.digitalContentId, play.createdAt, play.source, city, region, country,
    play.slot, play.txSig⟩

/-- One transaction of a chunk, from its data to its row. -/
def playIn : Except String (Option PlayInfo) := do
  match ← parseSolPlayTransaction programs loads tx with
  | none => .ok none
  | some play => some <$> playOf play

/-- A chunk, with the order in which its transactions are parsed at each attempt. -/
structure Chunk where
  txs : List TxInfo
  completed : ℕ → List TxInfo
  perm : ∀ retries, (completed retries).Perm txs

/-- The plays of a chunk, at the attempt with so many retries left
(`index_solana_plays.py:372–414`). -/
def attemptPlays (chunk : Chunk) (retries : ℕ) : Except String (List PlayInfo) :=
  List.filterMap id <$> (chunk.completed retries).mapM (playIn programs loads)

/-- The plays of a chunk, which is parsed again as long as there are retries left
(`index_solana_plays.py:416–434`). -/
def retryPlays (chunk : Chunk) : ℕ → Except String (List PlayInfo)
  | 0 => attemptPlays programs loads chunk 0
  | retries + 1 =>
    match attemptPlays programs loads chunk (retries + 1) with
    | .ok plays => .ok plays
    | .error _ => retryPlays chunk retries

/-- The table, and the listens that were dispatched with their slots, users and dates. -/
structure PlaysDb where
  plays : List PlayInfo
  dispatched : List (ℕ × ℤ × ℕ)

/-- The event of a play by a user who is known. -/
def listenEvent (play : PlayInfo) : Option (ℕ × ℤ × ℕ) :=
  play.userId.map fun userId ↦ (play.slot, userId, play.createdAt)

/-- The table with the plays, whose events are dispatched. -/
def PlaysDb.write (db : PlaysDb) (plays : List PlayInfo) : PlaysDb :=
  ⟨db.plays ++ plays, db.dispatched ++ plays.filterMap listenEvent⟩

/-- `parse_sol_tx_batch`'s default for `retries`. -/
def maxRetries : ℕ := 10

/-- `index_solana_plays.py:342–485`; the database may refuse the rows. -/
def parseSolTxBatch (accepts : List PlayInfo → Bool) (chunk : Chunk) (db : PlaysDb) :
    Except String PlaysDb := do
  let plays ← retryPlays programs loads chunk maxRetries
  if plays = [] ∨ accepts plays then .ok (db.write plays) else .error "DataError"

/-- The data has a row: the content has a number, the location of the source is an object if there is
one, and the time lies between 1970 and the year 9999. -/
structure Recordable (data : PlayData.RawData) : Prop where
  digitalContentId : (int? data.digitalContentId.bytes).isSome
  location : ∀ value source location, loads data.source.bytes = some value →
    value.getItem "source" = .ok source → value.getItem "location" = .ok location →
      location.dict?.isSome
  timestamp : 0 ≤ data.timestamp.toInt ∧ data.timestamp.toInt ≤ maxTimestamp

/-- A transaction of the listen-count program: it names the program, and what it first calls the
program with is the data of a listen. -/
structure ProgramTx where
  tx : TxInfo
  programIndex : ℕ
  idxOf : tx.accountKeys.idxOf? programs.digitalContentListenProgram = some programIndex
  listen : Option PlayData.RawData
  data : (firstCall tx programIndex).map TxInstruction.data =
    listen.map fun data ↦ b58encode data.encode

/-- The transaction is passed over, or its data has a row. -/
def Passes (tx : ProgramTx programs) : Prop :=
  tx.tx.err = false → isValidTx programs tx.tx.accountKeys = true →
    ∀ data ∈ tx.listen, Recordable loads data

/-- A chunk of transactions of the listen-count program. -/
structure ProgramChunk extends Chunk where
  listens : List (ProgramTx programs)
  txs_eq : txs = listens.map ProgramTx.tx

/-- A play, if the transaction has one. -/
def playIn? : Option PlayInfo := (playIn programs loads tx).toOption.join

/-- The chunk is committed with all its plays, if the database takes them. -/
def Commits (chunk : Chunk) (db : PlaysDb) : Prop :=
  ∃ plays, plays.Perm (chunk.txs.filterMap (playIn? programs loads)) ∧
    ∀ accepts, accepts plays = true →
      parseSolTxBatch programs loads accepts chunk db = .ok (db.write plays)

variable {programs loads}

/-- A play has a row exactly if its location is an object. -/
theorem succeeds_playOf_iff (play : PlayTransaction) :
    Succeeds (playOf play) ↔ play.location.dict?.isSome := by
  cases hdict : play.location.dict? with
  | none =>
    refine iff_of_false ?_ (by decide)
    rintro ⟨row, hrow⟩
    simp [playOf, getOf, hdict] at hrow
  | some entries =>
    refine iff_of_true ?_ rfl
    simp [playOf, getOf, hdict, Succeeds]

/-- A time has a date exactly if it lies before the year 10000; one before 1970 is read as a time far
behind that. -/
theorem succeeds_utcfromtimestamp_iff (time : Int64) :
    Succeeds (utcfromtimestamp time.toUInt64.toNat) ↔ 0 ≤ time.toInt ∧ time.toInt ≤ maxTimestamp := by
  have hunsigned := toUInt64_toNat time
  have hlow : -2 ^ 63 ≤ time.toInt := time.le_toInt
  unfold utcfromtimestamp maxTimestamp
  split at hunsigned
  case isTrue hnonneg =>
    split
    case isTrue hle => exact iff_of_true ⟨_, rfl⟩ ⟨hnonneg, by omega⟩
    case isFalse hlt =>
      refine iff_of_false ?_ (by omega)
      rintro ⟨_, h⟩
      cases h
  case isFalse hneg =>
    rw [if_neg (by omega)]
    refine iff_of_false ?_ (by omega)
    rintro ⟨_, h⟩
    cases h

/-- The location is an object exactly if it is none of another kind. -/
theorem location_isSome_iff (bytes : List UInt8) :
    (PlayData.jsonSource loads bytes).2.dict?.isSome ↔
      ∀ value source location, loads bytes = some value → value.getItem "source" = .ok source →
        value.getItem "location" = .ok location → location.dict?.isSome := by
  unfold PlayData.jsonSource
  cases hloads : loads bytes with
  | none => exact iff_of_true rfl fun _ _ _ hsome ↦ by cases hsome
  | some value =>
    cases hsource : value.getItem "source" with
    | error e =>
      refine iff_of_true (by simp only [hsource]; rfl) ?_
      intro value' source location hsome hget
      rw [← Option.some.inj hsome, hsource] at hget
      cases hget
    | ok source =>
      cases hlocation : value.getItem "location" with
      | error e =>
        refine iff_of_true (by simp only [hsource, hlocation]; rfl) ?_
        intro value' source' location hsome _ hget
        rw [← Option.some.inj hsome, hlocation] at hget
        cases hget
      | ok location =>
        simp only [hsource, hlocation]
        constructor
        · intro h value' source' location' hsome _ hget
          rw [← Option.some.inj hsome, hlocation] at hget
          rw [← Except.ok.inj hget]
          exact h
        · intro h
          exact h value source location rfl hsource hlocation

/-- The data of a listen is parsed and has a row exactly if it is recordable. -/
theorem succeeds_listen_iff (data : PlayData.RawData) (slot : ℕ) (signature : String) :
    Succeeds (do
      let parsed ← PlayData.parseInstructionData loads (b58encode data.encode)
      let createdAt ← utcfromtimestamp parsed.timestamp
      playOf ⟨parsed.userId, parsed.digitalContentId, createdAt, parsed.source, parsed.location,
        slot, signature⟩) ↔ Recordable loads data := by
  rw [PlayData.parseInstructionData_encode]
  cases hcontent : int? data.digitalContentId.bytes with
  | none =>
    refine iff_of_false ?_ ?_
    · rintro ⟨row, hrow⟩
      cases hrow
    · intro h
      have hsome := h.digitalContentId
      rw [hcontent] at hsome
      cases hsome
  | some digitalContentId =>
    simp only [ok_bind]
    refine (succeeds_bind_iff (p := (PlayData.jsonSource loads data.source.bytes).2.dict?.isSome)
      fun createdAt ↦ succeeds_playOf_iff _).trans ?_
    rw [succeeds_utcfromtimestamp_iff, location_isSome_iff]
    constructor
    · rintro ⟨htime, hlocation⟩
      exact ⟨by rw [hcontent]; rfl, hlocation, htime⟩
    · intro h
      exact ⟨h.timestamp, h.location⟩

theorem succeeds_map_iff {α β : Type} {f : α → β} {x : Except String α} :
    Succeeds (f <$> x) ↔ Succeeds x := by
  constructor
  · rintro ⟨b, hb⟩
    obtain ⟨a, ha, -⟩ := map_eq_ok.mp hb
    exact ⟨a, ha⟩
  · rintro ⟨a, ha⟩
    exact ⟨f a, map_eq_ok.mpr ⟨a, ha, rfl⟩⟩

/-- A transaction of the program ends without an exception exactly if it passes. -/
theorem succeeds_playIn_iff (tx : ProgramTx programs) :
    Succeeds (playIn programs loads tx.tx) ↔ Passes programs loads tx := by
  obtain ⟨tx, programIndex, hindex, listen, hdata⟩ := tx
  show Succeeds (playIn programs loads tx) ↔ (tx.err = false →
    isValidTx programs tx.accountKeys = true → ∀ data ∈ listen, Recordable loads data)
  unfold playIn parseSolPlayTransaction
  by_cases herr : tx.err = true
  · rw [if_pos herr]
    refine iff_of_true ⟨none, rfl⟩ ?_
    intro hfalse
    rw [herr] at hfalse
    cases hfalse
  · rw [if_neg herr]
    by_cases hvalid : isValidTx programs tx.accountKeys = true
    · rw [if_pos hvalid, hindex]
      cases listen with
      | none =>
        have hnone : firstCall tx programIndex = none := Option.map_eq_none_iff.mp hdata
        simp only [hnone]
        exact iff_of_true ⟨none, rfl⟩ fun _ _ _ hmem ↦ by cases hmem
      | some data =>
        obtain ⟨instruction, hcall, hencoded⟩ := Option.map_eq_some_iff.mp hdata
        simp only [hcall, hencoded]
        have hiff := @succeeds_listen_iff loads data tx.slot tx.signature
        have hall : (tx.err = false → isValidTx programs tx.accountKeys = true →
            ∀ data' ∈ some data, Recordable loads data') ↔ Recordable loads data := by
          constructor
          · intro h
            exact h (Bool.eq_false_iff.mpr herr) hvalid data rfl
          · rintro h _ _ _ ⟨⟩
            exact h
        rw [hall, ← hiff]
        cases PlayData.parseInstructionData loads (b58encode data.encode) with
        | error e => exact iff_of_false (fun ⟨_, h⟩ ↦ by cases h) (fun ⟨_, h⟩ ↦ by cases h)
        | ok parsed =>
          simp only [ok_bind]
          cases utcfromtimestamp parsed.timestamp with
          | error e => exact iff_of_false (fun ⟨_, h⟩ ↦ by cases h) (fun ⟨_, h⟩ ↦ by cases h)
          | ok createdAt => exact succeeds_map_iff
    · rw [if_neg hvalid]
      exact iff_of_true ⟨none, rfl⟩ fun _ htrue ↦ absurd htrue hvalid

/-- The transactions of a chunk that has been parsed have the rows of their plays. -/
theorem attemptPlays_eq_ok {chunk : Chunk} {retries : ℕ} {plays : List PlayInfo}
    (h : attemptPlays programs loads chunk retries = .ok plays) :
    plays = (chunk.completed retries).filterMap (playIn? programs loads) := by
  obtain ⟨results, hresults, rfl⟩ := map_eq_ok.mp h
  have hmap : results.map (fun result ↦ result) =
      (chunk.completed retries).map (playIn? programs loads) := by
    refine map_of_mapM_eq_ok (fun tx result hresult ↦ ?_) hresults
    rw [playIn?, hresult]
    rfl
  rw [List.map_id'] at hmap
  rw [hmap, List.filterMap_map]
  rfl

variable (chunk : Chunk)

theorem succeeds_attemptPlays_iff (retries : ℕ) :
    Succeeds (attemptPlays programs loads chunk retries) ↔
      ∀ tx ∈ chunk.txs, Succeeds (playIn programs loads tx) := by
  have hperm : (∀ tx ∈ chunk.completed retries, Succeeds (playIn programs loads tx)) ↔
      ∀ tx ∈ chunk.txs, Succeeds (playIn programs loads tx) :=
    forall_congr' fun tx ↦ by rw [(chunk.perm retries).mem_iff]
  rw [← hperm, ← succeeds_mapM_iff]
  exact succeeds_map_iff

/-- Parsing again does not help: a chunk has its plays exactly if each of its transactions ends
without an exception. -/
theorem retryPlays_eq (retries : ℕ) :
    (Succeeds (retryPlays programs loads chunk retries) ↔
      ∀ tx ∈ chunk.txs, Succeeds (playIn programs loads tx)) ∧
    ∀ plays, retryPlays programs loads chunk retries = .ok plays →
      plays.Perm (chunk.txs.filterMap (playIn? programs loads)) := by
  have hfirst : ∀ retries plays, attemptPlays programs loads chunk retries = .ok plays →
      plays.Perm (chunk.txs.filterMap (playIn? programs loads)) := by
    intro retries plays hplays
    rw [attemptPlays_eq_ok hplays]
    exact (chunk.perm retries).filterMap _
  induction retries with
  | zero => exact ⟨succeeds_attemptPlays_iff chunk 0, hfirst 0⟩
  | succ retries ih =>
    have hiff := @succeeds_attemptPlays_iff programs loads chunk (retries + 1)
    unfold retryPlays
    cases hplays : attemptPlays programs loads chunk (retries + 1) with
    | ok plays =>
      refine ⟨iff_of_true ⟨plays, rfl⟩ (hiff.mp ⟨plays, hplays⟩), ?_⟩
      rintro _ ⟨⟩
      exact hfirst _ _ hplays
    | error e => exact ih

/-- A chunk is committed exactly if each of its transactions ends without an exception. -/
theorem commits_iff (db : PlaysDb) :
    Commits programs loads chunk db ↔ ∀ tx ∈ chunk.txs, Succeeds (playIn programs loads tx) := by
  obtain ⟨hsucceeds, hperm⟩ := @retryPlays_eq programs loads chunk maxRetries
  rw [← hsucceeds]
  constructor
  · rintro ⟨plays, -, hcommitted⟩
    obtain ⟨plays', hplays', -⟩ := bind_eq_ok.mp (hcommitted (fun _ ↦ true) rfl)
    exact ⟨plays', hplays'⟩
  · rintro ⟨plays, hplays⟩
    refine ⟨plays, hperm plays hplays, ?_⟩
    intro accepts haccepts
    rw [parseSolTxBatch, hplays, ok_bind, if_pos (.inr haccepts)]

end PlayBatches

/-- A transaction of the program is parsed and gets its row, or nothing, exactly if it is passed over
or recordable; and a chunk is committed with all its plays exactly if all its transactions are. -/
theorem plays_committed_iff (programs : PlayBatches.Programs)
    (loads : List UInt8 → Option Json) :
    (∀ tx : PlayBatches.ProgramTx programs,
      Succeeds (PlayBatches.playIn programs loads tx.tx) ↔
        PlayBatches.Passes programs loads tx) ∧
    ∀ (chunk : PlayBatches.ProgramChunk programs) (db : PlayBatches.PlaysDb),
      PlayBatches.Commits programs loads chunk.toChunk db ↔
        ∀ tx ∈ chunk.listens, PlayBatches.Passes programs loads tx := by
  refine ⟨PlayBatches.succeeds_playIn_iff, ?_⟩
  intro chunk db
  rw [PlayBatches.commits_iff, chunk.txs_eq, List.forall_mem_map]
  exact forall₂_congr fun tx _ ↦ PlayBatches.succeeds_playIn_iff tx

/-- The accounts of the programs. -/
def somePrograms : PlayBatches.Programs := ⟨"listens", "signers", "secp"⟩

/-- A listen whose content has no number. -/
def unnumberedListen : PlayData.RawData where
  selector := 1
  userId := ⟨[], by decide⟩
  digitalContentId := ⟨[], by decide⟩
  source := ⟨[], by decide⟩
  timestamp := 0

/-- A successful transaction with the listen, accepted by `is_valid_tx`. -/
def unnumberedTx : PlayBatches.ProgramTx somePrograms where
  tx := ⟨"signature", false, 1, ["secp", "signers", "listens"],
    [⟨2, b58encode unnumberedListen.encode⟩]⟩
  programIndex := 2
  idxOf := by decide
  listen := some unnumberedListen
  data := rfl

/-- The transaction raises, and the chunk that it is alone in is not committed. -/
theorem raises_unnumbered :
    ¬ Succeeds (PlayBatches.playIn somePrograms (fun _ ↦ none) unnumberedTx.tx) ∧
      ¬ PlayBatches.Commits somePrograms (fun _ ↦ none)
        ⟨[unnumberedTx.tx], fun _ ↦ [unnumberedTx.tx], fun _ ↦ .refl _⟩ ⟨[], []⟩ := by
  have hraises : ¬ Succeeds (PlayBatches.playIn somePrograms (fun _ ↦ none) unnumberedTx.tx) := by
    rw [PlayBatches.succeeds_playIn_iff]
    intro hpasses
    have hnumber := (hpasses rfl (by decide) unnumberedListen rfl).digitalContentId
    exact absurd hnumber (by decide)
  refine ⟨hraises, ?_⟩
  rw [PlayBatches.commits_iff]
  intro hall
  exact hraises (hall unnumberedTx.tx List.mem_cons_self)

end ColivingSpec.Solana
