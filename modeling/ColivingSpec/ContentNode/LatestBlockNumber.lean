import ColivingSpec.Lib.Replay
import Mathlib.Data.Int.Notation

/-!
# The latest block number of a user

`POST /digitalContents` and `POST /coliving_users` compare the block number of a request with the
copy of the user's row that was loaded when the request was authenticated. The transaction that
follows begins with the increment of the clock, which takes the lock of the row until the end. The
model interleaves the requests of one user; reads see what is committed.
-/

namespace ColivingSpec

open Lib List

namespace BlockNumbers

/-- The routes that are given a block number. -/
inductive Route where
  | digitalContents
  | coliving_users
deriving DecidableEq, Repr

/-- What the requests read and write of the user's row (models/cNodeUser.js). -/
structure CNodeUser where
  clock : ℤ
  latestBlockNumber : ℤ
deriving DecidableEq, Repr

/-- A data row that was accepted, with the block number of its request. -/
structure DataRow where
  clock : ℤ
  route : Route
  blockNumber : ℤ
deriving DecidableEq, Repr

/-- A request that has passed the check, with the copy that it was authenticated with. -/
structure Request where
  route : Route
  blockNumber : ℤ
  loaded : CNodeUser
deriving DecidableEq, Repr

/-- The transaction of a request: the row as it sees it, the clock of its data row, and whether it
is past the update of the block number. -/
structure Transaction where
  request : Request
  cnodeUser : CNodeUser
  clock : ℤ
  updated : Bool
deriving DecidableEq, Repr

/-- What is committed, with all block numbers that the row has had; the requests that have passed
the check; the transaction that holds the lock. -/
structure State where
  cnodeUser : CNodeUser
  dataRows : List DataRow
  latestBlockNumbers : List ℤ
  requests : List Request
  transaction : Option Transaction
deriving DecidableEq, Repr

/-- What can happen. -/
inductive Event where
  | authenticate (route : Route) (blockNumber : ℤ)
  | createNewDataRecord (index : ℕ)
  | update
  | commit
  | rollback
deriving DecidableEq, Repr

/-- `cnodeUser.update({ latestBlockNumber })` on the copy: only what differs from the copy is
written. -/
def updateLatestBlockNumber (request : Request) (cnodeUser : CNodeUser) : CNodeUser :=
  if request.blockNumber = request.loaded.latestBlockNumber then cnodeUser
  else { cnodeUser with latestBlockNumber := request.blockNumber }

/-- The update of a route (digitalContents.js, lines 539–559; colivingUsers.js, lines 170–174). -/
def updateOf (request : Request) (cnodeUser : CNodeUser) : Except String CNodeUser :=
  match request.route with
  | .digitalContents => do
    require (cnodeUser.latestBlockNumber ≠ 0) "Issue in retrieving udpatedCnodeUser"
    return if cnodeUser.latestBlockNumber < request.blockNumber then
      updateLatestBlockNumber request cnodeUser else cnodeUser
  | .coliving_users => .ok (updateLatestBlockNumber request cnodeUser)

/-- One step of a request. -/
def step (s : State) : Event → Except String State
  | .authenticate route blockNumber => do
    require (blockNumber ≠ 0) "Must include blockNumber"
    require (s.cnodeUser.latestBlockNumber ≤ blockNumber) "Invalid blockNumber param"
    return { s with requests := s.requests ++ [⟨route, blockNumber, s.cnodeUser⟩] }
  | .createNewDataRecord index =>
    match s.transaction, s.requests[index]? with
    | none, some request =>
      let cnodeUser := { s.cnodeUser with clock := s.cnodeUser.clock + 1 }
      .ok { s with
        requests := s.requests.eraseIdx index
        transaction := some ⟨request, cnodeUser, cnodeUser.clock, false⟩ }
    | _, _ => .error "the row is locked"
  | .update =>
    match s.transaction with
    | some ⟨request, cnodeUser, clock, false⟩ => do
      let cnodeUser ← updateOf request cnodeUser
      return { s with transaction := some ⟨request, cnodeUser, clock, true⟩ }
    | _ => .error "no transaction to update in"
  | .commit =>
    match s.transaction with
    | some ⟨request, cnodeUser, clock, true⟩ =>
      .ok { s with
        cnodeUser
        dataRows := s.dataRows ++ [⟨clock, request.route, request.blockNumber⟩]
        latestBlockNumbers := s.latestBlockNumbers ++ [cnodeUser.latestBlockNumber]
        transaction := none }
    | _ => .error "no transaction to commit"
  | .rollback => .ok { s with transaction := none }

/-- A user before the requests. -/
def start (cnodeUser : CNodeUser) : State :=
  ⟨cnodeUser, [], [cnodeUser.latestBlockNumber], [], none⟩

/-- The latest block number has never gone back, and neither have the block numbers of the data
rows, in the order in which they were committed and in that of their clocks. -/
structure InOrder (s : State) : Prop where
  latest : s.latestBlockNumbers.Pairwise (· ≤ ·)
  committed : s.dataRows.Pairwise fun row later ↦ row.blockNumber ≤ later.blockNumber
  clocks : ∀ row ∈ s.dataRows, ∀ other ∈ s.dataRows, row.clock ≤ other.clock →
    row.blockNumber ≤ other.blockNumber

/-- What is committed has no lower block number than the committed row. -/
def NotOvertaken (s : State) : Event → Prop
  | .commit => ∀ transaction, s.transaction = some transaction → transaction.updated = true →
    s.cnodeUser.latestBlockNumber ≤ transaction.request.blockNumber
  | _ => True

/-! ### What the requests have seen -/

/-- A request was checked against a copy that is no newer than the row, and is the row while nothing
has been committed. -/
structure Request.Seen (request : Request) (s : State) : Prop where
  checked : request.loaded.latestBlockNumber ≤ request.blockNumber
  older : request.loaded.latestBlockNumber ≤ s.cnodeUser.latestBlockNumber
  first : s.dataRows = [] → request.loaded.latestBlockNumber = s.cnodeUser.latestBlockNumber

/-- The transaction goes on from the committed row, and its update leaves the block number of its
request unless that was overtaken. -/
structure Transaction.Locked (transaction : Transaction) (s : State) : Prop where
  seen : transaction.request.Seen s
  clock : transaction.clock = s.cnodeUser.clock + 1
  clock_eq : transaction.cnodeUser.clock = transaction.clock
  latest : transaction.updated = false →
    transaction.cnodeUser.latestBlockNumber = s.cnodeUser.latestBlockNumber
  updated : transaction.updated = true →
    s.cnodeUser.latestBlockNumber ≤ transaction.request.blockNumber →
    transaction.cnodeUser.latestBlockNumber = transaction.request.blockNumber

/-- As long as nothing was overtaken, the row has the block number that was committed last. -/
structure Sound (s : State) : Prop where
  inOrder : InOrder s
  latest : ∀ n ∈ s.latestBlockNumbers, n ≤ s.cnodeUser.latestBlockNumber
  dataRows : ∀ row ∈ s.dataRows, row.clock ≤ s.cnodeUser.clock ∧
    row.blockNumber ≤ s.cnodeUser.latestBlockNumber
  last : s.dataRows ≠ [] → ∃ row ∈ s.dataRows, row.blockNumber = s.cnodeUser.latestBlockNumber
  requests : ∀ request ∈ s.requests, request.Seen s
  transaction : ∀ transaction, s.transaction = some transaction → transaction.Locked s

variable {s s' : State} {request : Request} {transaction : Transaction}

theorem clock_updateLatestBlockNumber (request : Request) (cnodeUser : CNodeUser) :
    (updateLatestBlockNumber request cnodeUser).clock = cnodeUser.clock := by
  unfold updateLatestBlockNumber
  split
  · rfl
  · rfl

/-- What is not below the row, and the row not below the copy, becomes the row's block number: where
nothing is written it is that already. -/
theorem latest_updateLatestBlockNumber {cnodeUser : CNodeUser}
    (holder : request.loaded.latestBlockNumber ≤ cnodeUser.latestBlockNumber)
    (hle : cnodeUser.latestBlockNumber ≤ request.blockNumber) :
    (updateLatestBlockNumber request cnodeUser).latestBlockNumber = request.blockNumber := by
  unfold updateLatestBlockNumber
  split
  · omega
  · rfl

theorem clock_of_updateOf {cnodeUser cnodeUser' : CNodeUser}
    (h : updateOf request cnodeUser = .ok cnodeUser') : cnodeUser'.clock = cnodeUser.clock := by
  unfold updateOf at h
  split at h
  · obtain ⟨-, h⟩ := require_bind_eq_ok.mp h
    cases h
    split
    · exact clock_updateLatestBlockNumber request cnodeUser
    · rfl
  · cases h
    exact clock_updateLatestBlockNumber request cnodeUser

/-- Either route leaves the block number of a request that was not overtaken. -/
theorem latest_of_updateOf {cnodeUser cnodeUser' : CNodeUser}
    (h : updateOf request cnodeUser = .ok cnodeUser')
    (holder : request.loaded.latestBlockNumber ≤ cnodeUser.latestBlockNumber)
    (hle : cnodeUser.latestBlockNumber ≤ request.blockNumber) :
    cnodeUser'.latestBlockNumber = request.blockNumber := by
  unfold updateOf at h
  split at h
  · obtain ⟨-, h⟩ := require_bind_eq_ok.mp h
    cases h
    split
    · exact latest_updateLatestBlockNumber holder hle
    · omega
  · cases h
    exact latest_updateLatestBlockNumber holder hle

/-! ### Steps -/

/-- What is committed is what matters. -/
theorem Request.Seen.congr (h : request.Seen s) (hrow : s'.cnodeUser = s.cnodeUser)
    (hdata : s'.dataRows = s.dataRows) : request.Seen s' := by
  constructor
  · exact h.checked
  · rw [hrow]
    exact h.older
  · rw [hrow, hdata]
    exact h.first

theorem Transaction.Locked.congr (h : transaction.Locked s) (hrow : s'.cnodeUser = s.cnodeUser)
    (hdata : s'.dataRows = s.dataRows) : transaction.Locked s' where
  seen := h.seen.congr hrow hdata
  clock := by rw [hrow]; exact h.clock
  clock_eq := h.clock_eq
  latest := by rw [hrow]; exact h.latest
  updated := by rw [hrow]; exact h.updated

/-- Requests and the transaction may change while the committed state stays. -/
theorem Sound.of_committed (h : Sound s) (hrow : s'.cnodeUser = s.cnodeUser)
    (hdata : s'.dataRows = s.dataRows) (hlatest : s'.latestBlockNumbers = s.latestBlockNumbers)
    (hrequests : ∀ request ∈ s'.requests, request.Seen s)
    (htransaction : ∀ transaction, s'.transaction = some transaction → transaction.Locked s) :
    Sound s' where
  inOrder := by
    constructor
    · rw [hlatest]
      exact h.inOrder.latest
    · rw [hdata]
      exact h.inOrder.committed
    · rw [hdata]
      exact h.inOrder.clocks
  latest := by
    rw [hlatest, hrow]
    exact h.latest
  dataRows := by
    rw [hdata, hrow]
    exact h.dataRows
  last := by
    rw [hdata, hrow]
    exact h.last
  requests request hrequest := (hrequests request hrequest).congr hrow hdata
  transaction transaction heq := (htransaction transaction heq).congr hrow hdata

theorem sound_start (cnodeUser : CNodeUser) : Sound (start cnodeUser) where
  inOrder := ⟨pairwise_singleton _ _, List.Pairwise.nil, fun _ h ↦ by cases h⟩
  latest n hn := by
    cases mem_singleton.mp hn
    exact Int.le_refl _
  dataRows _ h := by cases h
  last h := absurd rfl h
  requests _ h := by cases h
  transaction _ h := by cases h

theorem Sound.authenticate (h : Sound s) {route : Route} {blockNumber : ℤ}
    (hstep : step s (.authenticate route blockNumber) = .ok s') : Sound s' := by
  obtain ⟨-, hstep⟩ := require_bind_eq_ok.mp hstep
  obtain ⟨hchecked, hstep⟩ := require_bind_eq_ok.mp hstep
  cases hstep
  refine h.of_committed rfl rfl rfl ?_ h.transaction
  intro request hrequest
  rcases mem_append.mp hrequest with hold | hnew
  · exact h.requests request hold
  · cases mem_singleton.mp hnew
    exact ⟨hchecked, Int.le_refl _, fun _ ↦ rfl⟩

theorem Sound.createNewDataRecord (h : Sound s) {index : ℕ}
    (hstep : step s (.createNewDataRecord index) = .ok s') : Sound s' := by
  simp only [step] at hstep
  split at hstep
  · rename_i request _ hrequest
    cases hstep
    refine h.of_committed rfl rfl rfl ?_ ?_
    · exact fun request hmem ↦ h.requests request (mem_of_mem_eraseIdx hmem)
    · intro transaction heq
      cases heq
      exact {
        seen := h.requests request (mem_of_getElem? hrequest)
        clock := rfl
        clock_eq := rfl
        latest := fun _ ↦ rfl
        updated := fun hupdated ↦ by cases hupdated }
  · cases hstep

theorem Sound.update (h : Sound s) (hstep : step s .update = .ok s') : Sound s' := by
  simp only [step] at hstep
  split at hstep
  · rename_i request cnodeUser clock htransaction
    obtain ⟨cnodeUser', hupdate, hstep⟩ := bind_eq_ok.mp hstep
    cases hstep
    have hlocked := h.transaction _ htransaction
    refine h.of_committed rfl rfl rfl h.requests ?_
    intro transaction heq
    cases heq
    have hlatest : cnodeUser.latestBlockNumber = s.cnodeUser.latestBlockNumber :=
      hlocked.latest rfl
    exact {
      seen := hlocked.seen
      clock := hlocked.clock
      clock_eq := (clock_of_updateOf hupdate).trans hlocked.clock_eq
      latest := fun hupdated ↦ by cases hupdated
      updated := fun _ hle ↦ by
        apply latest_of_updateOf hupdate
        · rw [hlatest]
          exact hlocked.seen.older
        · rw [hlatest]
          exact hle }
  · cases hstep

/-- A commit adds the row with the next clock and, unless it was overtaken, with the block number
that the user's row then has. -/
theorem Sound.commit (h : Sound s) (hnot : NotOvertaken s .commit)
    (hstep : step s .commit = .ok s') : Sound s' := by
  simp only [step] at hstep
  split at hstep
  · rename_i request cnodeUser clock htransaction
    cases hstep
    have hlocked := h.transaction _ htransaction
    have hle : s.cnodeUser.latestBlockNumber ≤ request.blockNumber := hnot _ htransaction rfl
    have hlatest : cnodeUser.latestBlockNumber = request.blockNumber := hlocked.updated rfl hle
    have hclock : clock = s.cnodeUser.clock + 1 := hlocked.clock
    have hclock_eq : cnodeUser.clock = clock := hlocked.clock_eq
    constructor
    · constructor
      · show (s.latestBlockNumbers ++ [cnodeUser.latestBlockNumber]).Pairwise (· ≤ ·)
        rw [pairwise_append]
        refine ⟨h.inOrder.latest, pairwise_singleton _ _, fun n hn m hm ↦ ?_⟩
        cases mem_singleton.mp hm
        have := h.latest n hn
        omega
      · show (s.dataRows ++ [_]).Pairwise _
        rw [pairwise_append]
        refine ⟨h.inOrder.committed, pairwise_singleton _ _, fun row hrow later hlater ↦ ?_⟩
        cases mem_singleton.mp hlater
        have := (h.dataRows row hrow).2
        show row.blockNumber ≤ request.blockNumber
        omega
      · intro row hrow other hother hclocks
        rcases mem_append.mp hrow with hrow | hrow
        · have hbound := h.dataRows row hrow
          rcases mem_append.mp hother with hother | hother
          · exact h.inOrder.clocks row hrow other hother hclocks
          · cases mem_singleton.mp hother
            show row.blockNumber ≤ request.blockNumber
            omega
        · cases mem_singleton.mp hrow
          rcases mem_append.mp hother with hother | hother
          · -- the new row has the highest clock
            have hbound := (h.dataRows other hother).1
            have hclocks : clock ≤ other.clock := hclocks
            omega
          · cases mem_singleton.mp hother
            exact Int.le_refl _
    · intro n hn
      show n ≤ cnodeUser.latestBlockNumber
      rcases mem_append.mp hn with hold | hnew
      · have := h.latest n hold
        omega
      · cases mem_singleton.mp hnew
        exact Int.le_refl _
    · intro row hrow
      show row.clock ≤ cnodeUser.clock ∧ row.blockNumber ≤ cnodeUser.latestBlockNumber
      rcases mem_append.mp hrow with hold | hnew
      · have := h.dataRows row hold
        omega
      · cases mem_singleton.mp hnew
        dsimp only
        omega
    · intro _
      exact ⟨_, mem_append_right _ mem_cons_self, hlatest.symm⟩
    · intro request' hrequest
      have hseen := h.requests request' hrequest
      refine ⟨hseen.checked, ?_, fun hnil ↦ absurd hnil (by simp)⟩
      have := hseen.older
      show request'.loaded.latestBlockNumber ≤ cnodeUser.latestBlockNumber
      omega
    · intro transaction heq
      cases heq
  · cases hstep

theorem Sound.step (h : Sound s) {event : Event} (hnot : NotOvertaken s event)
    (hstep : step s event = .ok s') : Sound s' := by
  cases event with
  | authenticate route blockNumber => exact h.authenticate hstep
  | createNewDataRecord index => exact h.createNewDataRecord hstep
  | update => exact h.update hstep
  | commit => exact h.commit hnot hstep
  | rollback =>
    cases hstep
    exact h.of_committed rfl rfl rfl h.requests fun _ heq ↦ by cases heq

/-- A commit after which the rows are in order did not overtake. -/
theorem Sound.notOvertaken (h : Sound s) {event : Event}
    (hinOrder : InOrder (attempt BlockNumbers.step s event)) : NotOvertaken s event := by
  cases event with
  | commit =>
    intro transaction htransaction hupdated
    have hseen := (h.transaction transaction htransaction).seen
    by_cases hnil : s.dataRows = []
    · rw [← hseen.first hnil]
      exact hseen.checked
    · obtain ⟨row, hrow, hlast⟩ := h.last hnil
      have hstep : BlockNumbers.step s .commit = .ok { s with
          cnodeUser := transaction.cnodeUser
          dataRows := s.dataRows ++
            [⟨transaction.clock, transaction.request.route, transaction.request.blockNumber⟩]
          latestBlockNumbers := s.latestBlockNumbers ++ [transaction.cnodeUser.latestBlockNumber]
          transaction := none } := by
        obtain ⟨request, cnodeUser, clock, updated⟩ := transaction
        cases hupdated
        simp only [BlockNumbers.step, htransaction]
      rw [attempt_of_ok _ hstep] at hinOrder
      rw [← hlast]
      have hcommitted := pairwise_append.mp hinOrder.committed
      exact hcommitted.2.2 row hrow _ mem_cons_self
  | authenticate route blockNumber => trivial
  | createNewDataRecord index => trivial
  | update => trivial
  | rollback => trivial

/-- Two requests are authenticated, and the one with the higher block number is committed first. -/
def exampleEvents : List Event :=
  [.authenticate .coliving_users 10, .authenticate .digitalContents 20, .createNewDataRecord 1,
    .update, .commit, .createNewDataRecord 0, .update, .commit]

end BlockNumbers

open BlockNumbers in
/-- The block numbers never go back just when no request is committed after one with a higher block
number that was committed since it was checked. -/
theorem blockNumbers_inOrder_iff (cnodeUser : CNodeUser) (events : List Event) :
    (∀ earlier, earlier <+: events →
      InOrder (replay BlockNumbers.step (BlockNumbers.start cnodeUser) earlier)) ↔
      Along BlockNumbers.step NotOvertaken (BlockNumbers.start cnodeUser) events := by
  apply prefixes_iff_along_of_invariant (J := Sound)
  · exact fun s hs ↦ hs.inOrder
  · exact fun s event hs hnot ↦ attempt_invariant (fun s e s' hs hnot ↦ hs.step hnot) hs hnot
  · exact fun s event hs hinOrder ↦ hs.notOvertaken hinOrder
  · exact sound_start cnodeUser

open BlockNumbers in
/-- The later commit sets the latest block number back from 20 to 10. -/
theorem blockNumbers_not_inOrder :
    ¬ ∀ (cnodeUser : CNodeUser) (events : List Event),
      InOrder (replay BlockNumbers.step (BlockNumbers.start cnodeUser) events) := by
  intro h
  have hlatest := (h ⟨0, 5⟩ exampleEvents).latest
  revert hlatest
  decide

end ColivingSpec
