import ColivingSpec.ContentNode.SyncRequests
import Mathlib.Data.List.Infix

/-!
# Write quorum

After a write the primary requests syncs and waits until one secondary has its clock
(`issueAndWaitForSecondarySyncRequests`, middlewares.js). The model has the ledgers of one user on
all nodes: the data row of each clock, from one on, or none where the row is missing. Nodes write,
sync and merge, the replica set changes, and calls poll clocks in between.
-/

namespace ColivingSpec

open Lib List Function

namespace WriteQuorum

open SyncRequests

/-! ### Ledgers -/

/-- A data row by its table. -/
structure DataRow where
  table : SourceTable
  id : ℕ
  deriving DecidableEq, Repr

/-- The data rows of a user by their clocks, from one on. -/
abbrev Ledger := List (Option DataRow)

/-- What an export has of an entry: it leaves out content lists (exportComponentService.js, lines
37–88). -/
def exported (entry : Option DataRow) : Option DataRow :=
  entry.filter fun row ↦ row.table ≠ .ContentList

/-- What a node has fetched of another node's ledger, from the clock after its own. -/
structure Bundle where
  node : Endpoint
  localMaxClockVal : ℕ
  entries : Ledger
  deriving DecidableEq, Repr

/-! ### Calls -/

/-- What a call reads of its node. -/
structure Config where
  contentNodeEndpoint : Endpoint
  contentNodeIsDebug : Bool
  enforceWriteQuorum : Bool
  manualSyncsDisabled : Bool
  waitingSyncs : WaitingSyncs

/-- What a call reads of its request. -/
structure Request where
  ignoreWriteQuorum : Bool
  enforceWriteQuorumHeader : Option String
  wallet : Option Wallet
  nodeIsPrimary : Bool
  contentNodeEndpoints : Option (List Endpoint)
  deriving DecidableEq, Repr

/-- How a call ends; the ledgers are those at its return. -/
inductive Result where
  | returned (nodes : Endpoint → Ledger)
  | thrown

/-- A call: the secondaries of its request, those whose promises are pending, and the primary's
ledger at the clock that it started from. -/
structure Call where
  enforceWriteQuorum : Bool
  secondaries : List Endpoint
  pending : List Endpoint
  held : Ledger
  result : Option Result

/-- Lines 279–296. -/
def enforceWriteQuorum (config : Config) (req : Request) : Bool :=
  let writeQuorumHeaderTrue := req.enforceWriteQuorumHeader = some "true"
  let writeQuorumHeaderFalse := req.enforceWriteQuorumHeader = some "false"
  let writeQuorumHeaderEmpty :=
    ¬ writeQuorumHeaderFalse ∨ req.enforceWriteQuorumHeader = some "null"
  !req.ignoreWriteQuorum &&
    (writeQuorumHeaderTrue || (writeQuorumHeaderEmpty && config.enforceWriteQuorum))

variable (chars : List Char)

/-- Whether what follows the scheme names a host: `localhost`, or words with dots between them. -/
def startsWithHost : Bool :=
  let isWord (c : Char) : Bool := c.isAlphanum || c = '_' || c = '-'
  "localhost".toList.isPrefixOf chars ||
    match chars.takeWhile isWord, chars.dropWhile isWord with
    | _ :: _, '.' :: c :: _ => isWord c
    | _, _ => false

/-- Whether an address starts here, with its scheme or without. -/
def startsWithUrl : Bool :=
  startsWithHost chars ||
    ["http://".toList, "https://".toList].any fun scheme ↦
      scheme.isPrefixOf chars && startsWithHost (chars.drop scheme.length)

variable (config : Config) (wallet : Wallet) (s : State)

/-- `_isFQDN` (lines 908–914): an address at the start of a line or after a blank. -/
def _isFQDN (url : Endpoint) : Bool :=
  let breaks := [' ', '\t', '\n', '\r', '\u2028', '\u2029']
  config.contentNodeIsDebug ||
    (url.toList.tails.zip (none :: url.toList.map some)).any fun (rest, before) ↦
      before.all breaks.contains && startsWithUrl rest

/-- The secondaries that a call turns to, unless it is short-circuited (lines 299–386). -/
def secondariesToSync (req : Request) (clock : ℕ) : Except String (Wallet × List Endpoint) := do
  require (!config.manualSyncsDisabled) "Cannot proceed due to manualSyncsDisabled"
  match req.wallet.filter (· ≠ ""), req.contentNodeEndpoints with
  | none, _ => .error "req.session.wallet missing"
  | some _, none => .error "this node is not primary or invalid contentNodeEndpoints"
  | some wallet, some contentNodeEndpoints => do
    require req.nodeIsPrimary "this node is not primary or invalid contentNodeEndpoints"
    require (contentNodeEndpoints.head? = some config.contentNodeEndpoint)
      "this node is not the primary for user"
    require (clock ≠ 0) "Failed to retrieve current clock value"
    return (wallet, contentNodeEndpoints.tail.filter fun secondary ↦
      secondary ≠ "" ∧ _isFQDN config secondary)

/-- What `issueSyncRequestsUntilSynced` does before it polls: go on, return, or throw
(stateReconciliationUtils.js, lines 101–122). -/
def issueSyncRequest (secondary : Endpoint) : Except String SyncReq :=
  Prod.snd <$> getNewOrExistingSyncReq config.waitingSyncs wallet config.contentNodeEndpoint
    secondary .Manual .SyncSecondaryFromPrimary true

/-- A call whose promises have all been rejected throws if write quorum is enforced. -/
def failed (enforced : Bool) (nodes : Endpoint → Ledger) : Result :=
  if enforced then .thrown else .returned nodes

variable (toSync : List Endpoint) (node : Endpoint)

/-- The secondaries whose sync was requested, so that their promises are pending. -/
def pendingOf : List Endpoint :=
  toSync.filter fun secondary ↦
    match issueSyncRequest config wallet secondary with
    | .ok (.syncReqToEnqueue _) => true
    | _ => false

/-- The secondaries whose promises are resolved at once, for a sync that was requested before. -/
def duplicatesOf : List Endpoint :=
  toSync.filter fun secondary ↦
    match issueSyncRequest config wallet secondary with
    | .ok (.duplicateSyncReq _) => true
    | _ => false

/-- A call up to its polls: `promiseAny` resolves with the first promise and rejects with the last
(lines 262–401). -/
def startCall (req : Request) (nodes : Endpoint → Ledger) : Call :=
  let enforced := enforceWriteQuorum config req
  let held := nodes config.contentNodeEndpoint
  let secondaries := (req.contentNodeEndpoints.getD []).tail
  match secondariesToSync config req held.length with
  | .error _ => ⟨enforced, secondaries, [], held, some (failed enforced nodes)⟩
  | .ok (wallet, toSync) =>
    let pending := pendingOf config wallet toSync
    let result := if duplicatesOf config wallet toSync ≠ [] then some (.returned nodes)
      else if pending = [] then some (failed enforced nodes)
      else none
    ⟨enforced, secondaries, pending, held, result⟩

/-! ### Steps -/

/-- The ledgers of all nodes, what was fetched and not yet saved, the replica set on the chain, and
the calls. -/
structure State where
  nodes : Endpoint → Ledger
  bundles : List Bundle
  primary : Endpoint
  secondaries : List Endpoint
  calls : List Call

/-- What can happen. -/
inductive Event where
  | write (node : Endpoint) (row : DataRow)
  | fetch (node source : Endpoint) (range : ℕ)
  | save (index : ℕ)
  | deleteAll (node : Endpoint)
  | saveEntries (node secondary : Endpoint) (clockRangeMin range : ℕ)
  | updateReplicaSet (primary : Endpoint) (secondaries : List Endpoint)
  | call (config : Config) (req : Request)
  | poll (index : ℕ) (secondary : Endpoint)
  | giveUp (index : ℕ) (secondary : Endpoint)

/-- Entries behind the ledger of a node. -/
def State.append (entries : Ledger) : State :=
  { s with nodes := Function.update s.nodes node (s.nodes node ++ entries) }

/-- A sync of the node holds its lock. -/
def State.isSyncing : Bool :=
  s.bundles.any fun bundle ↦ bundle.node = node

/-- The entries of a clock range that a node exports and another does not have
(primarySyncFromSecondary.js, lines 280–391). -/
def missing (ledger entries : Ledger) : Ledger :=
  (entries.map exported).filter fun entry ↦ entry.isSome && !ledger.contains entry

/-- One step. -/
def step : Event → Except String State
  | .write node row => .ok (s.append node [some row])
  | .fetch node source range => do
    require (!s.isSyncing node) "Node sync currently in progress"
    require ((s.nodes node).length < (s.nodes source).length) "no new data"
    return { s with bundles := s.bundles ++ [⟨node, (s.nodes node).length,
      (((s.nodes source).drop (s.nodes node).length).take range).map exported⟩] }
  | .save index =>
    match s.bundles[index]? with
    | none => .error "nothing was fetched"
    | some bundle =>
      let s := { s with bundles := s.bundles.eraseIdx index }
      -- clock records are unique, so a ledger that has grown since does not take the entries
      if (s.nodes bundle.node).length = bundle.localMaxClockVal then
        .ok (s.append bundle.node bundle.entries)
      else .ok s
  | .deleteAll node => do
    require (!s.isSyncing node) "Node sync currently in progress"
    return { s with nodes := Function.update s.nodes node [] }
  | .saveEntries node secondary clockRangeMin range => do
    require (!s.isSyncing node) "Node sync currently in progress"
    return s.append node (missing (s.nodes node)
      (((s.nodes secondary).drop clockRangeMin).take range))
  | .updateReplicaSet primary secondaries => .ok { s with primary, secondaries }
  | .call config req => .ok { s with calls := s.calls ++ [startCall config req s.nodes] }
  | .poll index secondary =>
    match s.calls[index]? with
    | none => .error "no such call"
    | some call => do
      require (call.result.isNone ∧ secondary ∈ call.pending) "not waiting"
      if call.held.length ≤ (s.nodes secondary).length then
        return {
          s with calls := s.calls.set index { call with result := some (.returned s.nodes) } }
      else return s
  | .giveUp index secondary =>
    match s.calls[index]? with
    | none => .error "no such call"
    | some call => do
      require (call.result.isNone ∧ secondary ∈ call.pending) "not waiting"
      let pending := call.pending.erase secondary
      let result := if pending = [] then some (failed call.enforceWriteQuorum s.nodes) else none
      return { s with calls := s.calls.set index { call with pending, result } }

/-- No node has anything of the user. -/
def start (primary : Endpoint) (secondaries : List Endpoint) : State :=
  ⟨fun _ ↦ [], [], primary, secondaries, []⟩

/-- The ledgers at the return of a call that has returned. -/
def Call.returned (call : Call) : Option (Endpoint → Ledger) :=
  match call.result with
  | some (.returned nodes) => some nodes
  | _ => none

/-- A call that returns while write quorum is enforced leaves each data row that the primary had
when it started on one of the secondaries. -/
def Call.Replicated (call : Call) : Prop :=
  call.enforceWriteQuorum = true → ∀ nodes ∈ call.returned, ∃ secondary ∈ call.secondaries,
    ∀ entry ∈ call.held, entry.isSome = true → entry ∈ nodes secondary

instance : DecidablePred Call.Replicated := fun _ ↦ inferInstanceAs (Decidable (_ → _))

/-! ### In step with the primary -/

/-- The nodes whose clocks say something: the secondaries, and those that calls wait for. -/
def State.following (secondaries : List Endpoint) : List Endpoint :=
  secondaries ++ (s.calls.filter fun call ↦ call.result.isNone).flatMap Call.pending

/-- What these nodes have, and will have after a sync, is the beginning of the primary's ledger, and
so is what waiting calls started from. -/
structure Follows (s : State) (primary : Endpoint) (secondaries : List Endpoint) : Prop where
  ledgers : ∀ node ∈ s.following secondaries, s.nodes node <+: s.nodes primary
  held : ∀ call ∈ s.calls, call.result.isNone = true → call.held <+: s.nodes primary
  bundles : ∀ bundle ∈ s.bundles, bundle.node ∈ s.following secondaries →
    (s.nodes bundle.node).length = bundle.localMaxClockVal →
    s.nodes bundle.node ++ bundle.entries <+: s.nodes primary

instance (s : State) (primary : Endpoint) (secondaries : List Endpoint) :
    Decidable (Follows s primary secondaries) :=
  decidable_of_iff (_ ∧ _ ∧ _) ⟨fun h ↦ ⟨h.1, h.2.1, h.2.2⟩, fun h ↦ ⟨h.1, h.2, h.3⟩⟩

/-- Writes and merges are made on the primary, which is not wiped, and syncs fetch from it; no
content list is written; a node becomes the primary only if the others follow it; calls are made on
the primary, with its secondaries. -/
def InStep : Event → Prop
  | .write node row => node = s.primary ∧ row.table ≠ .ContentList
  | .fetch _ source _ => source = s.primary
  | .deleteAll node => node ≠ s.primary
  | .saveEntries node _ _ _ => node = s.primary
  | .updateReplicaSet primary secondaries => Follows s primary secondaries
  | .call config req => config.contentNodeEndpoint = s.primary ∧
      ∀ secondary ∈ (req.contentNodeEndpoints.getD []).tail, secondary ∈ s.secondaries
  | _ => True

instance (s : State) : DecidablePred (InStep s) := fun event ↦
  match event with
  | .write _ _ => inferInstanceAs (Decidable (_ ∧ _))
  | .fetch _ _ _ => inferInstanceAs (Decidable (_ = _))
  | .save _ => .isTrue trivial
  | .deleteAll _ => inferInstanceAs (Decidable (_ ≠ _))
  | .saveEntries _ _ _ _ => inferInstanceAs (Decidable (_ = _))
  | .updateReplicaSet _ _ => inferInstanceAs (Decidable (Follows _ _ _))
  | .call _ _ => inferInstanceAs (Decidable (_ ∧ _))
  | .poll _ _ => .isTrue trivial
  | .giveUp _ _ => .isTrue trivial

/-- What a run in step keeps. -/
structure Sound (s : State) : Prop where
  follows : Follows s s.primary s.secondaries
  replicable : ∀ node, ∀ entry ∈ s.nodes node, exported entry = entry
  fetched : ∀ bundle ∈ s.bundles, ∀ entry ∈ bundle.entries, exported entry = entry
  clocks : ∀ bundle ∈ s.bundles, bundle.localMaxClockVal ≤ (s.nodes bundle.node).length
  pending : ∀ call ∈ s.calls, call.pending ⊆ call.secondaries
  replicated : ∀ call ∈ s.calls, call.Replicated

variable {s s' : State} {primary node : Endpoint} {secondaries : List Endpoint} {entries : Ledger}

theorem exported_exported (entry : Option DataRow) :
    exported (exported entry) = exported entry := by
  simp [exported, Option.filter_filter]

/-- Nothing is lost on the way where no content lists are. -/
theorem map_exported (h : ∀ entry ∈ entries, exported entry = entry) :
    entries.map exported = entries := by
  rw [map_congr_left h, map_id']

theorem mem_following : node ∈ s.following secondaries ↔
    node ∈ secondaries ∨ ∃ call ∈ s.calls, call.result.isNone = true ∧ node ∈ call.pending := by
  simp [State.following, and_assoc]

@[simp] theorem nodes_append_self : (s.append node entries).nodes node = s.nodes node ++ entries :=
  update_self ..

theorem nodes_append_of_ne {other : Endpoint} (hne : other ≠ node) :
    (s.append node entries).nodes other = s.nodes other :=
  update_of_ne hne ..

/-- Every ledger is the beginning of what it becomes. -/
theorem nodes_prefix_append (other : Endpoint) :
    s.nodes other <+: (s.append node entries).nodes other := by
  by_cases hother : other = node
  · rw [hother, nodes_append_self]
    exact prefix_append _ _
  · rw [nodes_append_of_ne hother]

theorem exported_append (h : ∀ other, ∀ entry ∈ s.nodes other, exported entry = entry)
    (hentries : ∀ entry ∈ entries, exported entry = entry) :
    ∀ other, ∀ entry ∈ (s.append node entries).nodes other, exported entry = entry := by
  intro other entry hentry
  by_cases hother : other = node
  · rw [hother, nodes_append_self] at hentry
    rcases mem_append.mp hentry with hold | hnew
    · exact h node entry hold
    · exact hentries entry hnew
  · rw [nodes_append_of_ne hother] at hentry
    exact h other entry hentry

/-- The others go on following a primary whose ledger grows. -/
theorem Follows.append_primary (h : Follows s primary secondaries)
    (hclocks : ∀ bundle ∈ s.bundles, bundle.localMaxClockVal ≤ (s.nodes bundle.node).length) :
    Follows (s.append primary entries) primary secondaries where
  ledgers other hother := by
    by_cases hne : other = primary
    · rw [hne]
    · rw [nodes_append_of_ne hne]
      exact (h.ledgers other hother).trans (nodes_prefix_append primary)
  held call hcall hwaiting := (h.held call hcall hwaiting).trans (nodes_prefix_append primary)
  bundles bundle hbundle hfollowing hlength := by
    by_cases hne : bundle.node = primary
    · -- a bundle of the primary itself still fits only if nothing was appended
      have hclock := hclocks bundle hbundle
      rw [hne, nodes_append_self, length_append] at hlength
      rw [hne] at hclock
      have hnil : entries = [] := eq_nil_of_length_eq_zero (by omega)
      subst hnil
      have hfits := h.bundles bundle hbundle hfollowing (by rw [hne]; simpa using hlength)
      rw [hne] at hfits ⊢
      simpa using hfits
    · rw [nodes_append_of_ne hne] at hlength ⊢
      exact (h.bundles bundle hbundle hfollowing hlength).trans (nodes_prefix_append primary)

/-- A node that gets another beginning of the primary's ledger goes on following, if no bundle fits
behind it but one that follows as well. -/
theorem Follows.update (h : Follows s primary secondaries) {ledger : Ledger} {bundles : List Bundle}
    (hne : node ≠ primary) (hsub : bundles ⊆ s.bundles)
    (hledger : node ∈ s.following secondaries → ledger <+: s.nodes primary)
    (hbundles : ∀ bundle ∈ bundles, bundle.node = node → node ∈ s.following secondaries →
      ledger.length = bundle.localMaxClockVal → ledger ++ bundle.entries <+: s.nodes primary) :
    Follows { s with nodes := update s.nodes node ledger, bundles } primary
      secondaries where
  ledgers other hother := by
    dsimp only
    rw [update_of_ne hne.symm]
    by_cases heq : other = node
    · rw [heq, update_self]
      exact hledger (heq ▸ hother)
    · rw [update_of_ne heq]
      exact h.ledgers other hother
  held call hcall hwaiting := by
    dsimp only
    rw [update_of_ne hne.symm]
    exact h.held call hcall hwaiting
  bundles bundle hbundle hfollowing hlength := by
    dsimp only at hlength ⊢
    rw [update_of_ne hne.symm]
    by_cases heq : bundle.node = node
    · rw [heq, update_self] at hlength ⊢
      exact hbundles bundle hbundle heq (heq ▸ hfollowing) hlength
    · rw [update_of_ne heq] at hlength ⊢
      exact h.bundles bundle (hsub hbundle) hfollowing hlength

/-! ### Steps of a run in step -/

theorem sound_start (primary : Endpoint) (secondaries : List Endpoint) :
    Sound (start primary secondaries) where
  follows := {
    ledgers := fun _ _ ↦ nil_prefix
    held := fun _ hcall ↦ by cases hcall
    bundles := fun _ hbundle ↦ by cases hbundle }
  replicable _ _ hentry := by cases hentry
  fetched _ hbundle := by cases hbundle
  clocks _ hbundle := by cases hbundle
  pending _ hcall := by cases hcall
  replicated _ hcall := by cases hcall

/-- Entries behind the primary's ledger. -/
theorem Sound.append_primary (h : Sound s) (hnode : node = s.primary)
    (hentries : ∀ entry ∈ entries, exported entry = entry) : Sound (s.append node entries) where
  follows := by
    rw [hnode]
    exact h.follows.append_primary h.clocks
  replicable := exported_append h.replicable hentries
  fetched := h.fetched
  clocks bundle hbundle :=
    (h.clocks bundle hbundle).trans (nodes_prefix_append bundle.node).length_le
  pending := h.pending
  replicated := h.replicated

theorem Sound.fetch (h : Sound s) {source : Endpoint} {range : ℕ} (hsource : source = s.primary)
    (hstep : step s (.fetch node source range) = .ok s') : Sound s' := by
  obtain ⟨-, hstep⟩ := require_bind_eq_ok.mp hstep
  obtain ⟨-, hstep⟩ := require_bind_eq_ok.mp hstep
  cases hstep
  have hexported : ∀ entry ∈ ((s.nodes source).drop (s.nodes node).length).take range,
      exported entry = entry := fun entry hentry ↦
    h.replicable source entry (mem_of_mem_drop (mem_of_mem_take hentry))
  rw [map_exported hexported]
  refine ⟨⟨h.follows.ledgers, h.follows.held, ?_⟩, h.replicable, ?_, ?_, h.pending, h.replicated⟩
  · intro bundle hbundle hfollowing hlength
    rcases mem_append.mp hbundle with hold | hnew
    · exact h.follows.bundles bundle hold hfollowing hlength
    · cases mem_singleton.mp hnew
      -- the ledger and what comes behind it are the beginning of the primary's
      have hfront := prefix_iff_eq_take.mp (h.follows.ledgers node hfollowing)
      rw [hsource]
      nth_rewrite 1 [hfront]
      rw [← take_add]
      exact take_prefix _ _
  · intro bundle hbundle
    rcases mem_append.mp hbundle with hold | hnew
    · exact h.fetched bundle hold
    · cases mem_singleton.mp hnew
      exact hexported
  · intro bundle hbundle
    rcases mem_append.mp hbundle with hold | hnew
    · exact h.clocks bundle hold
    · cases mem_singleton.mp hnew
      exact Nat.le_refl _

/-- A bundle that is dropped. -/
theorem Sound.dropBundles (h : Sound s) {bundles : List Bundle} (hsub : bundles ⊆ s.bundles) :
    Sound { s with bundles } where
  follows := ⟨h.follows.ledgers, h.follows.held, fun bundle hbundle ↦
    h.follows.bundles bundle (hsub hbundle)⟩
  replicable := h.replicable
  fetched bundle hbundle := h.fetched bundle (hsub hbundle)
  clocks bundle hbundle := h.clocks bundle (hsub hbundle)
  pending := h.pending
  replicated := h.replicated

variable {index : ℕ} (config : Config)

theorem Sound.save (h : Sound s) (hstep : step s (.save index) = .ok s') :
    Sound s' := by
  simp only [step] at hstep
  split at hstep
  · cases hstep
  · rename_i bundle hbundle
    have hmem : bundle ∈ s.bundles := mem_of_getElem? hbundle
    have hsub : s.bundles.eraseIdx index ⊆ s.bundles := eraseIdx_subset
    have hdropped := h.dropBundles hsub
    split at hstep
    · rename_i hlength
      cases hstep
      by_cases hnode : bundle.node = s.primary
      · exact hdropped.append_primary hnode (h.fetched bundle hmem)
      · refine ⟨?_, exported_append h.replicable (h.fetched bundle hmem), hdropped.fetched, ?_,
          h.pending, h.replicated⟩
        · apply h.follows.update hnode hsub
          · exact fun hfollowing ↦ h.follows.bundles bundle hmem hfollowing hlength
          · intro other hother hsame hfollowing hfits
            -- another bundle of the node fits behind this one only if this one is empty
            have hclock := h.clocks other (hsub hother)
            rw [hsame] at hclock
            have hfits : (s.nodes bundle.node ++ bundle.entries).length =
              other.localMaxClockVal := hfits
            rw [length_append] at hfits
            have hnil : bundle.entries = [] := eq_nil_of_length_eq_zero (by omega)
            rw [hnil, append_nil, ← hsame]
            apply h.follows.bundles other (hsub hother) (hsame ▸ hfollowing)
            rw [hsame]
            omega
        · intro other hother
          have hgrown : s.nodes other.node <+:
              (s.append bundle.node bundle.entries).nodes other.node :=
            nodes_prefix_append other.node
          exact (hdropped.clocks other hother).trans hgrown.length_le
    · cases hstep
      exact hdropped

theorem Sound.deleteAll (h : Sound s) (hnode : node ≠ s.primary)
    (hstep : step s (.deleteAll node) = .ok s') : Sound s' := by
  obtain ⟨hfree, hstep⟩ := require_bind_eq_ok.mp hstep
  cases hstep
  have hnone : ∀ bundle ∈ s.bundles, bundle.node ≠ node := by
    simpa [State.isSyncing] using hfree
  refine ⟨?_, ?_, h.fetched, ?_, h.pending, h.replicated⟩
  · apply h.follows.update hnode (Subset.refl _)
    · exact fun _ ↦ nil_prefix
    · exact fun bundle hbundle hsame ↦ absurd hsame (hnone bundle hbundle)
  · intro other entry hentry
    dsimp only at hentry
    by_cases hother : other = node
    · rw [hother, update_self] at hentry
      cases hentry
    · rw [update_of_ne hother] at hentry
      exact h.replicable other entry hentry
  · intro bundle hbundle
    dsimp only
    rw [update_of_ne (hnone bundle hbundle)]
    exact h.clocks bundle hbundle

/-! ### Calls of a run in step -/

/-- A manual sync request is never a duplicate. -/
theorem issueSyncRequest_ne_duplicate (wallet : Wallet) (secondary : Endpoint)
    (job : SyncRequests.Job) :
    issueSyncRequest config wallet secondary ≠ .ok (.duplicateSyncReq job) := by
  unfold issueSyncRequest getNewOrExistingSyncReq
  split
  · intro h
    cases h
  · intro h
    cases h

theorem duplicatesOf_eq_nil (wallet : Wallet) (toSync : List Endpoint) :
    duplicatesOf config wallet toSync = [] := by
  apply filter_eq_nil_iff.mpr
  intro secondary _
  split
  · rename_i job hjob
    exact absurd hjob (issueSyncRequest_ne_duplicate config wallet secondary job)
  · exact Bool.false_ne_true

/-- A waiting call has promised nothing. -/
theorem Call.replicated_of_waiting {call : Call} (h : call.result = none) : call.Replicated := by
  intro _ nodes hreturned
  simp [Call.returned, h] at hreturned

/-- A call whose promises have all been rejected returns only where write quorum is not enforced. -/
theorem Call.replicated_of_failed {call : Call} {nodes : Endpoint → Ledger}
    (h : call.result = some (failed call.enforceWriteQuorum nodes)) : call.Replicated := by
  intro henforced nodes' hreturned
  rw [henforced] at h
  simp [Call.returned, h, failed] at hreturned

/-- A call turns to no others but the secondaries of its request. -/
theorem toSync_subset {config : Config} {req : Request} {clock : ℕ} {wallet : Wallet}
    {toSync : List Endpoint} (h : secondariesToSync config req clock = .ok (wallet, toSync)) :
    toSync ⊆ (req.contentNodeEndpoints.getD []).tail := by
  obtain ⟨-, h⟩ := require_bind_eq_ok.mp h
  split at h
  · cases h
  · cases h
  · rename_i contentNodeEndpoints _ hendpoints
    obtain ⟨-, h⟩ := require_bind_eq_ok.mp h
    obtain ⟨-, h⟩ := require_bind_eq_ok.mp h
    obtain ⟨-, h⟩ := require_bind_eq_ok.mp h
    cases h
    rw [hendpoints]
    exact filter_subset_self _

/-- Before its polls a call waits for some of its secondaries, or has ended otherwise than by
returning while write quorum is enforced. -/
theorem startCall_spec (req : Request) (nodes : Endpoint → Ledger) :
    (startCall config req nodes).held = nodes config.contentNodeEndpoint ∧
      (startCall config req nodes).secondaries = (req.contentNodeEndpoints.getD []).tail ∧
      (startCall config req nodes).pending ⊆ (startCall config req nodes).secondaries ∧
      (startCall config req nodes).Replicated := by
  cases hsync : secondariesToSync config req (nodes config.contentNodeEndpoint).length with
  | error reason =>
    simp only [startCall, hsync]
    exact ⟨trivial, trivial, nil_subset _, Call.replicated_of_failed rfl⟩
  | ok found =>
    simp only [startCall, hsync, duplicatesOf_eq_nil, ne_eq, not_true_eq_false, if_false]
    refine ⟨trivial, trivial, ?_, ?_⟩
    · exact Subset.trans (filter_subset_self _) (toSync_subset hsync)
    · split
      · exact Call.replicated_of_failed rfl
      · exact Call.replicated_of_waiting rfl

theorem Sound.call (h : Sound s) {config : Config} {req : Request}
    (hself : config.contentNodeEndpoint = s.primary)
    (hsecondaries : ∀ secondary ∈ (req.contentNodeEndpoints.getD []).tail,
      secondary ∈ s.secondaries) :
    Sound { s with calls := s.calls ++ [startCall config req s.nodes] } := by
  obtain ⟨hheld, hrequest, hpending, hreplicated⟩ := startCall_spec config req s.nodes
  have hfollowing : ∀ node, node ∈ State.following
      { s with calls := s.calls ++ [startCall config req s.nodes] } s.secondaries →
      node ∈ s.following s.secondaries := by
    intro node hnode
    rcases mem_following.mp hnode with hmember | ⟨call, hcall, hwaiting, hmem⟩
    · exact mem_following.mpr (.inl hmember)
    · rcases mem_append.mp hcall with hold | hnew
      · exact mem_following.mpr (.inr ⟨call, hold, hwaiting, hmem⟩)
      · cases mem_singleton.mp hnew
        have hmem := hpending hmem
        rw [hrequest] at hmem
        exact mem_following.mpr (.inl (hsecondaries node hmem))
  refine ⟨⟨?_, ?_, ?_⟩, h.replicable, h.fetched, h.clocks, ?_, ?_⟩
  · exact fun node hnode ↦ h.follows.ledgers node (hfollowing node hnode)
  · intro call hcall hwaiting
    rcases mem_append.mp hcall with hold | hnew
    · exact h.follows.held call hold hwaiting
    · cases mem_singleton.mp hnew
      rw [hheld, hself]
  · exact fun bundle hbundle hnode ↦ h.follows.bundles bundle hbundle (hfollowing _ hnode)
  · intro call hcall
    rcases mem_append.mp hcall with hold | hnew
    · exact h.pending call hold
    · cases mem_singleton.mp hnew
      exact hpending
  · intro call hcall
    rcases mem_append.mp hcall with hold | hnew
    · exact h.replicated call hold
    · cases mem_singleton.mp hnew
      exact hreplicated

/-- A waiting call goes on with fewer promises, or ends. -/
theorem Sound.setCall (h : Sound s) {call call' : Call} (hcall : s.calls[index]? = some call)
    (hwaiting : call.result.isNone = true) (hheld : call'.held = call.held)
    (hsub : call'.pending ⊆ call.pending) (hsecondaries : call'.secondaries = call.secondaries)
    (hreplicated : call'.Replicated) :
    Sound { s with calls := s.calls.set index call' } := by
  have hmem : call ∈ s.calls := mem_of_getElem? hcall
  have hfollowing : ∀ node, node ∈ State.following
      { s with calls := s.calls.set index call' } s.secondaries →
      node ∈ s.following s.secondaries := by
    intro node hnode
    rcases mem_following.mp hnode with hmember | ⟨other, hother, hopen, hpending⟩
    · exact mem_following.mpr (.inl hmember)
    · rcases mem_or_eq_of_mem_set hother with hold | rfl
      · exact mem_following.mpr (.inr ⟨other, hold, hopen, hpending⟩)
      · exact mem_following.mpr (.inr ⟨call, hmem, hwaiting, hsub hpending⟩)
  refine ⟨⟨?_, ?_, ?_⟩, h.replicable, h.fetched, h.clocks, ?_, ?_⟩
  · exact fun node hnode ↦ h.follows.ledgers node (hfollowing node hnode)
  · intro other hother hopen
    rcases mem_or_eq_of_mem_set hother with hold | rfl
    · exact h.follows.held other hold hopen
    · rw [hheld]
      exact h.follows.held call hmem hwaiting
  · exact fun bundle hbundle hnode ↦ h.follows.bundles bundle hbundle (hfollowing _ hnode)
  · intro other hother
    rcases mem_or_eq_of_mem_set hother with hold | rfl
    · exact h.pending other hold
    · rw [hsecondaries]
      exact Subset.trans hsub (h.pending call hmem)
  · intro other hother
    rcases mem_or_eq_of_mem_set hother with hold | rfl
    · exact h.replicated other hold
    · exact hreplicated

/-- A secondary that follows and has the clock has the ledger that the call started from. -/
theorem Sound.poll (h : Sound s) {secondary : Endpoint}
    (hstep : step s (.poll index secondary) = .ok s') : Sound s' := by
  simp only [step] at hstep
  split at hstep
  · cases hstep
  · rename_i call hcall
    obtain ⟨⟨hwaiting, hpending⟩, hstep⟩ := require_bind_eq_ok.mp hstep
    split at hstep
    · rename_i hclock
      cases hstep
      have hmem : call ∈ s.calls := mem_of_getElem? hcall
      refine h.setCall hcall hwaiting ?_ ?_ ?_ ?_
      · rfl
      · exact Subset.refl _
      · rfl
      intro _ nodes hreturned
      cases hreturned
      refine ⟨secondary, h.pending call hmem hpending, fun entry hentry _ ↦ ?_⟩
      have hledger : s.nodes secondary <+: s.nodes s.primary := by
        apply h.follows.ledgers
        exact mem_following.mpr (.inr ⟨call, hmem, hwaiting, hpending⟩)
      have hheld : call.held <+: s.nodes secondary :=
        prefix_of_prefix_length_le (h.follows.held call hmem hwaiting) hledger hclock
      exact hheld.subset hentry
    · cases hstep
      exact h

theorem Sound.giveUp (h : Sound s) {secondary : Endpoint}
    (hstep : step s (.giveUp index secondary) = .ok s') : Sound s' := by
  simp only [step] at hstep
  split at hstep
  · cases hstep
  · rename_i call hcall
    obtain ⟨⟨hwaiting, -⟩, hstep⟩ := require_bind_eq_ok.mp hstep
    cases hstep
    refine h.setCall hcall hwaiting ?_ ?_ ?_ ?_
    · rfl
    · exact erase_subset
    · rfl
    · split
      · exact Call.replicated_of_failed rfl
      · exact Call.replicated_of_waiting rfl

theorem Sound.step (h : Sound s) {event : Event} (hin : InStep s event)
    (hstep : step s event = .ok s') : Sound s' := by
  cases event with
  | write node row =>
    cases hstep
    apply h.append_primary hin.1
    intro entry hentry
    cases mem_singleton.mp hentry
    exact Option.filter_eq_some_iff.mpr ⟨rfl, by simpa using hin.2⟩
  | fetch node source range => exact h.fetch hin hstep
  | save index => exact h.save hstep
  | deleteAll node => exact h.deleteAll hin hstep
  | saveEntries node secondary clockRangeMin range =>
    obtain ⟨-, hstep⟩ := require_bind_eq_ok.mp hstep
    cases hstep
    apply h.append_primary hin
    intro entry hentry
    obtain ⟨original, -, rfl⟩ := mem_map.mp (mem_filter.mp hentry).1
    exact exported_exported original
  | updateReplicaSet primary secondaries =>
    cases hstep
    have hfollows : Follows s primary secondaries := hin
    exact ⟨⟨hfollows.ledgers, hfollows.held, hfollows.bundles⟩, h.replicable, h.fetched, h.clocks,
      h.pending, h.replicated⟩
  | call config req =>
    cases hstep
    exact h.call hin.1 hin.2
  | poll index secondary => exact h.poll hstep
  | giveUp index secondary => exact h.giveUp hstep

/-! ### Two runs -/

/-- A request of the user with the replica set. -/
def exampleRequest (contentNodeEndpoints : List Endpoint) : Request :=
  ⟨false, none, some "0xa1", true, some contentNodeEndpoints⟩

end WriteQuorum

end ColivingSpec
