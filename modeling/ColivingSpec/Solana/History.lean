import ColivingSpec.Lib.Checked
import ColivingSpec.Lib.PagedListing
import Mathlib.Data.List.Nodup
import Mathlib.Data.List.TakeWhile

/-!
# The history of a program

The transactions of an address as the Solana RPC lists them, newest first, and what the indexers
of the discovery node share: one page read up to the first transaction that is known, and the
batches of a run handed on in slices.
-/

namespace ColivingSpec.Solana

open Lib List

/-- A transaction signature, in base58. -/
abbrev Signature := String

/-- An entry of `get_signatures_for_address`. -/
structure Tx where
  signature : Signature
  slot : ℕ
  deriving DecidableEq, Repr

/-- `solana/constants.py:4`. -/
def fetchTxSignaturesBatchSize : ℕ := 1000

/-- `solana/constants.py:7`. -/
def writeTxSignaturesBatchSize : ℕ := 500

/-- `solana/constants.py:10`. -/
def txSignaturesMaxBatches : ℕ := 100

/-- `solana/constants.py:13`. -/
def txSignaturesResizeLength : ℕ := 75

/-- The same number in each of the indexers, such as `index_solana_plays.py:41`. -/
def txSignaturesProcessingSize : ℕ := 100

/-- The finalized transactions of an address, newest first. A signature names one of them, and
the slots follow the order. -/
structure History where
  txs : List Tx
  distinct : (txs.map Tx.signature).Nodup
  ordered : txs.Pairwise fun newer older ↦ older.slot ≤ newer.slot

namespace History

/-- A transaction that may come next. -/
def Accepts (history : History) (tx : Tx) : Prop :=
  tx.signature ∉ history.txs.map Tx.signature ∧ ∀ older ∈ history.txs, older.slot ≤ tx.slot

instance (history : History) (tx : Tx) : Decidable (history.Accepts tx) :=
  inferInstanceAs (Decidable (_ ∧ _))

/-- The history with one more transaction. -/
def add (history : History) (tx : Tx) (h : history.Accepts tx) : History where
  txs := tx :: history.txs
  distinct := List.nodup_cons.mpr ⟨h.1, history.distinct⟩
  ordered := List.pairwise_cons.mpr ⟨h.2, history.ordered⟩

@[simp] theorem add_txs (history : History) (tx : Tx) (h : history.Accepts tx) :
    (history.add tx h).txs = tx :: history.txs := rfl

theorem nodup (history : History) : history.txs.Nodup :=
  Nodup.of_map _ history.distinct

/-- Two entries with one signature are one. -/
theorem eq_of_signature (history : History) {tx tx' : Tx} (h : tx ∈ history.txs)
    (h' : tx' ∈ history.txs) (hsig : tx.signature = tx'.signature) : tx = tx' :=
  inj_on_of_nodup_map history.distinct h h' hsig

/-- What is listed later has no higher slot. -/
theorem slot_le (history : History) {newer older : List Tx} (h : newer ++ older <:+ history.txs)
    {tx tx' : Tx} (htx : tx ∈ newer) (htx' : tx' ∈ older) : tx'.slot ≤ tx.slot :=
  (pairwise_append.mp (history.ordered.sublist h.sublist)).2.2 tx htx tx' htx'

/-- A transaction that is one of the rows is found by its signature. -/
theorem signature_mem_iff (history : History) {table : List Tx}
    (htable : ∀ row ∈ table, row ∈ history.txs) {tx : Tx} (htx : tx ∈ history.txs) :
    tx.signature ∈ table.map Tx.signature ↔ tx ∈ table := by
  constructor
  · intro hsig
    obtain ⟨row, hrow, hsame⟩ := mem_map.mp hsig
    rwa [← history.eq_of_signature (htable row hrow) htx hsame]
  · exact mem_map_of_mem

end History

/-- A history of 101 transactions, one in each slot from 0 to 100. -/
def onePerSlot101 : History where
  txs := (List.range 101).reverse.map fun slot ↦ ⟨String.ofList (List.replicate slot '1'), slot⟩
  distinct := by
    rw [List.map_map]
    refine List.Nodup.map ?_ (List.nodup_reverse.mpr List.nodup_range)
    intro slot slot' h
    simpa using congrArg (fun txSig ↦ txSig.toList.length) h
  ordered := by
    rw [List.pairwise_map, List.pairwise_reverse]
    exact List.pairwise_lt_range.imp Nat.le_of_lt

/-- The highest slot of a table, or the slot assumed for an empty one. -/
def highestSlot (ofEmpty : ℕ) (slots : List ℕ) : ℕ := slots.max?.getD ofEmpty

theorem slot_le_highestSlot (ofEmpty : ℕ) {slots : List ℕ} {slot : ℕ} (h : slot ∈ slots) :
    slot ≤ highestSlot ofEmpty slots := by
  cases hmax : slots.max? with
  | none => simp [max?_eq_none_iff.mp hmax] at h
  | some highest =>
    rw [highestSlot, hmax]
    exact (max?_le_iff hmax).mp (Nat.le_refl highest) slot h

/-- `solana_client_manager.py:81`: the page of at most `limit` transactions before a signature. -/
def getSignaturesForAddress (history : History) (before : Option Signature) (limit : ℕ) :
    List Tx :=
  (after Tx.signature history.txs before).take limit

/-- The loop of an indexer over the pages: the program's history, before the signature of the
last transaction seen. -/
def overHistory {σ : Type} (history : History) (step : σ → List Tx → σ × Bool) (answers : ℕ)
    (before : Option Signature) (s : σ) : σ × Bool :=
  overPages Tx.signature
    (fun before ↦ getSignaturesForAddress history before fetchTxSignaturesBatchSize)
    step answers before s

/-- A request more than there are transactions suffices. -/
theorem overHistory_ends {σ : Type} (history : History) (step : σ → List Tx → σ × Bool) (s : σ)
    (before : Option Signature) :
    (overHistory history step (history.txs.length + 1) before s).2 = true := by
  have hle := (after_suffix Tx.signature history.txs before).length_le
  exact overPages_ends history.distinct (by omega) s

/-- What each page adds to what was collected, a loop that comes to its end has collected: up to
a relation that appending keeps, the history down to the first transaction that stops it. -/
theorem overHistory_collects {σ : Type} (R : List Tx → List Tx → Prop) (collected : σ → List Tx)
    (stop keep : Tx → Bool) (hrefl : ∀ a, R a a) (htrans : ∀ a b c, R a b → R b c → R a c)
    (happend : ∀ a b c, R a b → R (a ++ c) (b ++ c))
    {history : History} {step : σ → List Tx → σ × Bool} (hstop : ∀ s page, (step s page).2 = page.any stop)
    (hcollected : ∀ s page, R (collected (step s page).1)
      (collected s ++ (page.takeWhile fun tx ↦ !stop tx).filter keep))
    {answers : ℕ} {before : Option Signature} {s : σ}
    (hdone : (overHistory history step answers before s).2) :
    R (collected (overHistory history step answers before s).1)
      (collected s ++ ((after Tx.signature history.txs before).takeWhile
        fun tx ↦ !stop tx).filter keep) := by
  refine overPages_induct
    (I := fun read s' ↦ (∀ tx ∈ read, stop tx = false) ∧
      R (collected s') (collected s ++ read.filter keep))
    (F := fun s' ↦ R (collected s') (collected s ++
      ((after Tx.signature history.txs before).takeWhile fun tx ↦ !stop tx).filter keep))
    (by decide : 0 < fetchTxSignaturesBatchSize) history.distinct ?_ ?_ ?_ hdone
  · intro read page rest s' hread _ ⟨hgo, hs'⟩
    have hpage := htrans _ _ _ (hcollected s' page) (happend _ _ _ hs')
    rw [append_assoc, ← filter_append] at hpage
    rw [hstop]
    by_cases hany : page.any stop = true
    · rw [if_pos hany]
      obtain ⟨tx, htx, htxstop⟩ := any_eq_true.mp hany
      have htake : (page ++ rest).takeWhile (fun tx ↦ !stop tx)
          = page.takeWhile fun tx ↦ !stop tx := by
        rw [takeWhile_append, if_neg]
        intro hlen
        have hall := takeWhile_eq_self_iff.mp
          (( takeWhile_prefix _).eq_of_length hlen)
        simpa [htxstop] using hall tx htx
      rw [hread, takeWhile_append_of_pos (by simpa using hgo), htake]
      exact hpage
    · rw [if_neg hany]
      have hpagego : ∀ tx ∈ page, stop tx = false := by simpa using hany
      rw [takeWhile_eq_self_iff.mpr (by simpa using hpagego)] at hpage
      refine ⟨?_, hpage⟩
      intro tx htx
      rcases mem_append.mp htx with htx | htx
      · exact hgo tx htx
      · exact hpagego tx htx
  · rintro s' ⟨hgo, hs'⟩
    rwa [takeWhile_eq_self_iff.mpr (by simpa using hgo)]
  · exact ⟨by simp, by simpa using hrefl (collected s)⟩

/-- The loop over one page, up to the first transaction that is known
(`index_rewards_manager.py:398–421`; `index_user_bank.py:439–463`,
`index_solana_plays.py:603–624` and `solana_program_indexer.py:229–249` are the same). A slot
that is not new is looked up in the table only when it is above the minimum, if there is one. -/
def readPage (latestProcessedSlot : ℕ) (minSlot : Option ℕ) (checkTxExists : Signature → Bool) :
    List Tx → List Tx × Bool
  | [] => ([], false)
  | tx :: txs =>
    let rest := readPage latestProcessedSlot minSlot checkTxExists txs
    if tx.slot > latestProcessedSlot then
      (tx :: rest.1, rest.2)
    else if minSlot.all fun minSlot ↦ decide (tx.slot > minSlot) then
      if checkTxExists tx.signature then ([], true) else (tx :: rest.1, rest.2)
    else
      rest

section ReadPage

variable (latestProcessedSlot : ℕ) (minSlot : Option ℕ) (checkTxExists : Signature → Bool)

/-- The slot is above the minimum, if there is one. -/
def aboveMinimum (tx : Tx) : Bool := minSlot.all fun minSlot ↦ decide (tx.slot > minSlot)

/-- The transaction ends the search. -/
def isIntersection (tx : Tx) : Bool :=
  decide (tx.slot ≤ latestProcessedSlot) && aboveMinimum minSlot tx && checkTxExists tx.signature

/-- The transaction is taken unless the search has ended. -/
def isTaken (tx : Tx) : Bool := decide (tx.slot > latestProcessedSlot) || aboveMinimum minSlot tx

/-- A page is read up to the first transaction that ends the search. -/
theorem readPage_eq (page : List Tx) :
    readPage latestProcessedSlot minSlot checkTxExists page =
      ((page.takeWhile fun tx ↦
          !isIntersection latestProcessedSlot minSlot checkTxExists tx).filter
            (isTaken latestProcessedSlot minSlot),
        page.any (isIntersection latestProcessedSlot minSlot checkTxExists)) := by
  induction page with
  | nil => rfl
  | cons tx page ih =>
    unfold readPage
    rw [ih]
    rcases Nat.lt_or_ge latestProcessedSlot tx.slot with hnew | hold
    · simp [isIntersection, isTaken, hnew, Nat.not_le.mpr hnew]
    · have hmin : minSlot.all (fun minSlot ↦ decide (tx.slot > minSlot))
          = aboveMinimum minSlot tx := rfl
      rw [hmin]
      cases habove : aboveMinimum minSlot tx <;> cases hexists : checkTxExists tx.signature <;>
        simp [isIntersection, isTaken, habove, hexists, hold, Nat.not_lt.mpr hold]

/-- Of the entries that count, the reader has read those that are not rows, when these are the
newest. -/
theorem filter_unread (history : History) {latestProcessedSlot : ℕ} {minSlot : Option ℕ}
    {p : Tx → Bool} {table l newer older : List Tx} (hl : ∀ tx ∈ l, tx ∈ history.txs)
    (htable : ∀ row ∈ table, row ∈ history.txs ∧ row.slot ≤ latestProcessedSlot)
    (hcounts : ∀ row ∈ table, aboveMinimum minSlot row = true → p row = true)
    (hsplit : l.filter p = newer ++ older) (hnewer : ∀ tx ∈ newer, tx ∉ table)
    (holder : ∀ tx ∈ older, tx ∈ table ∧ aboveMinimum minSlot tx = true) :
    (l.takeWhile fun tx ↦ !isIntersection latestProcessedSlot minSlot
      (fun txSig ↦ decide (txSig ∈ table.map Tx.signature)) tx).filter p = newer := by
  have hin : ∀ tx ∈ l, tx.signature ∈ table.map Tx.signature ↔ tx ∈ table := fun tx htx ↦
    history.signature_mem_iff (fun row hrow ↦ (htable row hrow).1) (hl tx htx)
  have hmem : ∀ tx ∈ newer ++ older, tx ∈ l := fun tx htx ↦
    (mem_filter.mp (hsplit ▸ htx)).1
  apply filter_takeWhile_eq hsplit
  · intro tx htx
    have hsig := (hin tx (hmem tx (mem_append_left _ htx))).not.mpr (hnewer tx htx)
    simp [isIntersection, hsig]
  · intro tx htx
    obtain ⟨hrow, habove⟩ := holder tx htx
    have hsig := (hin tx (hmem tx (mem_append_right _ htx))).mpr hrow
    simp only [isIntersection, habove, hsig, (htable tx hrow).2, decide_true, Bool.and_true]
  · intro tx htx hknown
    simp only [isIntersection, Bool.and_eq_true, decide_eq_true_eq] at hknown
    exact hcounts tx ((hin tx htx).mp hknown.2) hknown.1.2

end ReadPage

/-- Keeps the oldest batches when there are too many (`index_rewards_manager.py:432–437`). -/
def resize {α : Type} (batches : List α) : List α :=
  if batches.length > txSignaturesMaxBatches then
    batches.drop (batches.length - txSignaturesResizeLength)
  else
    batches

theorem resize_suffix {α : Type} (batches : List α) : resize batches <:+ batches := by
  unfold resize
  split
  · exact drop_suffix _ _
  · exact suffix_rfl

theorem suffix_append_right {α : Type} (a b c : List α) (h : a <:+ b) : a ++ c <:+ b ++ c := by
  obtain ⟨front, rfl⟩ := h
  exact ⟨front, (append_assoc front a c).symm⟩

/-- `index_solana_plays.py:503–504`, `index_spl_token.py:272–273`: pushes to the head of the queue
of traversed transactions in Redis. -/
def cacheTraversedTx (queue : List Tx) (tx : Tx) : List Tx := tx :: queue

/-- `index_solana_plays.py:631–635`, `index_spl_token.py:367–371`: the last transaction of a page. -/
def cachePage (queue page : List Tx) : List Tx :=
  match page.getLast? with
  | some lastTx => cacheTraversedTx queue lastTx
  | none => queue

/-- `index_solana_plays.py:509–531`, `index_spl_token.py:278–299`: the first queued transaction above
a slot, and what the queue keeps. When one is left behind the one that is taken, it is dropped. -/
def fetchTraversedTxFromCache (latestDbSlot : ℕ) : List Tx → Option Tx × List Tx
  | [] => (none, [])
  | [tx] => (if tx.slot > latestDbSlot then some tx else none, [])
  | [tx, _] => (if tx.slot > latestDbSlot then some tx else none, [])
  | tx :: queue =>
    if tx.slot > latestDbSlot then (some tx, queue)
    else fetchTraversedTxFromCache latestDbSlot queue

/-- The batches of a walk, and the queue of traversed transactions. -/
structure Walk where
  batches : List (List Tx)
  traversed : List Tx
  deriving DecidableEq, Repr

/-- Batches at the end hold transactions at the end. -/
theorem flatten_suffix {α : Type} {batches batches' : List (List α)} (h : batches <:+ batches') :
    batches.flatten <:+ batches'.flatten := by
  obtain ⟨front, rfl⟩ := h
  rw [flatten_append]
  exact suffix_append _ _

end ColivingSpec.Solana
