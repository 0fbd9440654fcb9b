import ColivingSpec.Lib.Json

/-!
# Associated wallets

The metadata of a user names the wallets the user claims, each with a signature. An update takes the
user's rows of the chain back, adds a row for each wallet that is signed and not taken by another
user, and marks those that were there before and are not named any more as deleted. What fails on
the way is logged, and the rows stay as far as they have come. The module follows `users.py`.
-/

namespace ColivingSpec.Discovery

open List

open Lib (Dict Json)

namespace AssociatedWallets

/-- `WalletChain`: `associated_wallet.py:8–10`. -/
inductive WalletChain where
  | eth
  | sol
  deriving DecidableEq, Repr

/-- A row of `associated_wallets`: `associated_wallet.py:13–31`. -/
structure AssociatedWallet where
  user_id : ℤ
  wallet : String
  chain : WalletChain
  is_current : Bool
  is_delete : Bool
  blocknumber : ℤ
  blockhash : String
  deriving DecidableEq, Repr

/-- The record of the user an update is about, as far as it is read. -/
structure User where
  user_id : ℤ
  blocknumber : ℤ
  blockhash : String
  deriving DecidableEq, Repr

/-- The libraries that check signatures: `recoverHash` gives the address that signed the id of a
user, or raises; `verify` says whether a key signed it. -/
structure Signatures where
  recoverHash : ℤ → String → Except String String
  verify : ℤ → String → String → Bool

section Update

variable (signatures : Signatures)

variable (chain : WalletChain)

/-- `validate_signature`: `users.py:530–556`. -/
def validate_signature (user_id : ℤ) (associated_wallet signature : String) :
    Except String Bool :=
  match chain with
  | .eth =>
    match signatures.recoverHash user_id signature with
    | .ok signed_wallet => .ok (signed_wallet == associated_wallet)
    | .error message => .error message
  | .sol => .ok (signatures.verify user_id associated_wallet signature)

/-- Whether an entry of the metadata has a valid signature, or raises: `users.py:478–489`. -/
def is_valid_signature (user_id : ℤ) (entry : String × Json) :
    Except String Bool :=
  match entry.2.contains "signature" with
  | .error message => .error message
  | .ok false => .ok false
  | .ok true =>
    match entry.2.getItem "signature" with
    | .error message => .error message
    | .ok (.str signature) => validate_signature signatures chain user_id entry.1 signature
    | .ok _ => .ok false

variable (user_id : ℤ)

variable (chain : WalletChain) (row : AssociatedWallet) (rows : List AssociatedWallet)
  (user_record : User) (associated_wallets : Json)

/-- A row of a user on a chain. -/
def AssociatedWallet.isOf : Bool :=
  decide (row.user_id = user_id ∧ row.chain = chain)

/-- A row that is current and not deleted. -/
def AssociatedWallet.isActive : Bool := row.is_current && !row.is_delete

/-- `wallet_exists`: `users.py:491–502`. -/
def wallet_exists (chain : WalletChain) (wallet : String) : Bool :=
  rows.any fun row ↦ decide (row.wallet = wallet ∧ row.chain = chain) && row.isActive

/-- A new row of a user. -/
def newRow (chain : WalletChain) (is_delete : Bool) (wallet : String) :
    AssociatedWallet where
  user_id := user_record.user_id
  wallet := wallet
  chain := chain
  is_current := true
  is_delete := is_delete
  blocknumber := user_record.blocknumber
  blockhash := user_record.blockhash

/-- The loop over the wallets of the metadata, with the rows and the wallets added so far:
`users.py:477–514`. -/
def addWallets (user_record : User) (chain : WalletChain) :
    List (String × Json) → List AssociatedWallet → List String →
      List AssociatedWallet × Except String (List String)
  | [], rows, added => (rows, .ok added)
  | entry :: rest, rows, added =>
    match is_valid_signature signatures chain user_record.user_id entry with
    | .error message => (rows, .error message)
    | .ok false => addWallets user_record chain rest rows added
    | .ok true =>
      if wallet_exists rows chain entry.1 then addWallets user_record chain rest rows added
      else
        addWallets user_record chain rest (rows ++ [newRow user_record chain false entry.1])
          (added ++ [entry.1])

/-- The rows of a user on a chain are no longer current: `users.py:472–474`. -/
def demote : List AssociatedWallet :=
  rows.map fun row ↦ if row.isOf user_id chain then { row with is_current := false } else row

/-- The wallets of the metadata, none if it is malformed: `users.py:449–453`. -/
def walletsOf : List (String × Json) :=
  (associated_wallets.dict?.getD Dict.empty).items

/-- `previous_wallets`: `users.py:455–469`. -/
def previous_wallets : List String :=
  (rows.filter fun row ↦ row.isOf user_id chain && row.isActive).map (·.wallet)

/-- `update_user_associated_wallets`: `users.py:443–527`. -/
def update_user_associated_wallets (chain : WalletChain) : List AssociatedWallet :=
  match addWallets signatures user_record chain (walletsOf associated_wallets)
    (demote user_record.user_id chain rows) [] with
  | (rows, .error _) => rows
  | (rows', .ok added) =>
    rows' ++ ((previous_wallets user_record.user_id chain rows).filter (· ∉ added)).map
      (newRow user_record chain true)

end Update

/-- An update: the record of a user, what its metadata says, and the chain. -/
structure Update where
  user_record : User
  associated_wallets : Json
  chain : WalletChain

variable (signatures : Signatures) (rows : List AssociatedWallet) (user_record : User)

variable (updates : List Update) (chain : WalletChain) (associated_wallets : Json)

/-- The rows after some updates, from an empty table. -/
def run : List AssociatedWallet :=
  updates.foldl (fun rows update ↦ update_user_associated_wallets signatures rows update.user_record
    update.associated_wallets update.chain) []

/-! ### The property and its condition -/

/-- A wallet is active for a user on a chain. -/
def ActiveFor (user_id : ℤ) (chain : WalletChain) (wallet : String) : Prop :=
  ∃ row ∈ rows, row.isOf user_id chain = true ∧ row.wallet = wallet ∧ row.isActive = true

instance (rows : List AssociatedWallet) (user_id : ℤ) (chain : WalletChain) (wallet : String) :
    Decidable (ActiveFor rows user_id chain wallet) :=
  inferInstanceAs (Decidable (∃ row ∈ rows, _))

/-- No wallet is active for two users on a chain. -/
def Exclusive : Prop :=
  ∀ user_id other chain wallet, ActiveFor rows user_id chain wallet →
    ActiveFor rows other chain wallet → user_id = other

section Property

variable (signatures : Signatures) (rows : List AssociatedWallet) (user_id : ℤ)
  (chain : WalletChain)

variable (entry : String × Json)

/-- An entry has a valid signature, and its wallet is not active for another user. -/
def Accepted : Prop :=
  is_valid_signature signatures chain user_id entry = .ok true ∧
    ∀ other, other ≠ user_id → ¬ ActiveFor rows other chain entry.1

/-- An update is applied: the wallets of the user on the chain are those accepted of the metadata,
and each that was dropped is marked as deleted. -/
structure Applied (entries : List (String × Json)) (rows' : List AssociatedWallet) : Prop where
  active : ∀ wallet, ActiveFor rows' user_id chain wallet ↔
    ∃ entry ∈ entries, entry.1 = wallet ∧ Accepted signatures rows user_id chain entry
  dropped : ∀ wallet, ActiveFor rows user_id chain wallet → ¬ ActiveFor rows' user_id chain wallet →
    ∃ row ∈ rows', row.isOf user_id chain = true ∧ row.wallet = wallet ∧ row.is_current = true ∧
      row.is_delete = true

/-- An entry raises. -/
def raises : Bool :=
  match is_valid_signature signatures chain user_id entry with
  | .error _ => true
  | .ok _ => false

variable (entries : List (String × Json))

/-- The entries before the first that raises. -/
def handled : List (String × Json) :=
  entries.takeWhile fun entry ↦ !raises signatures user_id chain entry

/-- The entries from the first that raises on. -/
def unhandled : List (String × Json) :=
  entries.dropWhile fun entry ↦ !raises signatures user_id chain entry

/-- An entry that raises does no harm: there is none, or the user has no current row on the chain
and none is added before it, or all wallets are claimed again before it and none is claimed after
it. -/
def Unbroken : Prop :=
  unhandled signatures user_id chain entries = [] ∨
    ((∀ row ∈ rows, row.isOf user_id chain = true → row.is_current = false) ∧
      ∀ entry ∈ handled signatures user_id chain entries,
        ¬ Accepted signatures rows user_id chain entry) ∨
    ((∀ wallet, ActiveFor rows user_id chain wallet →
        ∃ entry ∈ handled signatures user_id chain entries,
          entry.1 = wallet ∧ Accepted signatures rows user_id chain entry) ∧
      ∀ entry ∈ unhandled signatures user_id chain entries,
        ¬ Accepted signatures rows user_id chain entry)

end Property

/-! ### Active wallets -/

@[simp] theorem isOf_eq_true {user_id : ℤ} {chain : WalletChain} {row : AssociatedWallet} :
    row.isOf user_id chain = true ↔ row.user_id = user_id ∧ row.chain = chain :=
  decide_eq_true_iff

theorem activeFor_append (rows' : List AssociatedWallet) (user_id : ℤ) (chain : WalletChain)
    (wallet : String) :
    ActiveFor (rows ++ rows') user_id chain wallet ↔
      ActiveFor rows user_id chain wallet ∨ ActiveFor rows' user_id chain wallet := by
  unfold ActiveFor
  simp only [mem_append, or_and_right, exists_or]

/-- New rows are active for their user unless they are deleted. -/
theorem activeFor_newRow (chain' : WalletChain) (is_delete : Bool) (wallets : List String)
    (user_id : ℤ) (wallet : String) :
    ActiveFor (wallets.map (newRow user_record chain is_delete)) user_id chain' wallet ↔
      (user_id = user_record.user_id ∧ chain' = chain) ∧ is_delete = false ∧ wallet ∈ wallets := by
  constructor
  · rintro ⟨row, hrow, hof, hwallet, hactive⟩
    obtain ⟨name, hname, rfl⟩ := mem_map.mp hrow
    rw [isOf_eq_true] at hof
    subst hwallet
    refine ⟨⟨hof.1.symm, hof.2.symm⟩, ?_, hname⟩
    unfold AssociatedWallet.isActive newRow at hactive
    rw [Bool.true_and, Bool.not_eq_true'] at hactive
    exact hactive
  · rintro ⟨⟨rfl, rfl⟩, rfl, hmem⟩
    refine ⟨newRow user_record chain' false wallet, mem_map_of_mem hmem, ?_, rfl, rfl⟩
    exact isOf_eq_true.mpr ⟨rfl, rfl⟩

/-- Taking rows back leaves those of other users and chains. -/
theorem activeFor_demote (user_id other : ℤ) (chain chain' : WalletChain) (wallet : String) :
    ActiveFor (demote user_id chain rows) other chain' wallet ↔
      ActiveFor rows other chain' wallet ∧ ¬ (other = user_id ∧ chain' = chain) := by
  constructor
  · rintro ⟨row, hrow, hof, hwallet, hactive⟩
    obtain ⟨old, hold, rfl⟩ := mem_map.mp hrow
    by_cases hown : old.isOf user_id chain = true
    · rw [if_pos hown] at hactive
      cases hactive
    · rw [if_neg hown] at hof hwallet hactive
      refine ⟨⟨old, hold, hof, hwallet, hactive⟩, ?_⟩
      rintro ⟨rfl, rfl⟩
      exact hown hof
  · rintro ⟨⟨row, hrow, hof, hwallet, hactive⟩, hnot⟩
    have hown : ¬ row.isOf user_id chain = true := by
      rw [isOf_eq_true] at hof ⊢
      rintro ⟨huser, hchain⟩
      exact hnot ⟨hof.1.symm.trans huser, hof.2.symm.trans hchain⟩
    refine ⟨row, mem_map.mpr ⟨row, hrow, if_neg hown⟩, hof, hwallet, hactive⟩

theorem wallet_exists_iff (wallet : String) :
    wallet_exists rows chain wallet = true ↔ ∃ user_id, ActiveFor rows user_id chain wallet := by
  unfold wallet_exists ActiveFor
  rw [any_eq_true]
  constructor
  · rintro ⟨row, hrow, hmatch⟩
    rw [Bool.and_eq_true, decide_eq_true_eq] at hmatch
    exact ⟨row.user_id, row, hrow, isOf_eq_true.mpr ⟨rfl, hmatch.1.2⟩, hmatch.1.1, hmatch.2⟩
  · rintro ⟨user_id, row, hrow, hof, hwallet, hactive⟩
    rw [isOf_eq_true] at hof
    refine ⟨row, hrow, ?_⟩
    rw [Bool.and_eq_true, decide_eq_true_eq]
    exact ⟨⟨hwallet, hof.2⟩, hactive⟩

/-! ### The loop -/

section Loop

variable (signatures : Signatures) (user_record : User) (chain : WalletChain)

/-- Whether the loop adds a wallet, given the rows it starts with. -/
def accepts (rows : List AssociatedWallet) (entry : String × Json) : Bool :=
  match is_valid_signature signatures chain user_record.user_id entry with
  | .ok true => !wallet_exists rows chain entry.1
  | _ => false

/-- The wallets the loop adds. -/
def acceptedWallets (rows : List AssociatedWallet) (entries : List (String × Json)) :
    List String :=
  ((handled signatures user_record.user_id chain entries).filter
    (accepts signatures user_record chain rows)).map Prod.fst

variable {signatures user_record chain}

/-- A row that is added does not matter for another wallet. -/
theorem wallet_exists_append_of_ne {rows : List AssociatedWallet} {wallet other : String}
    (hne : wallet ≠ other) :
    wallet_exists (rows ++ [newRow user_record chain false other]) chain wallet =
      wallet_exists rows chain wallet := by
  unfold wallet_exists
  rw [any_append, any_cons, any_nil, Bool.or_false]
  have hnot : decide ((newRow user_record chain false other).wallet = wallet ∧
      (newRow user_record chain false other).chain = chain) = false :=
    decide_eq_false fun h ↦ hne h.1.symm
  rw [hnot, Bool.false_and, Bool.or_false]

variable (signatures user_record chain) in
/-- The loop adds the accepted wallets of the entries before the first that raises, and raises if
there is one. -/
theorem addWallets_eq {base : List AssociatedWallet} {entries : List (String × Json)}
    (hnodup : (entries.map Prod.fst).Nodup) :
    ∀ rows added, (∀ entry ∈ entries,
        wallet_exists rows chain entry.1 = wallet_exists base chain entry.1) →
      (addWallets signatures user_record chain entries rows added).1 =
          rows ++ (acceptedWallets signatures user_record chain base entries).map
            (newRow user_record chain false) ∧
        ((unhandled signatures user_record.user_id chain entries = [] ∧
            (addWallets signatures user_record chain entries rows added).2 =
              .ok (added ++ acceptedWallets signatures user_record chain base entries)) ∨
          (unhandled signatures user_record.user_id chain entries ≠ [] ∧ ∃ message,
            (addWallets signatures user_record chain entries rows added).2 = .error message)) := by
  induction entries with
  | nil =>
    intro rows added _
    exact ⟨(append_nil rows).symm, .inl ⟨rfl, congrArg _ (append_nil added).symm⟩⟩
  | cons entry entries ih =>
    intro rows added hsame
    rw [map_cons, nodup_cons] at hnodup
    have hrest := fun other hother ↦ hsame other (mem_cons_of_mem entry hother)
    cases hvalid : is_valid_signature signatures chain user_record.user_id entry with
    | error message =>
      have hraises : raises signatures user_record.user_id chain entry = true := by
        unfold raises
        rw [hvalid]
      unfold addWallets acceptedWallets handled unhandled
      rw [hvalid, takeWhile_cons_of_neg (by simp [hraises]),
        dropWhile_cons_of_neg (by simp [hraises])]
      exact ⟨(append_nil rows).symm, .inr ⟨cons_ne_nil _ _, message, rfl⟩⟩
    | ok valid =>
      have hraises : raises signatures user_record.user_id chain entry = false := by
        unfold raises
        rw [hvalid]
      have hunhandled : unhandled signatures user_record.user_id chain (entry :: entries) =
          unhandled signatures user_record.user_id chain entries :=
        dropWhile_cons_of_pos (by rw [hraises]; rfl)
      have hhandled : handled signatures user_record.user_id chain (entry :: entries) =
          entry :: handled signatures user_record.user_id chain entries :=
        takeWhile_cons_of_pos (by rw [hraises]; rfl)
      have hexists := hsame entry mem_cons_self
      rw [hunhandled]
      unfold addWallets
      rw [hvalid]
      by_cases haccepts : accepts signatures user_record chain base entry = true
      · have hadds : acceptedWallets signatures user_record chain base (entry :: entries) =
            entry.1 :: acceptedWallets signatures user_record chain base entries := by
          unfold acceptedWallets
          rw [hhandled, filter_cons_of_pos haccepts, map_cons]
        unfold accepts at haccepts
        rw [hvalid] at haccepts
        cases valid with
        | false => cases haccepts
        | true =>
          rw [Bool.not_eq_true'] at haccepts
          rw [haccepts] at hexists
          rw [if_neg (by rw [hexists]; exact Bool.false_ne_true), hadds]
          have hnext := ih hnodup.2 (rows ++ [newRow user_record chain false entry.1])
            (added ++ [entry.1]) fun other hother ↦ by
              rw [wallet_exists_append_of_ne, hrest other hother]
              rintro heq
              exact hnodup.1 (heq ▸ mem_map_of_mem hother)
          rw [append_assoc, append_assoc] at hnext
          exact hnext
      · have hadds : acceptedWallets signatures user_record chain base (entry :: entries) =
            acceptedWallets signatures user_record chain base entries := by
          unfold acceptedWallets
          rw [hhandled, filter_cons_of_neg haccepts]
        rw [hadds]
        unfold accepts at haccepts
        rw [hvalid] at haccepts
        cases valid with
        | false => exact ih hnodup.2 rows added hrest
        | true =>
          rw [Bool.not_eq_true', Bool.not_eq_false] at haccepts
          rw [haccepts] at hexists
          rw [if_pos hexists]
          exact ih hnodup.2 rows added hrest

end Loop

/-! ### One update -/

section One

variable (signatures : Signatures) (rows : List AssociatedWallet) (user_record : User)
  (chain : WalletChain)

theorem accepts_iff (entry : String × Json) :
    accepts signatures user_record chain (demote user_record.user_id chain rows) entry = true ↔
      Accepted signatures rows user_record.user_id chain entry := by
  have hfree : (!wallet_exists (demote user_record.user_id chain rows) chain entry.1) = true ↔
      ∀ other, other ≠ user_record.user_id → ¬ ActiveFor rows other chain entry.1 := by
    rw [Bool.not_eq_true', ← Bool.not_eq_true, wallet_exists_iff, not_exists]
    apply forall_congr'
    intro other
    rw [activeFor_demote, not_and, not_not]
    constructor
    · intro h hne hactive
      exact hne (h hactive).1
    · intro h hactive
      by_contra hne
      exact h (fun heq ↦ hne ⟨heq, rfl⟩) hactive
  unfold accepts Accepted
  rw [← hfree]
  cases is_valid_signature signatures chain user_record.user_id entry with
  | error message => exact iff_of_false Bool.false_ne_true fun h ↦ nomatch h.1
  | ok valid =>
    cases valid with
    | false => exact iff_of_false Bool.false_ne_true fun h ↦ nomatch h.1
    | true => exact (and_iff_right rfl).symm

variable (entries : List (String × Json))

/-- The wallets that an update adds. -/
def addedWallets : List String :=
  acceptedWallets signatures user_record chain (demote user_record.user_id chain rows) entries

theorem mem_addedWallets (wallet : String) :
    wallet ∈ addedWallets signatures rows user_record chain entries ↔
      ∃ entry ∈ handled signatures user_record.user_id chain entries,
        entry.1 = wallet ∧ Accepted signatures rows user_record.user_id chain entry := by
  unfold addedWallets acceptedWallets
  rw [mem_map]
  simp only [mem_filter, accepts_iff, and_assoc]
  exact exists_congr fun entry ↦ and_congr_right fun _ ↦ and_comm

theorem mem_previous_wallets (user_id : ℤ) (wallet : String) :
    wallet ∈ previous_wallets user_id chain rows ↔ ActiveFor rows user_id chain wallet := by
  unfold previous_wallets ActiveFor
  rw [mem_map]
  simp only [mem_filter, Bool.and_eq_true]
  constructor
  · rintro ⟨row, ⟨hrow, hof, hactive⟩, hwallet⟩
    exact ⟨row, hrow, hof, hwallet, hactive⟩
  · rintro ⟨row, hrow, hof, hwallet, hactive⟩
    exact ⟨row, ⟨hrow, hof, hactive⟩, hwallet⟩

theorem nodup_walletsOf (associated_wallets : Json) :
    ((walletsOf associated_wallets).map Prod.fst).Nodup :=
  Dict.nodup _

variable (associated_wallets : Json)

/-- The wallets that an update drops, and marks as deleted when no entry raises. -/
def droppedWallets : List String :=
  (previous_wallets user_record.user_id chain rows).filter
    (· ∉ addedWallets signatures rows user_record chain (walletsOf associated_wallets))

/-- The rows after an update without an entry that raises. -/
theorem update_of_handled
    (h : unhandled signatures user_record.user_id chain (walletsOf associated_wallets) = []) :
    update_user_associated_wallets signatures rows user_record associated_wallets chain =
      demote user_record.user_id chain rows ++
          (addedWallets signatures rows user_record chain (walletsOf associated_wallets)).map
            (newRow user_record chain false) ++
        (droppedWallets signatures rows user_record chain associated_wallets).map
          (newRow user_record chain true) := by
  obtain ⟨hrows, ⟨-, hadded⟩ | ⟨hne, -⟩⟩ := addWallets_eq signatures user_record chain
    (nodup_walletsOf associated_wallets) (demote user_record.user_id chain rows) [] fun _ _ ↦ rfl
  · unfold update_user_associated_wallets
    split
    · next herror =>
      rw [herror] at hadded
      cases hadded
    · next rows' added hok =>
      rw [hok] at hrows hadded
      have hadds : added =
          addedWallets signatures rows user_record chain (walletsOf associated_wallets) :=
        Except.ok.inj hadded
      dsimp only at hrows
      rw [hrows, hadds]
      rfl
  · exact absurd h hne

/-- The rows after an update with an entry that raises. -/
theorem update_of_unhandled
    (h : unhandled signatures user_record.user_id chain (walletsOf associated_wallets) ≠ []) :
    update_user_associated_wallets signatures rows user_record associated_wallets chain =
      demote user_record.user_id chain rows ++
        (addedWallets signatures rows user_record chain (walletsOf associated_wallets)).map
          (newRow user_record chain false) := by
  obtain ⟨hrows, ⟨hnil, -⟩ | ⟨-, message, hmessage⟩⟩ := addWallets_eq signatures user_record chain
    (nodup_walletsOf associated_wallets) (demote user_record.user_id chain rows) [] fun _ _ ↦ rfl
  · exact absurd hnil h
  · unfold update_user_associated_wallets
    split
    · next herror =>
      rw [herror] at hrows
      exact hrows
    · next hok =>
      rw [hok] at hmessage
      cases hmessage

/-- The active wallets after an update: those of the user on the chain are the added ones, and the
others stay. -/
theorem activeFor_update (user_id : ℤ) (chain' : WalletChain) (wallet : String) :
    ActiveFor (update_user_associated_wallets signatures rows user_record associated_wallets chain)
        user_id chain' wallet ↔
      (ActiveFor rows user_id chain' wallet ∧ ¬ (user_id = user_record.user_id ∧ chain' = chain)) ∨
        (user_id = user_record.user_id ∧ chain' = chain) ∧ wallet ∈
          addedWallets signatures rows user_record chain (walletsOf associated_wallets) := by
  by_cases h : unhandled signatures user_record.user_id chain (walletsOf associated_wallets) = []
  · rw [update_of_handled _ _ _ _ _ h, activeFor_append, activeFor_append, activeFor_demote,
      activeFor_newRow, activeFor_newRow]
    simp
  · rw [update_of_unhandled _ _ _ _ _ h, activeFor_append, activeFor_demote, activeFor_newRow]
    simp

variable {signatures rows user_record chain associated_wallets}

theorem activeFor_update_self (wallet : String) :
    ActiveFor (update_user_associated_wallets signatures rows user_record associated_wallets chain)
        user_record.user_id chain wallet ↔
      wallet ∈ addedWallets signatures rows user_record chain (walletsOf associated_wallets) := by
  rw [activeFor_update]
  simp

/-- An update keeps the wallets exclusive. -/
theorem exclusive_update (hexclusive : Exclusive rows) :
    Exclusive
      (update_user_associated_wallets signatures rows user_record associated_wallets chain) := by
  have hfree : ∀ other wallet, ActiveFor rows other chain wallet →
      wallet ∈ addedWallets signatures rows user_record chain (walletsOf associated_wallets) →
        other = user_record.user_id := by
    intro other wallet hactive hadded
    obtain ⟨entry, -, rfl, haccepted⟩ := (mem_addedWallets _ _ _ _ _ _).mp hadded
    by_contra hne
    exact haccepted.2 other hne hactive
  intro user_id other chain' wallet huser hother
  rw [activeFor_update] at huser hother
  rcases huser with ⟨hold, -⟩ | ⟨⟨hid, hchain⟩, hadded⟩
  · rcases hother with ⟨hold', -⟩ | ⟨⟨hid', hchain'⟩, hadded'⟩
    · exact hexclusive user_id other chain' wallet hold hold'
    · subst hchain'
      rw [hid', hfree user_id wallet hold hadded']
  · rcases hother with ⟨hold', -⟩ | ⟨⟨hid', -⟩, -⟩
    · subst hchain
      rw [hid, hfree other wallet hold' hadded]
    · rw [hid, hid']

/-- Without an entry that raises an update is applied. -/
theorem applied_of_handled
    (h : unhandled signatures user_record.user_id chain (walletsOf associated_wallets) = []) :
    Applied signatures rows user_record.user_id chain (walletsOf associated_wallets)
      (update_user_associated_wallets signatures rows user_record associated_wallets chain) := by
  have hall : handled signatures user_record.user_id chain (walletsOf associated_wallets) =
      walletsOf associated_wallets := by
    have happend := takeWhile_append_dropWhile
      (p := fun entry ↦ !raises signatures user_record.user_id chain entry)
      (l := walletsOf associated_wallets)
    unfold unhandled at h
    rw [h, append_nil] at happend
    exact happend
  constructor
  · intro wallet
    rw [activeFor_update_self, mem_addedWallets, hall]
  · intro wallet hactive hnot
    rw [activeFor_update_self] at hnot
    have hdropped : wallet ∈ droppedWallets signatures rows user_record chain associated_wallets :=
      mem_filter.mpr ⟨(mem_previous_wallets rows chain _ wallet).mpr hactive, decide_eq_true hnot⟩
    rw [update_of_handled _ _ _ _ _ h]
    refine ⟨newRow user_record chain true wallet, ?_, isOf_eq_true.mpr ⟨rfl, rfl⟩, rfl, rfl, rfl⟩
    exact mem_append_right _ (mem_map_of_mem hdropped)

/-- With an entry that raises the rows stay just when the user had no current row on the chain and
no wallet is added. -/
theorem update_eq_self_iff
    (h : unhandled signatures user_record.user_id chain (walletsOf associated_wallets) ≠ []) :
    update_user_associated_wallets signatures rows user_record associated_wallets chain = rows ↔
      (∀ row ∈ rows, row.isOf user_record.user_id chain = true → row.is_current = false) ∧
        ∀ entry ∈ handled signatures user_record.user_id chain (walletsOf associated_wallets),
          ¬ Accepted signatures rows user_record.user_id chain entry := by
  have hadded :
      addedWallets signatures rows user_record chain (walletsOf associated_wallets) = [] ↔
        ∀ entry ∈ handled signatures user_record.user_id chain (walletsOf associated_wallets),
          ¬ Accepted signatures rows user_record.user_id chain entry := by
    rw [eq_nil_iff_forall_not_mem]
    simp only [mem_addedWallets]
    constructor
    · intro hnone entry hentry haccepted
      exact hnone entry.1 ⟨entry, hentry, rfl, haccepted⟩
    · rintro hnone wallet ⟨entry, hentry, -, haccepted⟩
      exact hnone entry hentry haccepted
  have hdemote : demote user_record.user_id chain rows = rows ↔
      ∀ row ∈ rows, row.isOf user_record.user_id chain = true → row.is_current = false := by
    have hmap : demote user_record.user_id chain rows = rows.map id ↔ ∀ row ∈ rows,
        (if row.isOf user_record.user_id chain then { row with is_current := false } else row) =
          id row := map_inj_left
    rw [map_id] at hmap
    refine hmap.trans (forall_congr' fun row ↦ imp_congr_right fun _ ↦ ?_)
    by_cases hown : row.isOf user_record.user_id chain = true
    · rw [if_pos hown, forall_prop_of_true hown]
      constructor
      · intro heq
        dsimp only [id] at heq
        rw [← heq]
      · intro hcurrent
        obtain ⟨user_id, wallet, chain, is_current, is_delete, blocknumber, blockhash⟩ := row
        cases hcurrent
        rfl
    · rw [if_neg hown]
      exact iff_of_true rfl fun hof ↦ absurd hof hown
  rw [update_of_unhandled _ _ _ _ _ h, ← hadded, ← hdemote]
  constructor
  · intro heq
    have hlength := congrArg length heq
    rw [length_append, demote, length_map, Nat.add_eq_left, length_eq_zero_iff] at hlength
    rw [hlength, append_nil] at heq
    exact ⟨heq, map_eq_nil_iff.mp hlength⟩
  · rintro ⟨heq, hnil⟩
    rw [hnil, map_nil, append_nil, heq]

/-- With an entry that raises an update is applied just when the wallets are all claimed again
before it, and nothing is claimed after it. -/
theorem applied_iff_of_unhandled
    (h : unhandled signatures user_record.user_id chain (walletsOf associated_wallets) ≠ []) :
    Applied signatures rows user_record.user_id chain (walletsOf associated_wallets)
        (update_user_associated_wallets signatures rows user_record associated_wallets chain) ↔
      (∀ wallet, ActiveFor rows user_record.user_id chain wallet →
          ∃ entry ∈ handled signatures user_record.user_id chain (walletsOf associated_wallets),
            entry.1 = wallet ∧ Accepted signatures rows user_record.user_id chain entry) ∧
        ∀ entry ∈ unhandled signatures user_record.user_id chain (walletsOf associated_wallets),
          ¬ Accepted signatures rows user_record.user_id chain entry := by
  have hsplit : handled signatures user_record.user_id chain (walletsOf associated_wallets) ++
      unhandled signatures user_record.user_id chain (walletsOf associated_wallets) =
        walletsOf associated_wallets := takeWhile_append_dropWhile
  constructor
  · rintro ⟨hactive, hdropped⟩
    simp only [activeFor_update_self] at hactive hdropped
    constructor
    · intro wallet hwallet
      rw [← mem_addedWallets]
      by_contra hnot
      obtain ⟨row, hrow, hof, -, hcurrent, hdelete⟩ := hdropped wallet hwallet hnot
      rw [update_of_unhandled _ _ _ _ _ h] at hrow
      rcases mem_append.mp hrow with hold | hnew
      · obtain ⟨old, -, rfl⟩ := mem_map.mp hold
        by_cases hown : old.isOf user_record.user_id chain = true
        · rw [if_pos hown] at hcurrent
          cases hcurrent
        · rw [if_neg hown] at hof
          exact hown hof
      · obtain ⟨name, -, rfl⟩ := mem_map.mp hnew
        cases hdelete
    · intro entry hentry haccepted
      have hmem : entry ∈ walletsOf associated_wallets := by
        rw [← hsplit]
        exact mem_append_right _ hentry
      have hadded := (hactive entry.1).mpr ⟨entry, hmem, rfl, haccepted⟩
      obtain ⟨other, hother, heq, -⟩ := (mem_addedWallets _ _ _ _ _ _).mp hadded
      have hnodup := nodup_walletsOf associated_wallets
      rw [← hsplit, map_append, nodup_append] at hnodup
      exact hnodup.2.2 _ (mem_map_of_mem hother) _ (mem_map_of_mem hentry) heq
  · rintro ⟨hagain, hafter⟩
    constructor
    · intro wallet
      rw [activeFor_update_self, mem_addedWallets]
      constructor
      · rintro ⟨entry, hentry, hwallet, haccepted⟩
        refine ⟨entry, ?_, hwallet, haccepted⟩
        rw [← hsplit]
        exact mem_append_left _ hentry
      · rintro ⟨entry, hentry, hwallet, haccepted⟩
        rw [← hsplit] at hentry
        rcases mem_append.mp hentry with hbefore | hlater
        · exact ⟨entry, hbefore, hwallet, haccepted⟩
        · exact absurd haccepted (hafter entry hlater)
    · intro wallet hwallet hnot
      rw [activeFor_update_self, mem_addedWallets] at hnot
      exact absurd (hagain wallet hwallet) hnot

end One

/-! ### Runs -/

/-- The rows stay or the update is applied. -/
def AllOrNothing (chain : WalletChain) : Prop :=
  update_user_associated_wallets signatures rows user_record associated_wallets chain = rows ∨
    Applied signatures rows user_record.user_id chain (walletsOf associated_wallets)
      (update_user_associated_wallets signatures rows user_record associated_wallets chain)

theorem allOrNothing_iff (chain : WalletChain) :
    AllOrNothing signatures rows user_record associated_wallets chain ↔
      Unbroken signatures rows user_record.user_id chain (walletsOf associated_wallets) := by
  unfold AllOrNothing Unbroken
  by_cases h : unhandled signatures user_record.user_id chain (walletsOf associated_wallets) = []
  · exact iff_of_true (.inr (applied_of_handled h)) (.inl h)
  · rw [or_iff_right h, update_eq_self_iff h, applied_iff_of_unhandled h]

theorem exclusive_run : Exclusive (run signatures updates) := by
  induction updates using reverseRecOn with
  | nil =>
    rintro user_id other chain wallet ⟨row, hrow, -⟩
    cases hrow
  | append_singleton updates update ih =>
    unfold run at ih ⊢
    rw [foldl_concat]
    exact exclusive_update ih

/-- After any updates the wallets are exclusive, and the next update is all-or-nothing exactly where
no entry of its metadata raises, or the one that does changes nothing. -/
theorem run_allOrNothing_iff (signatures : Signatures) (updates : List Update) (next : Update) :
    Exclusive (run signatures updates) ∧
      (AllOrNothing signatures (run signatures updates) next.user_record next.associated_wallets
          next.chain ↔
        Unbroken signatures (run signatures updates) next.user_record.user_id next.chain
          (walletsOf next.associated_wallets)) :=
  ⟨exclusive_run signatures updates, allOrNothing_iff signatures _ _ _ _⟩

/-- The signature of the id of user 1 by a wallet, as the libraries check it. -/
def signedByOne : Signatures where
  recoverHash user_id signature :=
    if user_id = 1 ∧ signature = "0xdde72a90dad4a0027ca87630a2b5615240d9ad545f2fc50e24952a2b" ++
        "4f2c5af76c96b9e06df5801d3e3374e247b799ac3e6dfd22b4df117fe1d6190789c5bb781b" then
      .ok "0xEfFe2E2Dfc7945ED6Fd4C07c0B668589C52819BF"
    else .error "BadSignature"
  verify _ _ _ := false

/-- User 1 claims the wallet. -/
def claimOfOne : Update where
  user_record := ⟨1, 1, "0x01"⟩
  associated_wallets := .object [("0xEfFe2E2Dfc7945ED6Fd4C07c0B668589C52819BF",
    .object [("signature", .str ("0xdde72a90dad4a0027ca87630a2b5615240d9ad545f2fc50e24952a2b" ++
      "4f2c5af76c96b9e06df5801d3e3374e247b799ac3e6dfd22b4df117fe1d6190789c5bb781b"))])]
  chain := .eth

/-- User 1 has claimed a wallet; then the metadata has `null` in the place of its signature. The row
is taken back, and none says that the wallet was deleted. -/
theorem not_allOrNothing_null :
    ¬ AllOrNothing signedByOne (run signedByOne [claimOfOne]) ⟨1, 2, "0x02"⟩
      (.object [("0xEfFe2E2Dfc7945ED6Fd4C07c0B668589C52819BF", .null)]) .eth := by
  rintro (h | h)
  · revert h
    decide +kernel
  · have hdeleted := h.dropped "0xEfFe2E2Dfc7945ED6Fd4C07c0B668589C52819BF" (by decide +kernel)
      (by decide +kernel)
    revert hdeleted
    decide +kernel

end AssociatedWallets

end ColivingSpec.Discovery
