import ColivingSpec.Eth.TokenAccounting
import ColivingSpec.System.Machine

/-!
# Transfers by signature

`permit` of `ColivingToken.sol` and `transferTokens` of `WormholeClient.sol`, among all calls of the
token. Both count the requests of an account and hash the count with the request. The hashes and the
recovery of the signer are parameters. A transfer ends in a call of the bridge, which takes the
tokens from the client by calls of its own.
-/

namespace ColivingSpec

open Lib Function

/-- `ColivingToken.sol:78–82`. -/
structure PermitRequest where
  owner : Address
  spender : Address
  value : ℕ
  deadline : ℕ

/-- `WormholeClient.sol:89–95`. -/
structure TransferRequest where
  source : Address
  amount : ℕ
  recipientChain : ℕ
  recipient : Bytes32
  arbiterFee : ℕ
  deadline : ℕ

/-- `v`, `r` and `s` of a signature. -/
structure SignatureParts where
  v : UInt8
  r : Bytes32
  s : Bytes32

/-- The digests of `ColivingToken.sol:89–95` and `WormholeClient.sol:105–122` for a nonce, and
`ecrecover`. -/
class TransferSigning where
  Digest : Type
  permitDigest : PermitRequest → ℕ → Digest
  transferTokensDigest : TransferRequest → ℕ → Digest
  ecrecover : Digest → SignatureParts → Address

/-- The token with its permits counted, and the transfers that the client counts. -/
structure Bridge where
  token : ERC20
  permitNonces : Address → ℕ
  transferNonces : Address → ℕ

namespace Bridge

/-- What happens to the token. -/
inductive Event where
  | call (msg : Msg) (c : TokenCall)
  | permit (timestamp : ℕ) (request : PermitRequest) (sig : SignatureParts)
  | transferTokens (msg : Msg) (timestamp : ℕ) (request : TransferRequest) (sig : SignatureParts)

variable [TransferSigning] (client wormhole : Address)

/-- `ColivingToken.sol:78–102`. -/
def permit (timestamp : ℕ) (request : PermitRequest) (sig : SignatureParts) (b : Bridge) :
    Except String Bridge := do
  let owner := request.owner
  require (timestamp ≤ request.deadline) "ColivingToken: Deadline has expired"
  let nonce ← SafeMath.add (b.permitNonces owner) 1
  let recoveredAddress := TransferSigning.ecrecover
    (TransferSigning.permitDigest request (b.permitNonces owner)) sig
  require (recoveredAddress ≠ 0 ∧ recoveredAddress = owner) "ColivingToken: Invalid signature"
  let token ← b.token._approve owner request.spender request.value
  return { b with token, permitNonces := update b.permitNonces owner nonce }

/-- `WormholeClient.sol:89–131`; what follows is the call of the bridge. -/
def transferTokens (msg : Msg) (timestamp : ℕ) (request : TransferRequest) (sig : SignatureParts)
    (b : Bridge) : Except String Bridge := do
  let source := request.source
  let nonce ← Checked.add (2 ^ 32) (b.transferNonces source) 1
  require (timestamp ≤ request.deadline) "WormholeClient: Deadline has expired"
  let recoveredAddress := TransferSigning.ecrecover
    (TransferSigning.transferTokensDigest request (b.transferNonces source)) sig
  require (recoveredAddress ≠ 0 ∧ recoveredAddress = source) "WormholeClient: Invalid signature"
  let token ← b.token.transferFrom (msg.calledBy client) source client request.amount
  let token ← token.approve (msg.calledBy client) wormhole request.amount
  return { b with token, transferNonces := update b.transferNonces source nonce }

/-- One event. -/
def step (b : Bridge) : Event → Except String Bridge
  | .call msg c => do
    let token ← c.perform msg b.token
    return { b with token }
  | .permit timestamp request sig => b.permit timestamp request sig
  | .transferTokens msg timestamp request sig =>
    b.transferTokens client wormhole msg timestamp request sig

/-- The value of a permit of the account that goes through. -/
def permitted (a : Address) (b : Bridge) : Event → ℕ
  | .permit timestamp request sig =>
    if request.owner = a ∧ (b.permit timestamp request sig).isOk then request.value else 0
  | _ => 0

/-- The account does not call the token itself, and signs no unlimited permit. -/
def SignsOnly (a : Address) : Event → Prop
  | .call msg _ => msg.sender ≠ a
  | .permit _ request _ => request.owner = a → request.value < uint256Bound - 1
  | .transferTokens .. => True

end Bridge

/-! ### What is allowed -/

namespace ERC20

/-- All that others may spend for the account. -/
def allowed (t : ERC20) (a : Address) : ℕ := ∑ spender, t.allowances a spender

/-- Nobody may spend without limit for the account. -/
def Limited (t : ERC20) (a : Address) : Prop := ∀ s, t.allowances a s < uint256Bound - 1

/-- The account loses no more than what is allowed less. -/
structure Covers (a : Address) (t t' : ERC20) : Prop where
  limited : t'.Limited a
  balance : t.balances a + t'.allowed a ≤ t'.balances a + t.allowed a

variable {t t' t'' : ERC20} {a owner spender : Address} {amount : ℕ} {msg : Msg}

theorem Covers.trans (h : Covers a t t') (h' : Covers a t' t'') : Covers a t t'' :=
  ⟨h'.limited, by have hb := h.balance; have hb' := h'.balance; omega⟩

/-- Nothing is taken and nothing is allowed. -/
theorem Covers.of_same (ht : t.Limited a) (hallowances : t'.allowances a = t.allowances a)
    (hbalance : t.balances a ≤ t'.balances a) : Covers a t t' := by
  refine ⟨fun s ↦ hallowances ▸ ht s, ?_⟩
  unfold allowed
  rw [hallowances]
  omega

theorem Covers.approve (ht : t.Limited a) (hother : owner ≠ a)
    (h : t._approve owner spender amount = .ok t') : Covers a t t' := by
  obtain ⟨-, -, rfl⟩ := _approve_eq_ok h
  exact .of_same ht (update_of_ne hother.symm _ _) le_rfl

/-- What is spent for the account is allowed less, where the tokens come from it. -/
theorem Covers.spend {mid : ERC20} (ht : t.Limited a)
    (h : t._spendAllowance owner spender amount = .ok mid)
    (hallowances : t'.allowances = mid.allowances)
    (hown : mid.balances owner ≤ t'.balances owner + amount)
    (hothers : a ≠ owner → mid.balances a ≤ t'.balances a) : Covers a t t' := by
  rw [_spendAllowance_balances h] at hown hothers
  unfold _spendAllowance at h
  split at h
  · next hmax =>
    cases h
    exact .of_same ht (congrFun hallowances a) (hothers fun heq ↦ (ht spender).ne (heq ▸ hmax))
  · rw [require_bind_eq_ok] at h
    obtain ⟨hle, -, -, rfl⟩ := h.imp_right _approve_eq_ok
    by_cases heq : a = owner
    · subst heq
      have hsum := sum_update_add (t.allowances a) spender (t.allowances a spender - amount)
      unfold Limited at ht
      constructor
      · intro s
        simp only [hallowances, update_self]
        by_cases hs : s = spender
        · rw [hs, update_self]
          exact (Nat.sub_le _ _).trans_lt (ht spender)
        · rw [update_of_ne hs]
          exact ht s
      · unfold allowed
        simp only [hallowances, update_self]
        omega
    · exact .of_same ht (by simp only [hallowances, update_of_ne heq]) (hothers heq)

theorem Covers.transferFrom {source target : Address} (ht : t.Limited a)
    (h : t.transferFrom msg source target amount = .ok t') : Covers a t t' := by
  obtain ⟨mid, hspend, hmove⟩ := bind_eq_ok.mp h
  refine .spend ht hspend ?_ (_transfer_balance_source hmove) (_transfer_balance_le hmove a)
  obtain ⟨-, -, -, rfl⟩ := _transfer_eq_ok hmove
  rfl

/-- No call of another account takes more than what it uses up of what is allowed. -/
theorem Covers.perform {c : TokenCall} (ht : t.Limited a) (ha : msg.sender ≠ a)
    (h : c.perform msg t = .ok t') : Covers a t t' := by
  cases c with
  | transfer target amount =>
    have hbalance := _transfer_balance_le h a ha.symm
    obtain ⟨-, -, -, rfl⟩ := _transfer_eq_ok h
    exact .of_same ht rfl hbalance
  | approve spender amount => exact .approve ht ha h
  | increaseAllowance spender amount =>
    unfold TokenCall.perform increaseAllowance at h
    rw [add_bind_eq_ok] at h
    exact .approve ht ha h.2
  | decreaseAllowance spender amount =>
    unfold TokenCall.perform decreaseAllowance at h
    rw [require_bind_eq_ok] at h
    exact .approve ht ha h.2
  | transferFrom source target amount => exact .transferFrom ht h
  | mint account amount =>
    have hmint := mint_eq_mint h
    have hbalance := _mint_balance_le hmint a
    obtain ⟨-, -, rfl⟩ := _mint_eq_ok hmint
    exact .of_same ht rfl hbalance
  | burn amount =>
    have hbalance := _burn_balance_of_ne h a ha.symm
    obtain ⟨-, -, rfl⟩ := _burn_eq_ok h
    exact .of_same ht rfl hbalance.ge
  | burnFrom account amount =>
    obtain ⟨mid, hspend, hburn⟩ := bind_eq_ok.mp h
    refine .spend ht hspend ?_ (_burn_balance hburn).ge fun hne ↦
      (_burn_balance_of_ne hburn a hne).ge
    obtain ⟨-, -, rfl⟩ := _burn_eq_ok hburn
    rfl
  | addMinter account =>
    unfold TokenCall.perform addMinter _addMinter at h
    simp only [↓require_bind_eq_ok, pure_eq_ok] at h
    obtain ⟨-, -, -, -, rfl⟩ := h
    exact .of_same ht rfl le_rfl
  | renounceMinter =>
    unfold TokenCall.perform renounceMinter at h
    simp only [↓require_bind_eq_ok, pure_eq_ok] at h
    obtain ⟨-, -, rfl⟩ := h
    exact .of_same ht rfl le_rfl

end ERC20

namespace Bridge

section Runs

variable [TransferSigning] {client wormhole a : Address} {b b' : Bridge} {e : Event}
  {es : List Event}

theorem permit_eq_ok {timestamp : ℕ} {request : PermitRequest} {sig : SignatureParts}
    (h : b.permit timestamp request sig = .ok b') :
    b.token._approve request.owner request.spender request.value = .ok b'.token := by
  unfold permit SafeMath.add at h
  simp only [↓require_bind_eq_ok, ↓add_bind_eq_ok] at h
  obtain ⟨-, -, -, h⟩ := h
  obtain ⟨token, happrove, h⟩ := bind_eq_ok.mp h
  cases h
  exact happrove

/-- One event takes from the account no more than what is allowed less and what it permits. -/
theorem step_covers (hclient : a ≠ client) (ht : b.token.Limited a) (hsigns : SignsOnly a e)
    (h : step client wormhole b e = .ok b') : b'.token.Limited a ∧
      b.token.balances a + b'.token.allowed a
        ≤ b'.token.balances a + b.token.allowed a + permitted a b e := by
  cases e with
  | call msg c =>
    obtain ⟨token, hcall, h⟩ := bind_eq_ok.mp h
    cases h
    obtain ⟨hlimited, hbalance⟩ := ERC20.Covers.perform ht hsigns hcall
    exact ⟨hlimited, hbalance.trans (Nat.le_add_right _ _)⟩
  | permit timestamp request sig =>
    have happrove := permit_eq_ok h
    by_cases howner : request.owner = a
    · have hvalue : permitted a b (.permit timestamp request sig) = request.value :=
        if_pos ⟨howner, by rw [show b.permit timestamp request sig = .ok b' from h]; rfl⟩
      have hsum := sum_update_add (b.token.allowances a) request.spender request.value
      obtain ⟨-, -, heq⟩ := ERC20._approve_eq_ok happrove
      rw [howner] at heq
      unfold ERC20.Limited at ht
      unfold ERC20.allowed ERC20.Limited
      simp only [hvalue, heq, update_self]
      refine ⟨fun s ↦ ?_, by omega⟩
      by_cases hs : s = request.spender
      · rw [hs, update_self]
        exact hsigns howner
      · rw [update_of_ne hs]
        exact ht s
    · obtain ⟨hlimited, hbalance⟩ := ERC20.Covers.approve ht howner happrove
      exact ⟨hlimited, hbalance.trans (Nat.le_add_right _ _)⟩
  | transferTokens msg timestamp request sig =>
    unfold step transferTokens at h
    simp only [↓require_bind_eq_ok, ↓add_bind_eq_ok] at h
    obtain ⟨-, -, -, h⟩ := h
    obtain ⟨mid, htransfer, h⟩ := bind_eq_ok.mp h
    obtain ⟨token, happrove, h⟩ := bind_eq_ok.mp h
    cases h
    have hfirst := ERC20.Covers.transferFrom ht htransfer
    obtain ⟨hlimited, hbalance⟩ :=
      hfirst.trans (ERC20.Covers.approve hfirst.limited hclient.symm happrove)
    exact ⟨hlimited, hbalance.trans (Nat.le_add_right _ _)⟩

/-- Whatever the others call, an account that only signs loses no more than the values of the
permits it signed, to spenders of its choice and the client alike. -/
theorem transfers_permitted (hclient : a ≠ client)
    (hnothing : ∀ s, b.token.allowances a s = 0) (hsigns : ∀ e ∈ es, SignsOnly a e) :
    b.token.balances a ≤ (replay (step client wormhole) b es).token.balances a
      + accumulated (step client wormhole) (permitted a) b es := by
  have hrun : ∀ (es : List Event) (b : Bridge), b.token.Limited a → (∀ e ∈ es, SignsOnly a e) →
      b.token.balances a + (replay (step client wormhole) b es).token.allowed a
        ≤ (replay (step client wormhole) b es).token.balances a + b.token.allowed a
          + accumulated (step client wormhole) (permitted a) b es := by
    intro es
    induction es with
    | nil => exact fun b _ _ ↦ Nat.le_add_right _ _
    | cons e es ih =>
      intro b ht hsigns
      obtain ⟨hhead, htail⟩ := List.forall_mem_cons.mp hsigns
      rw [replay_cons, accumulated]
      cases hstep : step client wormhole b e with
      | error reason =>
        rw [attempt_of_error _ hstep]
        have hrest := ih b ht htail
        omega
      | ok b' =>
        rw [attempt_of_ok _ hstep]
        obtain ⟨hlimited, hbalance⟩ := step_covers hclient ht hhead hstep
        have hrest := ih b' hlimited htail
        omega
  have hlimited : b.token.Limited a := fun s ↦ by
    rw [hnothing]
    decide
  have hzero : b.token.allowed a = 0 := Finset.sum_eq_zero fun s _ ↦ hnothing s
  have hall := hrun es b hlimited hsigns
  omega

/-! ### Requests -/

/-- How many requests of the account of a signed request were taken. -/
def nonce (b : Bridge) : Event → ℕ
  | .call .. => 0
  | .permit _ request _ => b.permitNonces request.owner
  | .transferTokens _ _ request _ => b.transferNonces request.source

/-- The request is signed by its account for the nonce. -/
def Signed (n : ℕ) : Event → Prop
  | .call .. => False
  | .permit _ request sig =>
    TransferSigning.ecrecover (TransferSigning.permitDigest request n) sig = request.owner
  | .transferTokens _ _ request sig =>
    TransferSigning.ecrecover (TransferSigning.transferTokensDigest request n) sig = request.source

/-- Nonces never go back, and a request that goes through is signed for the one that it uses up. -/
theorem step_nonce (e' : Event) (h : step client wormhole b e = .ok b') :
    nonce b e' ≤ nonce b' e' ∧
      ((∃ n, Signed n e) → Signed (nonce b e) e ∧ nonce b' e = nonce b e + 1) := by
  cases e with
  | call msg c =>
    obtain ⟨token, -, h⟩ := bind_eq_ok.mp h
    cases h
    exact ⟨by cases e' <;> exact le_rfl, fun ⟨_, hn⟩ ↦ hn.elim⟩
  | permit timestamp request sig =>
    unfold step permit SafeMath.add at h
    simp only [↓require_bind_eq_ok, ↓add_bind_eq_ok] at h
    obtain ⟨-, -, ⟨-, hsigned⟩, h⟩ := h
    obtain ⟨token, -, h⟩ := bind_eq_ok.mp h
    cases h
    refine ⟨?_, fun _ ↦ ⟨hsigned, update_self ..⟩⟩
    cases e' with
    | permit => exact le_update_self_iff.mpr (Nat.le_succ (b.permitNonces _)) _
    | _ => exact le_rfl
  | transferTokens msg timestamp request sig =>
    unfold step transferTokens at h
    simp only [↓require_bind_eq_ok, ↓add_bind_eq_ok] at h
    obtain ⟨-, -, ⟨-, hsigned⟩, h⟩ := h
    obtain ⟨mid, -, h⟩ := bind_eq_ok.mp h
    obtain ⟨token, -, h⟩ := bind_eq_ok.mp h
    cases h
    refine ⟨?_, fun _ ↦ ⟨hsigned, update_self ..⟩⟩
    cases e' with
    | transferTokens => exact le_update_self_iff.mpr (Nat.le_succ (b.transferNonces _)) _
    | _ => exact le_rfl

/-- A request signed for one nonce only, once it went through, does not go through again. -/
theorem request_once (hone : ∃! n, Signed n e) (h : Succeeds (step client wormhole b e))
    (es : List Event) :
    ¬ Succeeds (step client wormhole (replay (step client wormhole) b (e :: es)) e) := by
  obtain ⟨c, hc⟩ := h
  rintro ⟨c', hc'⟩
  obtain ⟨hsigned, hnext⟩ := (step_nonce e hc).2 hone.exists
  have hkept : nonce c e ≤ nonce (replay (step client wormhole) b (e :: es)) e := by
    rw [replay_cons, attempt_of_ok _ hc]
    exact replay_invariant' (fun s ↦ nonce c e ≤ nonce s e)
      (fun _ _ _ hs hstep ↦ hs.trans (step_nonce e hstep).1) es le_rfl
  have hsame := hone.unique hsigned ((step_nonce e hc').2 hone.exists).1
  omega

end Runs

/-! ### A small token -/

namespace TransferScenario

/-- Account 100 has signed with `r` the nonce. -/
scoped instance signing : TransferSigning where
  Digest := ℕ
  permitDigest _ nonce := nonce
  transferTokensDigest _ nonce := nonce
  ecrecover digest sig := if digest = sig.r then 100 else 0

/-- Ten tokens of account 100. -/
def start : Bridge :=
  ⟨{ ERC20.genesis 1 with balances := update (fun _ ↦ 0) 100 10 }, fun _ ↦ 0, fun _ ↦ 0⟩

/-- Three of them for account 5. -/
def three : Event := .permit 0 ⟨100, 5, 3, 9⟩ ⟨0, 0, 0⟩

end TransferScenario

open TransferScenario in
theorem transfers_permitted_three : start.token.balances 100
    ≤ (replay (step 2 3) start [three, .call ⟨5, 1⟩ (.transferFrom 100 5 3)]).token.balances 100
      + accumulated (step 2 3) (permitted 100) start
        [three, .call ⟨5, 1⟩ (.transferFrom 100 5 3)] :=
  transfers_permitted (by decide) (fun _ ↦ rfl) (by
    simp only [List.forall_mem_cons, three, SignsOnly]
    exact ⟨by decide, by decide, fun _ h ↦ absurd h List.not_mem_nil⟩)

open TransferScenario in
theorem request_once_three : ¬ Succeeds (step 2 3 (replay (step 2 3) start [three]) three) := by
  have hone : ∃! n, Signed n three := by
    refine ⟨0, rfl, fun n hn ↦ ?_⟩
    by_contra hne
    exact absurd ((if_neg hne).symm.trans hn) (by decide)
  exact request_once hone ⟨_, eq_ok_valueOf _ (by decide +kernel)⟩ []

end Bridge

end ColivingSpec
