import ColivingSpec.Solana.UserBank
import Mathlib.Data.List.Induction

/-!
# Which tips are recorded

A transfer becomes a tip when the rows of both its accounts are there at its turn, and each belongs
to one current user. The accounts are those that were created by the turns before it: by earlier
batches, and by those of its own batch that happened to take their turns first. A transfer that was
not recognised is not looked at again.
-/

namespace ColivingSpec.Solana

open Lib List

namespace UserBank

/-! ### What a transaction gives -/

variable (config : Config)

/-- The row of the account that a transaction creates. -/
def createdBy (tx : Tx) (info : TxInfo) : Option UserBankAccount :=
  if info.err = false ∧ createTokenAccountLog ∈ info.logMessages then
    (getValidInstruction config info).bind fun instruction ↦
      match createdAccount config tx info instruction with
      | .ok account => account
      | .error _ => none
  else none

/-- A transaction is a transfer from one account to another: it succeeded and creates no account,
its first instruction of the program names the two, and the balances before and after it tell the
amount. -/
structure TransferOf (config : Config) (info : TxInfo) (sender receiver : String) (amount : ℤ) :
    Prop where
  succeeded : info.err = false
  creates : createTokenAccountLog ∉ info.logMessages
  transfers : transferLog ∈ info.logMessages
  instruction : ∃ instruction i j, getValidInstruction config info = some instruction ∧
    accountAt info instruction 1 = .ok (i, sender) ∧
    accountAt info instruction 2 = .ok (j, receiver) ∧
    ∃ preSender preReceiver postSender postReceiver,
      balanceAt info.preTokenBalances i = some preSender ∧
      balanceAt info.preTokenBalances j = some preReceiver ∧
      balanceAt info.postTokenBalances i = some postSender ∧
      balanceAt info.postTokenBalances j = some postReceiver ∧
      preSender - postSender = amount ∧ postReceiver - preReceiver = amount

variable (getSolTxInfo : Tx → TxInfo) (users : List CurrentUser)

/-- The rows of the accounts that transactions create. -/
def accountsOf (txs : List Tx) : List UserBankAccount :=
  txs.filterMap fun tx ↦ createdBy config tx (getSolTxInfo tx)

/-- The current users who own an account, one for each row of the account and each user with its
wallet. -/
def ownersOf (accounts : List UserBankAccount) (account : String) :
    List ℕ :=
  (accounts.filter fun row ↦ decide (row.bankAccount = account)).flatMap fun row ↦
    (users.filter fun user ↦ decide (user.wallet = some row.ethereumAddress)).map
      CurrentUser.userId

/-- A transaction is a tip at its turn: a transfer between two accounts that have one owner each
among the rows and the users that are there. -/
def TipAt (accounts : List UserBankAccount) (info : TxInfo) (senderUserId receiverUserId : ℕ)
    (amount : ℤ) : Prop :=
  ∃ sender receiver, sender ≠ receiver ∧ TransferOf config info sender receiver amount ∧
    ownersOf users accounts sender = [senderUserId] ∧
    ownersOf users accounts receiver = [receiverUserId]

/-! ### The users of a transfer -/

section Users

variable {users : List CurrentUser} {accounts : List UserBankAccount} {sender receiver : String}

/-- The owners of an account, read from the join for both accounts. -/
theorem ownersOf_eq_filter {accts : List String} {account : String} (h : account ∈ accts) :
    ((refreshUserBalances users accounts accts).filter fun r ↦ decide (r.2 = account)).map
      Prod.fst = ownersOf users accounts account := by
  induction accounts with
  | nil => rfl
  | cons row rows ih =>
    have hcons : refreshUserBalances users (row :: rows) accts =
        (if row.bankAccount ∈ accts then
          (users.filter fun user ↦ decide (user.wallet = some row.ethereumAddress)).map
            fun user ↦ (user.userId, row.bankAccount)
        else []) ++ refreshUserBalances users rows accts := rfl
    rw [hcons, filter_append, map_append, ih]
    unfold ownersOf
    by_cases hrow : row.bankAccount = account
    · have hall : ((users.filter fun user ↦ decide (user.wallet = some row.ethereumAddress)).map
          fun user ↦ (user.userId, row.bankAccount)).filter (fun r ↦ decide (r.2 = account)) =
          (users.filter fun user ↦ decide (user.wallet = some row.ethereumAddress)).map
            fun user ↦ (user.userId, row.bankAccount) := by
        apply filter_eq_self.mpr
        intro r hr
        obtain ⟨user, -, rfl⟩ := mem_map.mp hr
        exact decide_eq_true hrow
      rw [if_pos (hrow ▸ h), hall, filter_cons, if_pos (decide_eq_true hrow), flatMap_cons, map_map]
      rfl
    · have hnil : (if row.bankAccount ∈ accts then
          (users.filter fun user ↦ decide (user.wallet = some row.ethereumAddress)).map
            fun user ↦ (user.userId, row.bankAccount)
          else []).filter (fun r ↦ decide (r.2 = account)) = [] := by
        apply filter_eq_nil_iff.mpr
        intro r hr
        split at hr
        · obtain ⟨user, -, rfl⟩ := mem_map.mp hr
          simpa using hrow
        · cases hr
      rw [hnil, map_nil, nil_append, filter_cons, if_neg (by simpa using hrow)]

/-- The join gives rows of the accounts asked for. -/
theorem mem_accts_of_mem_refresh {accts : List String} {r : ℕ × String}
    (h : r ∈ refreshUserBalances users accounts accts) : r.2 ∈ accts := by
  obtain ⟨row, -, hr⟩ := mem_flatMap.mp h
  split at hr
  · next hrow =>
    obtain ⟨user, -, rfl⟩ := mem_map.mp hr
    exact hrow
  · cases hr

/-- Two rows give both users just when each account has one owner. -/
theorem userIdsOf_eq_iff {results : List (ℕ × String)} {senderUserId receiverUserId : ℕ}
    (hresults : ∀ r ∈ results, r.2 ∈ [sender, receiver]) :
    (results.length = 2 ∧
        userIdsOf sender receiver results = (some senderUserId, some receiverUserId)) ↔
      sender ≠ receiver ∧
        (results.filter fun r ↦ decide (r.2 = sender)).map Prod.fst = [senderUserId] ∧
        (results.filter fun r ↦ decide (r.2 = receiver)).map Prod.fst = [receiverUserId] := by
  constructor
  · rintro ⟨hlength, hids⟩
    obtain ⟨first, second, rfl⟩ := length_eq_two.mp hlength
    have hfirst : first.2 = sender ∨ first.2 = receiver := by simpa using hresults first (by simp)
    have hsecond : second.2 = sender ∨ second.2 = receiver := by
      simpa using hresults second (by simp)
    unfold userIdsOf at hids
    by_cases hsame : sender = receiver
    · -- no row gives a receiver
      subst hsame
      rw [or_self] at hfirst hsecond
      simp [hfirst, hsecond] at hids
    · have hother : ¬ receiver = sender := fun heq ↦ hsame heq.symm
      refine ⟨hsame, ?_⟩
      rcases hfirst with hfirst | hfirst <;> rcases hsecond with hsecond | hsecond <;>
        simp_all
  · rintro ⟨hne, hsender, hreceiver⟩
    have hsum := length_eq_length_filter_add (fun r : ℕ × String ↦ decide (r.2 = sender))
      (l := results)
    have hrest : (results.filter fun r ↦ !decide (r.2 = sender)) =
        results.filter fun r ↦ decide (r.2 = receiver) := by
      apply filter_congr
      intro r hr
      have hr := hresults r hr
      rcases (by simpa using hr : r.2 = sender ∨ r.2 = receiver) with heq | heq
      · simp [heq, hne]
      · simp [heq, Ne.symm hne]
    have hone := congrArg length hsender
    have hother := congrArg length hreceiver
    rw [length_map, length_singleton] at hone hother
    rw [hrest, hone, hother] at hsum
    refine ⟨hsum, ?_⟩
    obtain ⟨first, second, rfl⟩ := length_eq_two.mp hsum
    have hfirst : first.2 = sender ∨ first.2 = receiver := by simpa using hresults first (by simp)
    have hsecond : second.2 = sender ∨ second.2 = receiver := by
      simpa using hresults second (by simp)
    have hswap : ¬ receiver = sender := Ne.symm hne
    unfold userIdsOf
    rcases hfirst with hfirst | hfirst <;> rcases hsecond with hsecond | hsecond <;>
      simp_all

end Users

/-! ### What a turn adds -/

/-- The amount is told when all four balances are listed and what was sent is what was received. -/
theorem amountOf_eq_some_iff {info : TxInfo} {i j : ℕ} {amount : ℤ} :
    amountOf info i j = some amount ↔
      ∃ preSender preReceiver postSender postReceiver,
        balanceAt info.preTokenBalances i = some preSender ∧
        balanceAt info.preTokenBalances j = some preReceiver ∧
        balanceAt info.postTokenBalances i = some postSender ∧
        balanceAt info.postTokenBalances j = some postReceiver ∧
        preSender - postSender = amount ∧ postReceiver - preReceiver = amount := by
  constructor
  · intro h
    unfold amountOf at h
    split at h
    · next preSender preReceiver postSender postReceiver hpre hpre' hpost hpost' =>
      split at h
      · next hsame =>
        cases h
        exact ⟨preSender, preReceiver, postSender, postReceiver, hpre, hpre', hpost, hpost', rfl,
          hsame.symm⟩
      · cases h
    · cases h
  · rintro ⟨preSender, preReceiver, postSender, postReceiver, hpre, hpre', hpost, hpost', hsent,
      hreceived⟩
    unfold amountOf
    rw [hpre, hpre', hpost, hpost']
    show (if preSender - postSender = postReceiver - preReceiver then some (preSender - postSender)
      else none) = some amount
    rw [if_pos (hsent.trans hreceived.symm), hsent]

/-- A tip names its two users and its amount. -/
def UserTip.Names (tip : UserTip) (senderUserId receiverUserId : ℕ) (amount : ℤ) : Prop :=
  tip.senderUserId = senderUserId ∧ tip.receiverUserId = receiverUserId ∧ tip.amount = amount

/-- The rows after a turn have the account it creates, and its tip just when it is one. -/
structure Adds (config : Config) (users : List CurrentUser) (tx : Tx) (info : TxInfo)
    (rows rows' : Rows) : Prop where
  accounts : rows'.accounts = rows.accounts ++ (createdBy config tx info).toList
  tips : ∃ tip : Option UserTip, rows'.tips = rows.tips ++ tip.toList ∧
    (∀ t ∈ tip, t.signature = tx.signature) ∧
    ∀ senderUserId receiverUserId amount,
      (∃ t ∈ tip, t.Names senderUserId receiverUserId amount) ↔
        TipAt config users rows.accounts info senderUserId receiverUserId amount

section Turn

variable {config : Config} {users : List CurrentUser} {tx : Tx} {info : TxInfo} {rows rows' : Rows}

/-- A transaction that is no transfer and creates nothing adds nothing. -/
theorem Adds.nothing (hcreated : createdBy config tx info = none)
    (htransfer : ∀ sender receiver amount, ¬ TransferOf config info sender receiver amount) :
    Adds config users tx info rows rows where
  accounts := by rw [hcreated, Option.toList_none, append_nil]
  tips := by
    refine ⟨none, by rw [Option.toList_none, append_nil], by simp, ?_⟩
    intro senderUserId receiverUserId amount
    constructor
    · rintro ⟨t, ht, -⟩
      cases ht
    · rintro ⟨sender, receiver, -, hof, -⟩
      exact absurd hof (htransfer sender receiver amount)

variable {instruction : Instruction}

/-- A transfer of the program that is processed leaves the accounts, and gives a tip just when it
is one. -/
theorem processTransferInstruction_ok
    (h : processTransferInstruction users tx info instruction rows = .ok rows') :
    rows'.accounts = rows.accounts ∧
      ∃ i sender j receiver, accountAt info instruction 1 = .ok (i, sender) ∧
        accountAt info instruction 2 = .ok (j, receiver) ∧
        ∃ tip : Option UserTip, rows'.tips = rows.tips ++ tip.toList ∧
          (∀ t ∈ tip, t.signature = tx.signature) ∧
          ∀ senderUserId receiverUserId amount,
            (∃ t ∈ tip, t.Names senderUserId receiverUserId amount) ↔
              sender ≠ receiver ∧ ownersOf users rows.accounts sender = [senderUserId] ∧
                ownersOf users rows.accounts receiver = [receiverUserId] ∧
                amountOf info i j = some amount := by
  obtain ⟨⟨i, sender⟩, hsender, h⟩ := bind_eq_ok.mp h
  obtain ⟨⟨j, receiver⟩, hreceiver, h⟩ := bind_eq_ok.mp h
  dsimp only at h
  have howners : ∀ senderUserId receiverUserId,
      (refreshUserBalances users rows.accounts [sender, receiver]).length = 2 ∧
        userIdsOf sender receiver (refreshUserBalances users rows.accounts [sender, receiver]) =
          (some senderUserId, some receiverUserId) ↔
      sender ≠ receiver ∧ ownersOf users rows.accounts sender = [senderUserId] ∧
        ownersOf users rows.accounts receiver = [receiverUserId] := by
    intro senderUserId receiverUserId
    rw [userIdsOf_eq_iff fun r hr ↦ mem_accts_of_mem_refresh hr, ownersOf_eq_filter (by simp),
      ownersOf_eq_filter (by simp)]
  generalize refreshUserBalances users rows.accounts [sender, receiver] = userIdAccounts
    at h howners
  have hnone : ¬ (userIdAccounts.length = 2 ∧ ∃ senderUserId receiverUserId amount,
      userIdsOf sender receiver userIdAccounts = (some senderUserId, some receiverUserId) ∧
        amountOf info i j = some amount) →
      ∀ senderUserId receiverUserId amount,
        (∃ t ∈ (none : Option UserTip), t.Names senderUserId receiverUserId amount) ↔
          sender ≠ receiver ∧ ownersOf users rows.accounts sender = [senderUserId] ∧
            ownersOf users rows.accounts receiver = [receiverUserId] ∧
            amountOf info i j = some amount := by
    intro hno senderUserId receiverUserId amount
    constructor
    · rintro ⟨t, ht, -⟩
      cases ht
    · rintro ⟨hne, hone, hother, hamount⟩
      obtain ⟨hlength, hids⟩ := (howners senderUserId receiverUserId).mpr ⟨hne, hone, hother⟩
      exact absurd ⟨hlength, senderUserId, receiverUserId, amount, hids, hamount⟩ hno
  split at h
  · next hlength =>
    split at h
    · next senderUserId receiverUserId amount hids hamount =>
      cases h
      refine ⟨rfl, i, sender, j, receiver, hsender, hreceiver,
        some ⟨tx.signature, tx.slot, senderUserId, receiverUserId, amount, info.blockTime⟩, rfl,
        by simp, ?_⟩
      intro senderUserId' receiverUserId' amount'
      obtain ⟨hne, hone, hother⟩ := (howners senderUserId receiverUserId).mp ⟨hlength, hids⟩
      rw [hone, hother, hamount]
      simp [UserTip.Names, hne]
    · next hno =>
      cases h
      refine ⟨rfl, i, sender, j, receiver, hsender, hreceiver, none, by simp, by simp, hnone ?_⟩
      rintro ⟨-, senderUserId, receiverUserId, amount, hids, hamount⟩
      exact hno senderUserId receiverUserId amount hids hamount
  · next hlength =>
    cases h
    exact ⟨rfl, i, sender, j, receiver, hsender, hreceiver, none, by simp, by simp,
      hnone fun hboth ↦ hlength hboth.1⟩

/-- A transaction that creates an account adds it, and is no tip. -/
theorem Adds.created {account : Option UserBankAccount} (hok : info.err = false)
    (hcreates : createTokenAccountLog ∈ info.logMessages)
    (hvalid : getValidInstruction config info = some instruction)
    (haccount : createdAccount config tx info instruction = .ok account) :
    Adds config users tx info rows { rows with accounts := rows.accounts ++ account.toList } where
  accounts := by
    unfold createdBy
    rw [if_pos ⟨hok, hcreates⟩, hvalid, Option.bind_some, haccount]
  tips := by
    refine ⟨none, by simp, by simp, fun senderUserId receiverUserId amount ↦ ⟨?_, ?_⟩⟩
    · rintro ⟨t, ht, -⟩
      cases ht
    · rintro ⟨sender, receiver, -, hof, -⟩
      exact absurd hcreates hof.creates

/-- A transfer adds its tip just when it is one. -/
theorem Adds.transferred (hok : info.err = false)
    (hcreates : createTokenAccountLog ∉ info.logMessages)
    (htransfers : transferLog ∈ info.logMessages)
    (hvalid : getValidInstruction config info = some instruction)
    (h : processTransferInstruction users tx info instruction rows = .ok rows') :
    Adds config users tx info rows rows' := by
  obtain ⟨haccounts, i, sender, j, receiver, hsender, hreceiver, tip, htips, hsignature, hnames⟩ :=
    processTransferInstruction_ok h
  have hcreated : createdBy config tx info = none := by
    unfold createdBy
    rw [if_neg fun hboth ↦ hcreates hboth.2]
  refine ⟨by rw [hcreated, haccounts]; simp, tip, htips, hsignature,
    fun senderUserId receiverUserId amount ↦ (hnames _ _ _).trans ⟨?_, ?_⟩⟩
  · rintro ⟨hne, hone, hother, hamount⟩
    exact ⟨sender, receiver, hne, ⟨hok, hcreates, htransfers, instruction, i, j, hvalid, hsender,
      hreceiver, amountOf_eq_some_iff.mp hamount⟩, hone, hother⟩
  · rintro ⟨sender', receiver', hne, hof, hone, hother⟩
    obtain ⟨instruction', i', j', hvalid', hsender', hreceiver', hamount⟩ := hof.instruction
    rw [hvalid] at hvalid'
    cases hvalid'
    rw [hsender] at hsender'
    rw [hreceiver] at hreceiver'
    cases hsender'
    cases hreceiver'
    exact ⟨hne, hone, hother, amountOf_eq_some_iff.mpr hamount⟩

/-- A transaction that is processed adds the account it creates, and its tip just when it is one. -/
theorem processUserBankTxDetails_ok
    (h : processUserBankTxDetails config users tx info rows = .ok rows') :
    Adds config users tx info rows rows' := by
  unfold processUserBankTxDetails at h
  split at h
  · next herr =>
    cases h
    refine .nothing ?_ fun sender receiver amount hof ↦ ?_
    · unfold createdBy
      rw [if_neg]
      rintro ⟨hok, -⟩
      rw [hok] at herr
      cases herr
    · rw [hof.succeeded] at herr
      cases herr
  · next hok =>
    have hok : info.err = false := by simpa using hok
    split at h
    · next hlogs =>
      cases h
      refine .nothing ?_ fun sender receiver amount hof ↦ hlogs.2 hof.transfers
      unfold createdBy
      rw [if_neg fun hcreates ↦ hlogs.1 hcreates.2]
    · next hlogs =>
      split at h
      · next hvalid =>
        cases h
        refine .nothing ?_ fun sender receiver amount hof ↦ ?_
        · unfold createdBy
          rw [hvalid, Option.bind_none, ite_self]
        · obtain ⟨instruction, i, j, hinstruction, -⟩ := hof.instruction
          rw [hvalid] at hinstruction
          cases hinstruction
      · next instruction hvalid =>
        split at h
        · next hcreates =>
          obtain ⟨account, haccount, h⟩ := bind_eq_ok.mp h
          cases h
          exact .created hok hcreates hvalid haccount
        · next hcreates =>
          refine .transferred hok hcreates ?_ hvalid h
          by_contra hno
          exact hlogs ⟨hcreates, hno⟩

end Turn

/-! ### What a run of turns adds -/

section Turns

variable {config : Config} {getSolTxInfo : Tx → TxInfo} {rows rows' : Rows} {turns : List Turn}

/-- The accounts are those that the turns created. -/
theorem accounts_processTurns (h : processTurns config getSolTxInfo turns rows = .ok rows') :
    rows'.accounts = rows.accounts ++ accountsOf config getSolTxInfo (turns.map Turn.tx) := by
  unfold processTurns at h
  unfold accountsOf
  induction turns generalizing rows with
  | nil =>
    cases h
    exact (append_nil _).symm
  | cons turn turns ih =>
    obtain ⟨next, hnext, h⟩ := bind_eq_ok.mp h
    rw [ih h, (processUserBankTxDetails_ok hnext).accounts, append_assoc]
    cases hcreated : createdBy config turn.tx (getSolTxInfo turn.tx) with
    | none => simp [hcreated]
    | some account => simp [hcreated]

/-- The tips of turns have the signatures of these turns. -/
theorem tips_processTurns (h : processTurns config getSolTxInfo turns rows = .ok rows') :
    ∃ tips, rows'.tips = rows.tips ++ tips ∧
      ∀ tip ∈ tips, tip.signature ∈ turns.map fun t ↦ t.tx.signature := by
  unfold processTurns at h
  induction turns generalizing rows with
  | nil =>
    cases h
    exact ⟨[], (append_nil _).symm, by simp⟩
  | cons turn turns ih =>
    obtain ⟨next, hnext, h⟩ := bind_eq_ok.mp h
    obtain ⟨tip, htip, hsignature, -⟩ := (processUserBankTxDetails_ok hnext).tips
    obtain ⟨tips, htips, hsignatures⟩ := ih h
    refine ⟨tip.toList ++ tips, by rw [htips, htip, append_assoc], fun t ht ↦ ?_⟩
    rcases mem_append.mp ht with ht | ht
    · rw [map_cons, hsignature t (Option.mem_toList.mp ht)]
      exact mem_cons_self
    · exact mem_cons_of_mem _ (hsignatures t ht)

/-- Turns with distinct signatures leave one tip for each turn that is a tip on the rows that the
turns before it created, and none for another. -/
theorem tips_of_turn {before after : List Turn} {turn : Turn}
    (h : processTurns config getSolTxInfo turns ⟨[], [], [], []⟩ = .ok rows')
    (hdistinct : (turns.map fun t ↦ t.tx.signature).Nodup)
    (hturns : turns = before ++ turn :: after) (senderUserId receiverUserId : ℕ) (amount : ℤ) :
    (∃ tip, rows'.tips.filter (fun t ↦ decide (t.signature = turn.tx.signature)) = [tip] ∧
        tip.Names senderUserId receiverUserId amount) ↔
      TipAt config turn.users (accountsOf config getSolTxInfo (before.map Turn.tx))
        (getSolTxInfo turn.tx) senderUserId receiverUserId amount := by
  subst hturns
  have hsplit := h
  unfold processTurns at hsplit
  rw [foldlM_append] at hsplit
  obtain ⟨earlier, hearlier, hsplit⟩ := bind_eq_ok.mp hsplit
  obtain ⟨next, hnext, hlater⟩ := bind_eq_ok.mp hsplit
  obtain ⟨tip, htip, hsignature, htipAt⟩ := (processUserBankTxDetails_ok hnext).tips
  obtain ⟨old, hold, hbefore⟩ := tips_processTurns hearlier
  obtain ⟨new, hnew, hafter⟩ := tips_processTurns hlater
  rw [map_append, map_cons] at hdistinct
  obtain ⟨-, hrest, hdisjoint⟩ := nodup_append.mp hdistinct
  have hnotAfter := (nodup_cons.mp hrest).1
  have hnoOld : old.filter (fun t ↦ decide (t.signature = turn.tx.signature)) = [] := by
    apply filter_eq_nil_iff.mpr
    intro t ht
    have hne := hdisjoint _ (hbefore t ht) _ mem_cons_self
    simpa using hne
  have hnoNew : new.filter (fun t ↦ decide (t.signature = turn.tx.signature)) = [] := by
    apply filter_eq_nil_iff.mpr
    intro t ht
    have hne : t.signature ≠ turn.tx.signature := fun heq ↦ hnotAfter (heq ▸ hafter t ht)
    simpa using hne
  have hown : tip.toList.filter (fun t ↦ decide (t.signature = turn.tx.signature)) =
      tip.toList := by
    apply filter_eq_self.mpr
    intro t ht
    exact decide_eq_true (hsignature t (Option.mem_toList.mp ht))
  have htips : rows'.tips.filter (fun t ↦ decide (t.signature = turn.tx.signature)) =
      tip.toList := by
    rw [hnew, htip, hold, nil_append, filter_append, filter_append, hnoOld, hnoNew,
      hown, nil_append, append_nil]
  have haccounts : earlier.accounts = accountsOf config getSolTxInfo (before.map Turn.tx) := by
    rw [accounts_processTurns hearlier, nil_append]
  rw [htips, ← haccounts, ← htipAt]
  constructor
  · rintro ⟨t, ht, hnames⟩
    exact ⟨t, Option.mem_toList.mp (ht ▸ mem_cons_self), hnames⟩
  · rintro ⟨t, ht, hnames⟩
    exact ⟨t, by rw [Option.mem_def.mp ht]; rfl, hnames⟩

end Turns

/-! ### Runs -/

section Runs

variable (config : Config) (getSolTxInfo : Tx → TxInfo) (minSlot : ℕ)

/-- What holds along a run: the turns that were committed are those of the transactions of the
table, and the rows are what they leave. -/
structure Indexer.Consistent (s : Indexer) : Prop where
  table : s.table.Consistent .userBank minSlot
  committed : (s.committed.map Turn.tx).Perm s.table.table
  rows : processTurns config getSolTxInfo s.committed ⟨[], [], [], []⟩ = .ok s.rows

variable {config getSolTxInfo minSlot}

theorem Indexer.Consistent.start (history : History) :
    (Indexer.start history).Consistent config getSolTxInfo minSlot where
  table := TableIndexer.Consistent.start history
  committed := .nil
  rows := rfl

/-- Only a commit changes the table. -/
theorem table_of_not_commits {table table' : TableIndexer} {e : TableEvent}
    (he : e ≠ .commits) (h : tableStep .userBank minSlot table e = .ok table') :
    table'.table = table.table := by
  cases e with
  | finalizes tx =>
    simp only [tableStep] at h
    split at h
    · cases h
      rfl
    · cases h
  | starts answers =>
    cases h
    rfl
  | commits => exact absurd rfl he

theorem Indexer.Consistent.step {s s' : Indexer} {e : Event}
    (h : s.Consistent config getSolTxInfo minSlot)
    (hstep : UserBank.step config getSolTxInfo minSlot s e = .ok s') :
    s'.Consistent config getSolTxInfo minSlot := by
  cases e with
  | finalizes | starts =>
    obtain ⟨table, htable, hstep⟩ := bind_eq_ok.mp hstep
    cases hstep
    exact ⟨h.table.step htable, (table_of_not_commits (by simp) htable) ▸ h.committed, h.rows⟩
  | commits turns =>
    obtain ⟨hbatch, hstep⟩ := require_bind_eq_ok.mp hstep
    obtain ⟨table, htable, hstep⟩ := bind_eq_ok.mp hstep
    obtain ⟨rows, hrows, hstep⟩ := bind_eq_ok.mp hstep
    cases hstep
    refine ⟨h.table.step htable, ?_, ?_⟩
    · simp only [tableStep] at htable
      split at htable
      · cases htable
      · next batch batches hbatches =>
        obtain ⟨-, htable⟩ := require_bind_eq_ok.mp htable
        cases htable
        rw [hbatches, headD_cons] at hbatch
        rw [map_append]
        exact h.committed.append hbatch.1
    · show processTurns config getSolTxInfo (s.committed ++ turns) ⟨[], [], [], []⟩ = .ok rows
      have hall := h.rows
      unfold processTurns at hall hrows ⊢
      rw [foldlM_append, hall]
      exact hrows

theorem Indexer.Consistent.distinct {s : Indexer} (h : s.Consistent config getSolTxInfo minSlot) :
    (s.committed.map fun t ↦ t.tx.signature).Nodup := by
  have hperm := h.committed.map Tx.signature
  rw [map_map] at hperm
  exact hperm.nodup_iff.mpr h.table.distinct

variable (config getSolTxInfo minSlot)

theorem consistent_indexer (history : History) (events : List Event) :
    (indexer config getSolTxInfo minSlot history events).Consistent config getSolTxInfo minSlot :=
  replay_invariant' (Indexer.Consistent config getSolTxInfo minSlot)
    (fun _ _ _ hs hstep ↦ hs.step hstep) events (Indexer.Consistent.start history)

/-- A transaction has one tip, of these users and of this amount. -/
def Indexer.Recorded (s : Indexer) (tx : Tx) (senderUserId receiverUserId : ℕ) (amount : ℤ) :
    Prop :=
  ∃ tip, s.rows.tips.filter (fun t ↦ decide (t.signature = tx.signature)) = [tip] ∧
    tip.Names senderUserId receiverUserId amount

/-- In every run, of whatever starts, failures, finalized transactions and orders of the turns in
a batch, the transactions of the table have had their turns, once each, and one has a tip just when
it was one at its turn: a transfer between two accounts that have one owner each among the rows
that the turns before it created. -/
theorem recorded_iff_tipAt (history : History) (events : List Event) :
    let s := indexer config getSolTxInfo minSlot history events
    (s.committed.map Turn.tx).Perm s.table.table ∧
      ∀ before turn after, s.committed = before ++ turn :: after →
        ∀ senderUserId receiverUserId amount,
          s.Recorded turn.tx senderUserId receiverUserId amount ↔
            TipAt config turn.users (accountsOf config getSolTxInfo (before.map Turn.tx))
              (getSolTxInfo turn.tx) senderUserId receiverUserId amount := by
  intro s
  have h : s.Consistent config getSolTxInfo minSlot :=
    consistent_indexer config getSolTxInfo minSlot history events
  refine ⟨h.committed, fun before turn after hturns senderUserId receiverUserId amount ↦ ?_⟩
  exact tips_of_turn h.rows h.distinct hturns senderUserId receiverUserId amount

end Runs

/-! ### A page with both accounts and the transfer -/

/-- The configured addresses, and what the libraries compute for two accounts. -/
def twoAccounts : Config where
  userBankAddress := "Ewkv3JahEFRKkcJmpoKB7pXbnUHwjAyXiwEo4ZY2rezQ"
  b58decode data :=
    if data = "19FdtKVXFKF9th3YRdm4oXic7aj1" then
      .ok [0, 10, 54, 123, 146, 207, 11, 3, 125, 253, 137, 150, 14, 232, 50, 213, 111, 127, 193, 81,
        104]
    else if data = "12opxKws41D8rZJnf4B6W3DstcVKq" then
      .ok [0, 129, 186, 232, 118, 183, 5, 19, 201, 222, 204, 96, 142, 237, 84, 153, 119, 168, 26,
        250, 28]
    else .error "Invalid character"
  bankAccountOf bytes :=
    if bytes.head? = some 10 then "3a4d4RACYEF652K5B671MFhG7kp4TcV1h5aRR6UMApgq"
    else "77Pm2UUck3PHuxT1LQbhzLRzsrWcXLRKd7tg2EEjtreA"

/-- The sender's account is created, then the receiver's, then 5 tokens of 8 are sent. -/
def creationsAndTransfer (tx : Tx) : TxInfo :=
  if tx.slot = 1 then
    ⟨100, false, ["feePayer", "3a4d4RACYEF652K5B671MFhG7kp4TcV1h5aRR6UMApgq",
        "Ewkv3JahEFRKkcJmpoKB7pXbnUHwjAyXiwEo4ZY2rezQ"],
      [⟨2, [0, 1], "19FdtKVXFKF9th3YRdm4oXic7aj1"⟩], [createTokenAccountLog], [], []⟩
  else if tx.slot = 2 then
    ⟨200, false, ["feePayer", "77Pm2UUck3PHuxT1LQbhzLRzsrWcXLRKd7tg2EEjtreA",
        "Ewkv3JahEFRKkcJmpoKB7pXbnUHwjAyXiwEo4ZY2rezQ"],
      [⟨2, [0, 1], "12opxKws41D8rZJnf4B6W3DstcVKq"⟩], [createTokenAccountLog], [], []⟩
  else
    ⟨300, false, ["feePayer", "3a4d4RACYEF652K5B671MFhG7kp4TcV1h5aRR6UMApgq",
        "77Pm2UUck3PHuxT1LQbhzLRzsrWcXLRKd7tg2EEjtreA",
        "Ewkv3JahEFRKkcJmpoKB7pXbnUHwjAyXiwEo4ZY2rezQ"],
      [⟨3, [0, 1, 2], "4i7NqdGzFeQEr92Pvz8yKze3eufu"⟩], [transferLog],
      [⟨1, 8⟩, ⟨2, 0⟩], [⟨1, 3⟩, ⟨2, 5⟩]⟩

/-- The owners of the two accounts. -/
def twoOwners : List CurrentUser :=
  [⟨1, some "0x0a367b92cf0b037dfd89960ee832d56f7fc15168"⟩,
    ⟨2, some "0x81bae876b70513c9decc608eed549977a81afa1c"⟩]

/-- The three transactions, newest first. -/
def threeTransactions : History :=
  ⟨[⟨"transfer", 3⟩, ⟨"createReceiver", 2⟩, ⟨"createSender", 1⟩], by decide, by decide⟩

/-- The page is fetched, and its transactions take their turns as they are listed. -/
def asListed : List Event :=
  [.starts 2, .commits (threeTransactions.txs.map (⟨·, twoOwners⟩))]

/-- The page is fetched, and its transactions take their turns from the oldest on. -/
def oldestFirst : List Event :=
  [.starts 2, .commits (threeTransactions.txs.reverse.map (⟨·, twoOwners⟩))]

theorem transferOf_transfer :
    TransferOf twoAccounts (creationsAndTransfer ⟨"transfer", 3⟩)
      "3a4d4RACYEF652K5B671MFhG7kp4TcV1h5aRR6UMApgq"
      "77Pm2UUck3PHuxT1LQbhzLRzsrWcXLRKd7tg2EEjtreA" 5 where
  succeeded := rfl
  creates := by decide +kernel
  transfers := by decide +kernel
  instruction := ⟨⟨3, [0, 1, 2], "4i7NqdGzFeQEr92Pvz8yKze3eufu"⟩, 1, 2, by decide +kernel, rfl, rfl,
    8, 0, 3, 5, rfl, rfl, rfl, rfl, by decide, by decide⟩

theorem recorded_oldestFirst :
    (indexer twoAccounts creationsAndTransfer 0 threeTransactions oldestFirst).Recorded
      ⟨"transfer", 3⟩ 1 2 5 :=
  ((recorded_iff_tipAt twoAccounts creationsAndTransfer 0 threeTransactions oldestFirst).2
    [⟨⟨"createSender", 1⟩, twoOwners⟩, ⟨⟨"createReceiver", 2⟩, twoOwners⟩]
    ⟨⟨"transfer", 3⟩, twoOwners⟩ [] (by decide +kernel) 1 2 5).mpr
      ⟨_, _, by decide +kernel, transferOf_transfer, by decide +kernel, by decide +kernel⟩

/-- A transfer that is a tip on the rows that all older transactions of the program create is
recorded once it is passed. -/
def RecordsEveryTip (minSlot : ℕ) : Prop :=
  ∀ history events,
    let s := indexer config getSolTxInfo minSlot history events
    ∀ turn ∈ s.committed, ∀ newer older, s.table.history.txs = newer ++ turn.tx :: older →
      ∀ senderUserId receiverUserId amount,
        TipAt config turn.users (accountsOf config getSolTxInfo older) (getSolTxInfo turn.tx)
            senderUserId receiverUserId amount →
          s.Recorded turn.tx senderUserId receiverUserId amount

/-- The page lists the transfer before the transactions that created its accounts. -/
theorem not_recordsEveryTip_asListed : ¬ RecordsEveryTip twoAccounts creationsAndTransfer 0 := by
  intro h
  have hrecorded := h threeTransactions asListed ⟨⟨"transfer", 3⟩, twoOwners⟩ (by decide +kernel)
    [] [⟨"createReceiver", 2⟩, ⟨"createSender", 1⟩] (by decide +kernel) 1 2 5
    ⟨_, _, by decide +kernel, transferOf_transfer, by decide +kernel, by decide +kernel⟩
  have hnone : (indexer twoAccounts creationsAndTransfer 0 threeTransactions
      asListed).rows.tips = [] := by
    decide +kernel
  obtain ⟨tip, htip, -⟩ := hrecorded
  cases htip

end UserBank

end ColivingSpec.Solana
