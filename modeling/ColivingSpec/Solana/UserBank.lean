import ColivingSpec.Solana.TransactionTables

/-!
# User bank accounts and tips

What the user bank indexer reads from a transaction of its program. A transaction that creates a
token account gives a row with the account and the Ethereum address it is for. A transfer is a tip
when the rows of accounts, joined with the current users by their wallets, give a user for each of
its two accounts. The transactions of a batch are processed by a pool of threads over one session,
so that they take their turns in many orders; the rows of a batch are committed together.
-/

namespace ColivingSpec.Solana

open Lib

namespace UserBank

/-! ### Transactions -/

/-- An instruction of a transaction. -/
structure Instruction where
  programIdIndex : ℕ
  accounts : List ℕ
  data : String
  deriving DecidableEq, Repr

/-- The balance of a token account before or after a transaction. -/
structure TokenBalance where
  accountIndex : ℕ
  amount : ℤ
  deriving DecidableEq, Repr

/-- What `get_sol_tx_info` answers of a transaction. -/
structure TxInfo where
  blockTime : ℕ
  err : Bool
  accountKeys : List String
  instructions : List Instruction
  logMessages : List String
  preTokenBalances : List TokenBalance
  postTokenBalances : List TokenBalance
  deriving DecidableEq, Repr

/-- A current row of `users`. -/
structure CurrentUser where
  userId : ℕ
  wallet : Option String
  deriving DecidableEq, Repr

/-- A row of `user_bank_accounts`: `user_bank.py:14–20`. -/
structure UserBankAccount where
  signature : Signature
  ethereumAddress : String
  bankAccount : String
  createdAt : ℕ
  deriving DecidableEq, Repr

/-- A row of `user_tips`: `user_tip.py:6–20`. -/
structure UserTip where
  signature : Signature
  slot : ℕ
  senderUserId : ℕ
  receiverUserId : ℕ
  amount : ℤ
  createdAt : ℕ
  deriving DecidableEq, Repr

/-- The tables, the challenge events with their slots and users, and the users whose balances are
to be refreshed. -/
structure Rows where
  accounts : List UserBankAccount
  tips : List UserTip
  dispatched : List (ℕ × ℕ)
  refreshed : List ℕ
  deriving DecidableEq, Repr

/-- The configuration, and what the libraries compute: `b58decode`, and the token account of an
Ethereum address, `get_address_pair`. -/
structure Config where
  userBankAddress : String
  b58decode : String → Except String (List UInt8)
  bankAccountOf : List UInt8 → String

/-- A log line of the program. -/
def createTokenAccountLog : String := "Program log: Instruction: CreateTokenAccount"

/-- A log line of the program. -/
def transferLog : String := "Program log: Instruction: Transfer"

section Process

variable (config : Config) (users : List CurrentUser)

/-! ### Transfers -/

/-- `refresh_user_balances`: `index_user_bank.py:109–130`, what it returns. -/
def refreshUserBalances (accounts : List UserBankAccount) (accts : List String) :
    List (ℕ × String) :=
  accounts.flatMap fun account ↦
    if account.bankAccount ∈ accts then
      (users.filter fun user ↦ decide (user.wallet = some account.ethereumAddress)).map fun user ↦
        (user.userId, account.bankAccount)
    else []

/-- The users of the sender and of the receiver: `index_user_bank.py:163–174`. -/
def userIdsOf (sender receiver : String) (userIdAccounts : List (ℕ × String)) :
    Option ℕ × Option ℕ :=
  userIdAccounts.foldl
    (fun ids userIdAccount ↦
      if userIdAccount.2 = sender then (some userIdAccount.1, ids.2)
      else if userIdAccount.2 = receiver then (ids.1, some userIdAccount.1)
      else ids)
    (none, none)

/-- The balance of an account by its index. -/
def balanceAt (balances : List TokenBalance) (accountIndex : ℕ) : Option ℤ :=
  (balances.find? fun balance ↦ decide (balance.accountIndex = accountIndex)).map
    TokenBalance.amount

variable (info : TxInfo) (tx : Tx)

/-- The amount that was sent, if it is the amount that was received: `index_user_bank.py:176–233`. -/
def amountOf (senderIndex receiverIndex : ℕ) : Option ℤ :=
  match balanceAt info.preTokenBalances senderIndex,
    balanceAt info.preTokenBalances receiverIndex,
    balanceAt info.postTokenBalances senderIndex,
    balanceAt info.postTokenBalances receiverIndex with
  | some preSender, some preReceiver, some postSender, some postReceiver =>
    if preSender - postSender = postReceiver - preReceiver then some (preSender - postSender)
    else none
  | _, _, _, _ => none

/-- `instruction["accounts"][position]` and the key with that index. -/
def accountAt (instruction : Instruction) (position : ℕ) : Except String (ℕ × String) :=
  match instruction.accounts[position]? with
  | none => .error "list index out of range"
  | some index =>
    match info.accountKeys[index]? with
    | none => .error "list index out of range"
    | some account => .ok (index, account)

/-- `process_transfer_instruction`: `index_user_bank.py:135–244`. -/
def processTransferInstruction (info : TxInfo) (instruction : Instruction) (rows : Rows) :
    Except String Rows := do
  let sender ← accountAt info instruction 1
  let receiver ← accountAt info instruction 2
  let userIdAccounts := refreshUserBalances users rows.accounts [sender.2, receiver.2]
  let rows := { rows with refreshed := rows.refreshed ++ userIdAccounts.map Prod.fst }
  if userIdAccounts.length = 2 then
    match userIdsOf sender.2 receiver.2 userIdAccounts, amountOf info sender.1 receiver.1 with
    | (some senderUserId, some receiverUserId), some amount =>
      return { rows with
        tips := rows.tips ++
          [⟨tx.signature, tx.slot, senderUserId, receiverUserId, amount, info.blockTime⟩]
        dispatched := rows.dispatched ++ [(tx.slot, senderUserId)] }
    | _, _ => return rows
  else return rows

/-! ### New accounts -/

/-- The address of 20 bytes in hex: `solana_parser.py:53–60`. -/
def ethAddressOf (bytes : List UInt8) : String :=
  let decoded := bytes.foldl (fun n byte ↦ 256 * n + byte.toNat) 0
  "0x" ++ String.ofList ((Nat.toDigits 16 decoded).leftpad 40 '0')

/-- The row of an account that is created; its address stands in the transaction, and not at index
0: `index_user_bank.py:325–351`. -/
def createdAccount (info : TxInfo) (instruction : Instruction) :
    Except String (Option UserBankAccount) := do
  let decoded ← config.b58decode instruction.data
  let publicKeyBytes := (decoded.drop 1).take 20
  let bankAcct := config.bankAccountOf publicKeyBytes
  return if info.accountKeys.idxOf bankAcct < info.accountKeys.length ∧
      info.accountKeys.idxOf bankAcct ≠ 0 then
    some ⟨tx.signature, ethAddressOf publicKeyBytes, bankAcct, info.blockTime⟩
  else none

/-! ### A transaction -/

/-- `get_valid_instruction`: `index_user_bank.py:265–286`. -/
def getValidInstruction : Option Instruction :=
  if config.userBankAddress ∈ info.accountKeys then
    info.instructions.find? fun instruction ↦
      decide (instruction.programIdIndex = info.accountKeys.idxOf config.userBankAddress)
  else none

/-- `process_user_bank_tx_details`: `index_user_bank.py:289–364`. -/
def processUserBankTxDetails (info : TxInfo) (rows : Rows) : Except String Rows :=
  if info.err then .ok rows
  else if createTokenAccountLog ∉ info.logMessages ∧ transferLog ∉ info.logMessages then .ok rows
  else
    match getValidInstruction config info with
    | none => .ok rows
    | some instruction =>
      if createTokenAccountLog ∈ info.logMessages then do
        let account ← createdAccount config tx info instruction
        return { rows with accounts := rows.accounts ++ account.toList }
      else processTransferInstruction users tx info instruction rows

end Process

/-! ### Batches -/

/-- A transaction that takes its turn, and the current users at that moment. -/
structure Turn where
  tx : Tx
  users : List CurrentUser
  deriving DecidableEq, Repr

/-- The threads of the pool: `index_user_bank.py:498`. -/
def maxWorkers : ℕ := 5

/-- An order of turns that the pool allows: all that are listed before a transaction have started
when it takes its turn, and all but four of them are through. -/
def InTurn (batch : List Tx) (turns : List Turn) : Prop :=
  (turns.map Turn.tx).Perm batch ∧
    ∀ turn ∈ turns.zipIdx, turn.1.tx ∈ batch.take (turn.2 + maxWorkers)

instance (batch : List Tx) (turns : List Turn) : Decidable (InTurn batch turns) :=
  inferInstanceAs (Decidable (_ ∧ _))

section Batches

variable (config : Config) (getSolTxInfo : Tx → TxInfo)

/-- `parse_user_bank_transaction`: `index_user_bank.py:367–388`, but for the row of the transaction,
which `TableIndexer` keeps. -/
def parseUserBankTransaction (rows : Rows) (turn : Turn) : Except String Rows :=
  processUserBankTxDetails config turn.users turn.tx (getSolTxInfo turn.tx) rows

/-- The turns of a batch; what raises in one of them leaves none of their rows. -/
def processTurns (turns : List Turn) (rows : Rows) : Except String Rows :=
  turns.foldlM (parseUserBankTransaction config getSolTxInfo) rows

/-- The indexer with its rows, and the turns that were committed, in their order. -/
structure Indexer where
  table : TableIndexer
  rows : Rows
  committed : List Turn

/-- What happens to the program and to the indexer. -/
inductive Event where
  /-- A transaction of the program is finalized. -/
  | finalizes (tx : Tx)
  /-- A run starts, after whatever the last one left, and this many requests are answered. -/
  | starts (answers : ℕ)
  /-- The run processes its next batch, in these turns, and commits it. -/
  | commits (turns : List Turn)
  deriving Repr

variable (minSlot : ℕ)

/-- One event; a batch whose processing raises is not committed: `index_user_bank.py:494–525`. -/
def step (s : Indexer) : Event → Except String Indexer
  | .finalizes tx => do
    let table ← tableStep .userBank minSlot s.table (.finalizes tx)
    return { s with table := table }
  | .starts answers => do
    let table ← tableStep .userBank minSlot s.table (.starts answers)
    return { s with table := table }
  | .commits turns => do
    require (InTurn (s.table.transactionSignatures.headD []) turns) "not the next batch"
    let table ← tableStep .userBank minSlot s.table .commits
    let rows ← processTurns config getSolTxInfo turns s.rows
    return ⟨table, rows, s.committed ++ turns⟩

/-- A program with any history, and an indexer that has not run. -/
def Indexer.start (history : History) : Indexer where
  table := TableIndexer.start history
  rows := ⟨[], [], [], []⟩
  committed := []

/-- The indexer after a run of events. -/
def indexer (history : History) (events : List Event) : Indexer :=
  replay (step config getSolTxInfo minSlot) (Indexer.start history) events

end Batches

end UserBank

end ColivingSpec.Solana
