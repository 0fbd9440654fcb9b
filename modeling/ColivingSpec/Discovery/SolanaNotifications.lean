import Mathlib.Data.List.Sort
import ColivingSpec.Lib.Replay

/-!
# Solana notifications

The endpoint `/solana_notifications` of the discovery node (`queries/notifications.py:1054–1284`),
the indexers that commit what it reads and set the slots it goes by, and a consumer that polls it
from where the last answer ended. An indexer of a program commits what it found in batches and
then sets its slot; the one of aggregate tips sets its slot in the session that it commits after.
The read replica is the database.
-/

namespace ColivingSpec

open Lib

namespace SolanaNotifications

structure ChallengeDisbursement where
  challengeId : String
  specifier : String
  userId : ℕ
  slot : ℕ
  deriving DecidableEq

/-- A row of `milestones` with name `LISTEN_COUNT`. -/
structure Milestone where
  id : ℕ
  threshold : ℕ
  slot : ℕ
  deriving DecidableEq

structure SupporterRankUp where
  slot : ℕ
  senderUserId : ℕ
  receiverUserId : ℕ
  rank : ℕ
  deriving DecidableEq

structure UserTip where
  slot : ℕ
  signature : String
  senderUserId : ℕ
  receiverUserId : ℕ
  amount : ℕ
  deriving DecidableEq

structure Reaction where
  id : ℕ
  slot : ℕ
  reactionValue : ℕ
  senderWallet : String
  reactionType : String
  reactedTo : String
  deriving DecidableEq

inductive Table where
  | challengeDisbursements
  | milestones
  | supporterRankUps
  | userTips
  | reactions
  deriving DecidableEq

/-- A row of one of the tables. -/
inductive Row where
  | challengeDisbursement (row : ChallengeDisbursement)
  | milestone (row : Milestone)
  | supporterRankUp (row : SupporterRankUp)
  | userTip (row : UserTip)
  | reaction (row : Reaction)
  deriving DecidableEq

namespace Row

def table : Row → Table
  | challengeDisbursement _ => .challengeDisbursements
  | milestone _ => .milestones
  | supporterRankUp _ => .supporterRankUps
  | userTip _ => .userTips
  | reaction _ => .reactions

def slot : Row → ℕ
  | challengeDisbursement row => row.slot
  | milestone row => row.slot
  | supporterRankUp row => row.slot
  | userTip row => row.slot
  | reaction row => row.slot

/-- The table and the primary key. -/
def key : Row → Table × List ℕ × List String
  | challengeDisbursement row => (.challengeDisbursements, [], [row.challengeId, row.specifier])
  | milestone row => (.milestones, [row.id, row.threshold], [])
  | supporterRankUp row => (.supporterRankUps, [row.slot, row.senderUserId, row.receiverUserId], [])
  | userTip row => (.userTips, [row.slot], [row.signature])
  | reaction row => (.reactions, [row.id], [])

end Row

/-- A row of `digitalContents`, which keeps earlier versions. -/
structure DigitalContent where
  digitalContentId : ℕ
  ownerId : ℕ
  isCurrent : Bool
  deriving DecidableEq

/-- A row of `users`, which keeps earlier versions. -/
structure User where
  userId : ℕ
  wallet : String
  isCurrent : Bool
  deriving DecidableEq

/-- A notification of a response: the rows that its fields are read from. -/
inductive Notification where
  | challengeReward (row : ChallengeDisbursement)
  | listenMilestone (row : Milestone) (ownerId : ℕ)
  | supporterRankUp (row : SupporterRankUp)
  | tip (row : UserTip)
  | reaction (row : Reaction) (userId : ℕ) (tip : UserTip)
  deriving DecidableEq

namespace Notification

/-- The row that is notified of. -/
def row : Notification → Row
  | challengeReward row => .challengeDisbursement row
  | listenMilestone row _ => .milestone row
  | supporterRankUp row => .supporterRankUp row
  | tip row => .userTip row
  | reaction row _ _ => .reaction row

def slot (notification : Notification) : ℕ := notification.row.slot

end Notification

/-- The indexers of programs. -/
inductive Program where
  | plays
  | rewardsManager
  | userBank
  deriving DecidableEq

/-- The slots kept in Redis. -/
inductive SlotKey where
  | program (p : Program)
  | aggregateTips
  deriving DecidableEq

/-- A run of the indexer of a program: the slot of the last transaction it found, if it found any,
the global slot before it looked, and the rows to commit by batch. -/
structure Run where
  lastSlot : Option ℕ
  latestGlobalSlot : Option ℕ
  batches : List (List Row)

/-- A run of `update_aggregate_tips` before its session ends. -/
structure TipsRun where
  userBankSlot : Option ℕ
  maxSlot : ℕ
  rankUps : List SupporterRankUp
  hasSet : Bool

/-- The discovery node, and the consumer: what it passes next, the responses it got, and whether
the endpoint has raised. -/
structure Node where
  rows : List Row
  digitalContents : List DigitalContent
  users : List User
  slots : SlotKey → Option ℕ
  checkpoint : ℕ
  runs : Program → Option Run
  tipsRun : Option TipsRun
  minSlotNumber : ℕ
  responses : List (List Notification)
  raised : Bool

namespace Node

variable (n : Node)

/-! ### The endpoint -/

/-- Lines 1054–1080: the least of the slots that are set. -/
def getMaxSlot : ℕ :=
  let allSlots := [n.slots (.program .plays), n.slots (.program .rewardsManager),
    n.slots .aggregateTips].reduceOption
  allSlots.min?.getD 0

/-- Lines 1104–1114. -/
def maxSlotNumber (maxSlotDiff minSlotNumber : ℕ) (maxSlotNumber : Option ℕ) : ℕ :=
  let requested :=
    match maxSlotNumber with
    | none | some 0 => minSlotNumber + maxSlotDiff
    | some requested =>
      if minSlotNumber + maxSlotDiff < requested then minSlotNumber + maxSlotDiff else requested
  min requested n.getMaxSlot

/-- The rows of a table in a range of slots. -/
def query (t : Table) (low high : ℕ) : List Row :=
  n.rows.filter fun row ↦ row.table = t ∧ low < row.slot ∧ row.slot ≤ high

/-- The owners that a listen milestone is joined with, lines 1144–1153. The condition
`digital_content_id == Milestone.id and is_current == True` is its first part. -/
def owners (milestone : Milestone) : List ℕ :=
  (n.digitalContents.filter fun content ↦ content.digitalContentId = milestone.id).map
    DigitalContent.ownerId

/-- The users that a reaction is joined with, lines 1221–1230. -/
def senders (reaction : Reaction) : List ℕ :=
  (n.users.filter fun user ↦ user.wallet = reaction.senderWallet ∧ user.isCurrent).map User.userId

/-- The reactions of a range with their users. -/
def reactionResults (low high : ℕ) : List (Reaction × ℕ) :=
  (n.query .reactions low high).flatMap fun row ↦
    match row with
    | .reaction reaction => (n.senders reaction).map fun userId ↦ (reaction, userId)
    | _ => []

/-- The tips, in order. -/
def tips : List UserTip :=
  n.rows.filterMap fun row ↦
    match row with
    | .userTip tip => some tip
    | _ => none

/-- `tips_map[reaction.reacted_to]`, lines 1232–1243: the tips that reactions of type `tip` of the
range are to. -/
def tipOf (low high : ℕ) (reaction : Reaction) : Except String UserTip :=
  let tipSignatures := (n.reactionResults low high).filterMap fun result ↦
    if result.1.reactionType = "tip" then some result.1.reactedTo else none
  let reactionTips := n.tips.filter fun tip ↦ tip.signature ∈ tipSignatures
  match reactionTips.reverse.find? fun tip ↦ tip.signature = reaction.reactedTo with
  | some tip => .ok tip
  | none => .error "KeyError"

/-- The notifications of the reactions, lines 1245–1266. -/
def reactions (low high : ℕ) : Except String (List Notification) :=
  (n.reactionResults low high).mapM fun result ↦ do
    let tip ← n.tipOf low high result.1
    return .reaction result.1 result.2 tip

/-- The notifications of a row but for reactions. -/
def notificationsOf : Row → List Notification
  | .challengeDisbursement row => [.challengeReward row]
  | .milestone row => (n.owners row).map (.listenMilestone row)
  | .supporterRankUp row => [.supporterRankUp row]
  | .userTip row => [.tip row]
  | .reaction _ => []

/-- Lines 1083–1284: the notifications, sorted by slot, and `max_slot_number`. -/
def solanaNotifications (maxSlotDiff minSlotNumber : ℕ) (maxSlotNumber : Option ℕ) :
    Except String (List Notification × ℕ) := do
  let high := n.maxSlotNumber maxSlotDiff minSlotNumber maxSlotNumber
  let unsorted :=
    [Table.challengeDisbursements, .milestones, .supporterRankUps, .userTips].flatMap fun t ↦
      (n.query t minSlotNumber high).flatMap n.notificationsOf
  let reactions ← n.reactions minSlotNumber high
  return ((unsorted ++ reactions).insertionSort fun a b ↦ a.slot ≤ b.slot, high)

/-! ### Steps -/

/-- A session commits rows; a primary key may not occur twice. -/
def insert (rows : List Row) : Except String Node := do
  require ((n.rows ++ rows).map Row.key).Nodup "IntegrityError: UniqueViolation"
  return { n with rows := n.rows ++ rows }

/-- `redis.set` of a slot. -/
def set (key : SlotKey) (slot : Option ℕ) : Node :=
  match slot with
  | some slot => { n with slots := Function.update n.slots key (some slot) }
  | none => n

/-- Replace the run of a program. -/
def setRun (p : Program) (run : Option Run) : Node :=
  { n with runs := Function.update n.runs p run }

/-- `func.max(UserTip.slot)`, or 0. -/
def maxTipSlot : ℕ := ((n.tips.map UserTip.slot).max?).getD 0

end Node

/-- The table that the indexer of a program adds to; listen milestones are added by the trigger
on plays. -/
def Program.table : Program → Table
  | .plays => .milestones
  | .rewardsManager => .challengeDisbursements
  | .userBank => .userTips

/-- What can happen. The indexers of programs find transactions, commit a batch, fail, or set their
slot at the end; `ranked` are the rank ups that `index_rank_ups` finds, by sender, receiver and
rank; `indexes` is what else changes the versions of digital contents and users. -/
inductive Event where
  | starts (p : Program) (run : Run)
  | commits (p : Program)
  | fails (p : Program)
  | sets (p : Program)
  | startsTips (ranked : List (ℕ × ℕ × ℕ))
  | setsTips
  | commitsTips
  | failsTips
  | commitsReactions (reactions : List Reaction)
  | indexes (digitalContents : List DigitalContent) (users : List User)
  | polls (maxSlotNumber : Option ℕ)

/-- The rows of a run are of the table of the program. -/
def Run.Finds (p : Program) (run : Run) : Prop :=
  ∀ batch ∈ run.batches, ∀ row ∈ batch, row.table = p.table

instance (p : Program) : DecidablePred (Run.Finds p) :=
  fun _ ↦ inferInstanceAs (Decidable (∀ _ ∈ _, ∀ _ ∈ _, _))

/-- The rank ups of a run of `update_aggregate_tips`, at the newest slot of tips. -/
def rankUpsAt (slot : ℕ) (ranked : List (ℕ × ℕ × ℕ)) : List SupporterRankUp :=
  ranked.map fun (senderUserId, receiverUserId, rank) ↦ ⟨slot, senderUserId, receiverUserId, rank⟩

/-- One event. `index_solana_plays.py:574–669`, `index_user_bank.py` and
`index_rewards_manager.py`; `index_aggregate_tips.py:195–218`; `index_reactions.py`. -/
def step (maxSlotDiff : ℕ) (n : Node) : Event → Except String Node
  | .starts p run => do
    require ((n.runs p).isNone = true) "locked"
    require (run.Finds p) "not a run"
    return n.setRun p (some run)
  | .commits p =>
    match n.runs p with
    | some ⟨lastSlot, latestGlobalSlot, batch :: batches⟩ => do
      let n ← n.insert batch
      return n.setRun p (some ⟨lastSlot, latestGlobalSlot, batches⟩)
    | _ => .error "nothing to commit"
  | .fails p => .ok (n.setRun p none)
  | .sets p =>
    match n.runs p with
    | some ⟨lastSlot, latestGlobalSlot, []⟩ =>
      .ok ((n.set (.program p) (lastSlot.or latestGlobalSlot)).setRun p none)
    | _ => .error "not done"
  | .startsTips ranked => do
    require (n.tipsRun.isNone = true) "locked"
    let userBankSlot := n.slots (.program .userBank)
    let maxSlot := n.maxTipSlot
    if n.checkpoint = maxSlot then return n.set .aggregateTips userBankSlot
    else return { n with tipsRun := some ⟨userBankSlot, maxSlot, rankUpsAt maxSlot ranked, false⟩ }
  | .setsTips =>
    match n.tipsRun with
    | some run =>
      .ok { n.set .aggregateTips run.userBankSlot with tipsRun := some { run with hasSet := true } }
    | none => .error "no run"
  | .commitsTips =>
    match n.tipsRun with
    | some run => do
      require (run.hasSet = true) "the session goes on"
      let n ← n.insert (run.rankUps.map .supporterRankUp)
      return { n with
        checkpoint := if run.maxSlot = 0 then n.checkpoint else run.maxSlot
        tipsRun := none }
    | none => .error "no run"
  | .failsTips => .ok { n with tipsRun := none }
  | .commitsReactions reactions => n.insert (reactions.map .reaction)
  | .indexes digitalContents users => .ok { n with digitalContents, users }
  | .polls maxSlotNumber =>
    match n.solanaNotifications maxSlotDiff n.minSlotNumber maxSlotNumber with
    | .ok (notifications, high) =>
      .ok { n with minSlotNumber := high, responses := n.responses ++ [notifications] }
    | .error _ => .ok { n with raised := true }

end SolanaNotifications

end ColivingSpec
