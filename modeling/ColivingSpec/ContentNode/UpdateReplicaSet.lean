import ColivingSpec.ContentNode.SyncRequests
import Mathlib.Algebra.BigOperators.Group.Finset.Piecewise

/-!
# Determining a new replica set

When members of a user's replica set are unhealthy, the reconfiguration job draws healthy nodes at
random and puts a new set together: the healthy members stay, drawn nodes fill the other places.
The module follows `updateReplicaSet.jobProcessor.ts` from the draws to the new set and says when
the result is sound.
-/

namespace ColivingSpec

open List Finset

namespace ReplicaSetUpdates

open SyncRequests (UserInfo)

/-- The keys of `RECONFIG_MODES`: `stateMachineConstants.ts:103–131`. -/
inductive ReconfigMode where
  | RECONFIG_DISABLED
  | ONE_SECONDARY
  | MULTIPLE_SECONDARIES
  | PRIMARY_AND_OR_SECONDARIES
  | ENTIRE_REPLICA_SET
  deriving DecidableEq, Repr

/-- `stateMachineConstants.ts:35`. -/
def MAX_SELECT_NEW_REPLICA_SET_ATTEMPTS : ℕ := 5

/-- `NewReplicaSet`: `stateReconciliation/types.ts:24–30`; null is `none`. -/
structure NewReplicaSet where
  newPrimary : Option Endpoint
  newSecondary1 : Option Endpoint
  newSecondary2 : Option Endpoint
  issueReconfig : Bool
  reconfigType : Option ReconfigMode
  deriving DecidableEq, Repr

/-- A user's replica set of three distinct endpoints. -/
structure ReplicaSet where
  primary : Endpoint
  secondary1 : Endpoint
  secondary2 : Endpoint
  distinct : [primary, secondary1, secondary2].Nodup

variable (user : ReplicaSet)

/-- `currentReplicaSet`. -/
def ReplicaSet.currentReplicaSet : List Endpoint :=
  [user.primary, user.secondary1, user.secondary2]

variable (unhealthyReplicasSet : Finset Endpoint) (replicaToUserInfoMap : ReplicaToUserInfoMap)
  (primary secondary1 secondary2 : Endpoint)

/-- The healthy members, in the order of the set. -/
def ReplicaSet.healthyReplicaSet : List Endpoint :=
  user.currentReplicaSet.filter fun node ↦ decide (node ∉ unhealthyReplicasSet)

/-- `ReplicaToUserInfoMap`: what the nodes of the set say about the user. -/
abbrev ReplicaToUserInfoMap := Endpoint → Option UserInfo

/-- `replicaToUserInfoMap[node]?.clock`; in the order of options an absent clock is below every
other. -/
def recordedClock (node : Endpoint) : Option ℤ :=
  (replicaToUserInfoMap node).bind (·.clock)

/-- The value of `clock || -1`. -/
def orMinusOne : Option ℤ → ℤ
  | none => -1
  | some clock => if clock = 0 then -1 else clock

/-- `_isReconfigEnabled`: `updateReplicaSet.jobProcessor.ts:554–557`. -/
def _isReconfigEnabled (enabledReconfigModes : List ReconfigMode) (mode : ReconfigMode) : Bool :=
  if mode = .RECONFIG_DISABLED then false else decide (mode ∈ enabledReconfigModes)

/-! ### Drawing nodes -/

/-- What chance and the network bring to one pass of the loop: which node `_.sample` picks, and
what `retrieveClockValueForUserFromReplica` answers for it. -/
structure Draw where
  pick : ℕ
  clockValue : Except String ℤ

/-- `_.sample(healthyNodes)`, undefined for an empty list. -/
def sample (healthyNodes : List Endpoint) (draw : Draw) : Option Endpoint :=
  healthyNodes[draw.pick % healthyNodes.length]?

/-- The body of the loop: `updateReplicaSet.jobProcessor.ts:363–395`. -/
def selectNode (healthyReplicaSet : List Endpoint) (unhealthyReplicasSet : Finset Endpoint)
    (healthyNodes : List Endpoint) (newReplicaNodesSet : List Endpoint) (draw : Draw) :
    List Endpoint :=
  match sample healthyNodes draw with
  | none => newReplicaNodesSet
  | some randomHealthyNode =>
    if randomHealthyNode ∈ newReplicaNodesSet ∨ randomHealthyNode ∈ healthyReplicaSet then
      newReplicaNodesSet
    else if randomHealthyNode ∈ unhealthyReplicasSet then newReplicaNodesSet
    else
      match draw.clockValue with
      | .ok _ => newReplicaNodesSet ++ [randomHealthyNode]
      | .error _ => newReplicaNodesSet

/-- The loop over the attempts that are left: `updateReplicaSet.jobProcessor.ts:357–396`. -/
def selectNodes (healthyReplicaSet : List Endpoint) (unhealthyReplicasSet : Finset Endpoint)
    (healthyNodes : List Endpoint) : List Draw → List Endpoint → List Endpoint
  | [], newReplicaNodesSet => newReplicaNodesSet
  | draw :: draws, newReplicaNodesSet =>
    if newReplicaNodesSet.length < unhealthyReplicasSet.card then
      selectNodes healthyReplicaSet unhealthyReplicasSet healthyNodes draws
        (selectNode healthyReplicaSet unhealthyReplicasSet healthyNodes newReplicaNodesSet draw)
    else newReplicaNodesSet

/-- The draws of one call. -/
def attempts (draws : ℕ → Draw) : List Draw :=
  (List.range MAX_SELECT_NEW_REPLICA_SET_ATTEMPTS).map draws

/-- `_selectRandomReplicaSetNodes`: `updateReplicaSet.jobProcessor.ts:343–405`. -/
def _selectRandomReplicaSetNodes (healthyReplicaSet : List Endpoint)
    (unhealthyReplicasSet : Finset Endpoint) (healthyNodes : List Endpoint) (wallet : Wallet)
    (draws : ℕ → Draw) : Except String (List Endpoint) :=
  let newReplicaNodesSet :=
    selectNodes healthyReplicaSet unhealthyReplicasSet healthyNodes (attempts draws) []
  if newReplicaNodesSet.length < unhealthyReplicasSet.card then
    .error ("[_selectRandomReplicaSetNodes] wallet=" ++ wallet ++ " healthyReplicaSet=[" ++
      ",".intercalate healthyReplicaSet ++ "] numberOfUnhealthyReplicas=" ++
      toString unhealthyReplicasSet.card ++ " healthyNodes=" ++ ",".intercalate healthyNodes ++
      " || Not enough healthy nodes found to issue new replica set after " ++
      toString MAX_SELECT_NEW_REPLICA_SET_ATTEMPTS ++ " attempts")
  else .ok newReplicaNodesSet

/-! ### The new set -/

/-- The result of a reconfiguration of one type. -/
def newReplicaSetOf (newPrimary newSecondary1 newSecondary2 : Option Endpoint)
    (enabledReconfigModes : List ReconfigMode) (mode : ReconfigMode) : NewReplicaSet :=
  ⟨newPrimary, newSecondary1, newSecondary2, _isReconfigEnabled enabledReconfigModes mode,
    some mode⟩

/-- `_determineNewReplicaSetWhenOneNodeIsUnhealthy`:
`updateReplicaSet.jobProcessor.ts:240–284`. -/
def _determineNewReplicaSetWhenOneNodeIsUnhealthy (unhealthyReplicasSet : Finset Endpoint)
    (replicaToUserInfoMap : ReplicaToUserInfoMap) (newReplicaNode : Option Endpoint)
    (enabledReconfigModes : List ReconfigMode) :
    NewReplicaSet :=
  if primary ∈ unhealthyReplicasSet then
    let secondary1Clock := orMinusOne (recordedClock replicaToUserInfoMap secondary1)
    let secondary2Clock := orMinusOne (recordedClock replicaToUserInfoMap secondary2)
    if secondary1Clock ≥ secondary2Clock then
      newReplicaSetOf (some secondary1) (some secondary2) newReplicaNode enabledReconfigModes
        .PRIMARY_AND_OR_SECONDARIES
    else
      newReplicaSetOf (some secondary2) (some secondary1) newReplicaNode enabledReconfigModes
        .PRIMARY_AND_OR_SECONDARIES
  else
    let currentHealthySecondary :=
      if secondary1 ∉ unhealthyReplicasSet then secondary1 else secondary2
    newReplicaSetOf (some primary) (some currentHealthySecondary) newReplicaNode
      enabledReconfigModes .ONE_SECONDARY

/-- `_determineNewReplicaSetWhenTwoNodesAreUnhealthy`:
`updateReplicaSet.jobProcessor.ts:295–330`. -/
def _determineNewReplicaSetWhenTwoNodesAreUnhealthy (unhealthyReplicasSet : Finset Endpoint)
    (newReplicaNodes : List Endpoint) (enabledReconfigModes : List ReconfigMode) : NewReplicaSet :=
  if primary ∈ unhealthyReplicasSet then
    newReplicaSetOf (some (if secondary1 ∉ unhealthyReplicasSet then secondary1 else secondary2))
      newReplicaNodes[0]? newReplicaNodes[1]? enabledReconfigModes .PRIMARY_AND_OR_SECONDARIES
  else
    newReplicaSetOf (some primary) newReplicaNodes[0]? newReplicaNodes[1]? enabledReconfigModes
      .MULTIPLE_SECONDARIES

/-- `_determineNewReplicaSet`: `updateReplicaSet.jobProcessor.ts:176–228`. -/
def _determineNewReplicaSet (wallet : Wallet) (unhealthyReplicasSet : Finset Endpoint)
    (healthyNodes : List Endpoint) (replicaToUserInfoMap : ReplicaToUserInfoMap)
    (enabledReconfigModes : List ReconfigMode) (draws : ℕ → Draw) : Except String NewReplicaSet :=
  match _selectRandomReplicaSetNodes (user.healthyReplicaSet unhealthyReplicasSet)
    unhealthyReplicasSet healthyNodes wallet draws with
  | .error message => .error message
  | .ok newReplicaNodes =>
    if unhealthyReplicasSet.card = 1 then
      .ok (_determineNewReplicaSetWhenOneNodeIsUnhealthy user.primary user.secondary1
        user.secondary2 unhealthyReplicasSet replicaToUserInfoMap newReplicaNodes[0]?
        enabledReconfigModes)
    else if unhealthyReplicasSet.card = 2 then
      .ok (_determineNewReplicaSetWhenTwoNodesAreUnhealthy user.primary user.secondary1
        user.secondary2 unhealthyReplicasSet newReplicaNodes enabledReconfigModes)
    else .ok ⟨none, none, none, false, none⟩

/-! ### What the draws give -/

/-- The node an attempt brings: picked, outside of both parts of the old set, and answering. -/
def drawnNode (healthyReplicaSet : List Endpoint) (unhealthyReplicasSet : Finset Endpoint)
    (healthyNodes : List Endpoint) (draw : Draw) : Option Endpoint :=
  match sample healthyNodes draw, draw.clockValue with
  | some node, .ok _ =>
    if node ∈ healthyReplicaSet ∨ node ∈ unhealthyReplicasSet then none else some node
  | _, _ => none

/-- The distinct nodes the attempts bring. -/
def drawnNodes (healthyReplicaSet : List Endpoint) (unhealthyReplicasSet : Finset Endpoint)
    (healthyNodes : List Endpoint) (draws : List Draw) : Finset Endpoint :=
  (draws.filterMap (drawnNode healthyReplicaSet unhealthyReplicasSet healthyNodes)).toFinset

section Selection

variable (healthyReplicaSet : List Endpoint) (unhealthyReplicasSet : Finset Endpoint)
  (healthyNodes : List Endpoint)

theorem drawnNode_fresh {draw : Draw} {node : Endpoint}
    (h : drawnNode healthyReplicaSet unhealthyReplicasSet healthyNodes draw = some node) :
    node ∈ healthyNodes ∧ node ∉ healthyReplicaSet ∧ node ∉ unhealthyReplicasSet := by
  unfold drawnNode at h
  split at h
  · next found clock hsample hclock =>
    split at h
    · cases h
    · next hout =>
      cases h
      rw [not_or] at hout
      exact ⟨mem_of_getElem? hsample, hout⟩
  · cases h

variable (chosen : List Endpoint)

/-- An attempt adds the node it brings unless it is chosen already. -/
theorem selectNode_eq (draw : Draw) :
    selectNode healthyReplicaSet unhealthyReplicasSet healthyNodes chosen draw =
      match drawnNode healthyReplicaSet unhealthyReplicasSet healthyNodes draw with
      | none => chosen
      | some node => if node ∈ chosen then chosen else chosen ++ [node] := by
  unfold selectNode drawnNode
  cases sample healthyNodes draw with
  | none => rfl
  | some node =>
    cases draw.clockValue with
    | error message =>
      dsimp only
      split_ifs <;> rfl
    | ok clock =>
      by_cases hhealthy : node ∈ healthyReplicaSet
      · simp [hhealthy]
      · by_cases hunhealthy : node ∈ unhealthyReplicasSet
        · simp [hhealthy, hunhealthy]
        · simp [hhealthy, hunhealthy]

variable (draws : List Draw)

/-- What is chosen stays distinct, and everything chosen is fresh. -/
theorem selectNodes_fresh (chosen : List Endpoint) (hnodup : chosen.Nodup)
    (hfresh : ∀ node ∈ chosen, node ∉ healthyReplicaSet ∧ node ∉ unhealthyReplicasSet) :
    (selectNodes healthyReplicaSet unhealthyReplicasSet healthyNodes draws chosen).Nodup ∧
      ∀ node ∈ selectNodes healthyReplicaSet unhealthyReplicasSet healthyNodes draws chosen,
        node ∉ healthyReplicaSet ∧ node ∉ unhealthyReplicasSet := by
  induction draws generalizing chosen with
  | nil => exact ⟨hnodup, hfresh⟩
  | cons draw draws ih =>
    unfold selectNodes
    split
    · rw [selectNode_eq]
      cases hdrawn : drawnNode healthyReplicaSet unhealthyReplicasSet healthyNodes draw with
      | none => exact ih chosen hnodup hfresh
      | some node =>
        dsimp only
        split
        · exact ih chosen hnodup hfresh
        · next hnew =>
          apply ih
          · rw [nodup_append]
            refine ⟨hnodup, nodup_singleton node, ?_⟩
            intro old hold new hmem heq
            rw [List.mem_singleton] at hmem
            rw [heq, hmem] at hold
            exact hnew hold
          · intro other hother
            rcases mem_append.mp hother with hold | hmem
            · exact hfresh other hold
            · rw [List.mem_singleton] at hmem
              rw [hmem]
              exact (drawnNode_fresh healthyReplicaSet unhealthyReplicasSet healthyNodes hdrawn).2
    · exact ⟨hnodup, hfresh⟩

/-- The loop chooses as many as are needed when the attempts bring them. -/
theorem selectNodes_enough (chosen : List Endpoint)
    (henough : unhealthyReplicasSet.card ≤ (chosen.toFinset ∪
      drawnNodes healthyReplicaSet unhealthyReplicasSet healthyNodes draws).card) :
    unhealthyReplicasSet.card ≤
      (selectNodes healthyReplicaSet unhealthyReplicasSet healthyNodes draws chosen).length := by
  induction draws generalizing chosen with
  | nil =>
    have hcard : (chosen.toFinset ∪ ∅).card ≤ chosen.length := by
      rw [union_empty]
      exact toFinset_card_le chosen
    exact henough.trans hcard
  | cons draw draws ih =>
    unfold selectNodes
    split
    · apply ih
      rw [selectNode_eq]
      unfold drawnNodes at henough ⊢
      cases hdrawn : drawnNode healthyReplicaSet unhealthyReplicasSet healthyNodes draw with
      | none => rwa [filterMap_cons_none hdrawn] at henough
      | some node =>
        rw [filterMap_cons_some hdrawn, toFinset_cons] at henough
        dsimp only
        split
        · next hold =>
          rwa [union_insert, insert_eq_of_mem
            (Finset.mem_union_left _ (mem_toFinset.mpr hold))] at henough
        · rwa [toFinset_append, union_assoc, toFinset_cons, toFinset_nil,
            insert_empty_eq, ← Finset.insert_eq]
    · next hdone => exact Nat.le_of_not_lt hdone

end Selection

/-- A call whose attempts bring enough nodes returns distinct fresh ones, as many as are needed. -/
theorem _selectRandomReplicaSetNodes_ok (healthyReplicaSet : List Endpoint)
    (unhealthyReplicasSet : Finset Endpoint) (healthyNodes : List Endpoint) (wallet : Wallet)
    (draws : ℕ → Draw)
    (henough : unhealthyReplicasSet.card ≤ (drawnNodes healthyReplicaSet unhealthyReplicasSet
      healthyNodes (attempts draws)).card) :
    ∃ newReplicaNodes, _selectRandomReplicaSetNodes healthyReplicaSet unhealthyReplicasSet
        healthyNodes wallet draws = .ok newReplicaNodes ∧
      unhealthyReplicasSet.card ≤ newReplicaNodes.length ∧ newReplicaNodes.Nodup ∧
      ∀ node ∈ newReplicaNodes, node ∉ healthyReplicaSet ∧ node ∉ unhealthyReplicasSet := by
  have hlength := selectNodes_enough healthyReplicaSet unhealthyReplicasSet healthyNodes
    (attempts draws) [] (by rwa [toFinset_nil, empty_union])
  have hfresh := selectNodes_fresh healthyReplicaSet unhealthyReplicasSet healthyNodes
    (attempts draws) [] nodup_nil (fun _ h ↦ absurd h not_mem_nil)
  refine ⟨_, ?_, hlength, hfresh⟩
  exact if_neg (Nat.not_lt.mpr hlength)

/-! ### Sound replica sets -/

/-- What a new replica set owes to the old one. -/
structure SoundFor (user : ReplicaSet) (unhealthyReplicasSet : Finset Endpoint)
    (replicaToUserInfoMap : ReplicaToUserInfoMap)
    (newPrimary newSecondary1 newSecondary2 : Endpoint) : Prop where
  distinct : [newPrimary, newSecondary1, newSecondary2].Nodup
  healthy : ∀ node ∈ [newPrimary, newSecondary1, newSecondary2], node ∉ unhealthyReplicasSet
  keeps : ∀ node ∈ user.currentReplicaSet, node ∉ unhealthyReplicasSet →
    node ∈ [newPrimary, newSecondary1, newSecondary2]
  old_primary : newPrimary ∈ user.currentReplicaSet
  larger_clock : user.primary ∈ unhealthyReplicasSet → user.secondary1 ∉ unhealthyReplicasSet →
    user.secondary2 ∉ unhealthyReplicasSet →
    ∀ node ∈ [user.secondary1, user.secondary2],
      recordedClock replicaToUserInfoMap node ≤ recordedClock replicaToUserInfoMap newPrimary

/-- The three endpoints are given, and they are sound. -/
def NewReplicaSet.Sound (new : NewReplicaSet) : Prop :=
  ∃ newPrimary newSecondary1 newSecondary2 : Endpoint,
    new.newPrimary = some newPrimary ∧ new.newSecondary1 = some newSecondary1 ∧
      new.newSecondary2 = some newSecondary2 ∧
      SoundFor user unhealthyReplicasSet replicaToUserInfoMap newPrimary newSecondary1
        newSecondary2

/-- The clocks of two secondaries that `|| -1` puts in the wrong order, where the first wins a
tie: nothing against a clock of 0 or below, -1 against 0, and a clock below -1 against nothing. -/
def ClocksMistaken : Option ℤ → Option ℤ → Prop
  | none, none => False
  | none, some clock2 => clock2 ≤ 0
  | some clock1, none => clock1 < -1
  | some clock1, some clock2 => clock1 = -1 ∧ clock2 = 0

/-- The comparison with `|| -1` against the one of the recorded clocks. -/
theorem clocksMistaken_iff (clock1 clock2 : Option ℤ) :
    ClocksMistaken clock1 clock2 ↔
      ¬ (if orMinusOne clock1 ≥ orMinusOne clock2 then clock2 ≤ clock1 else clock1 ≤ clock2) := by
  cases clock1 with
  | none =>
    cases clock2 with
    | none => simp [ClocksMistaken]
    | some clock2 =>
      simp only [ClocksMistaken, orMinusOne, Option.not_some_le_none, Option.none_le]
      split_ifs <;> simp <;> omega
  | some clock1 =>
    cases clock2 with
    | none =>
      simp only [ClocksMistaken, orMinusOne, Option.not_some_le_none, Option.none_le]
      split_ifs <;> simp <;> omega
    | some clock2 =>
      simp only [ClocksMistaken, orMinusOne, Option.some_le_some]
      split_ifs <;> omega

theorem ReplicaSet.ne :
    user.primary ≠ user.secondary1 ∧ user.primary ≠ user.secondary2 ∧
      user.secondary1 ≠ user.secondary2 := by
  have h := user.distinct
  simp only [nodup_cons, List.mem_cons, not_mem_nil, or_false, not_or, not_false_eq_true,
    nodup_nil, and_true] at h
  exact ⟨h.1.1, h.1.2, h.2⟩

variable {unhealthyReplicasSet : Finset Endpoint} {user : ReplicaSet}
  {replicaToUserInfoMap : ReplicaToUserInfoMap} {first node : Endpoint}

/-- The number of unhealthy members, member by member. -/
theorem card_unhealthy (user : ReplicaSet)
    (hsub : unhealthyReplicasSet ⊆ user.currentReplicaSet.toFinset) :
    unhealthyReplicasSet.card =
      (if user.primary ∈ unhealthyReplicasSet then 1 else 0) +
        ((if user.secondary1 ∈ unhealthyReplicasSet then 1 else 0) +
          (if user.secondary2 ∈ unhealthyReplicasSet then 1 else 0)) := by
  obtain ⟨hfirst, hsecond, hthird⟩ := user.ne
  have hfilter : user.currentReplicaSet.toFinset.filter (· ∈ unhealthyReplicasSet) =
      unhealthyReplicasSet := by
    ext node
    rw [Finset.mem_filter]
    exact ⟨fun h ↦ h.2, fun h ↦ ⟨hsub h, h⟩⟩
  have hmembers : user.currentReplicaSet.toFinset =
      {user.primary, user.secondary1, user.secondary2} := by
    simp [ReplicaSet.currentReplicaSet]
  calc unhealthyReplicasSet.card
      = ∑ node ∈ user.currentReplicaSet.toFinset,
          if node ∈ unhealthyReplicasSet then 1 else 0 := by
        rw [← card_filter, hfilter]
    _ = _ := by
        rw [hmembers, sum_insert, sum_insert, Finset.sum_singleton]
        · simpa using hthird
        · simp [hfirst, hsecond]

/-- Nodes that can fill the places of the unhealthy members. -/
structure Fills (user : ReplicaSet) (unhealthyReplicasSet : Finset Endpoint)
    (newReplicaNodes : List Endpoint) : Prop where
  enough : unhealthyReplicasSet.card ≤ newReplicaNodes.length
  nodup : newReplicaNodes.Nodup
  unmarked : ∀ node ∈ newReplicaNodes, node ∉ unhealthyReplicasSet
  outside : ∀ node ∈ newReplicaNodes, node ∉ user.currentReplicaSet

/-- Two healthy members and a node from outside. -/
theorem soundFor_two_healthy {second : Endpoint}
    (hmembers : ∀ member ∈ user.currentReplicaSet, member ∉ unhealthyReplicasSet ↔
      member = first ∨ member = second) (hfirst : first ∈ user.currentReplicaSet)
    (hsecond : second ∈ user.currentReplicaSet) (hne : first ≠ second)
    (hunmarked : node ∉ unhealthyReplicasSet) (houtside : node ∉ user.currentReplicaSet) :
    SoundFor user unhealthyReplicasSet replicaToUserInfoMap first second node ↔
      (user.primary ∈ unhealthyReplicasSet → user.secondary1 ∉ unhealthyReplicasSet →
        user.secondary2 ∉ unhealthyReplicasSet →
        ∀ node ∈ [user.secondary1, user.secondary2],
          recordedClock replicaToUserInfoMap node ≤ recordedClock replicaToUserInfoMap first) := by
  refine ⟨fun h ↦ h.larger_clock, fun hclock ↦ ⟨?_, ?_, ?_, hfirst, hclock⟩⟩
  · have hfirstne : first ≠ node := fun h ↦ houtside (h ▸ hfirst)
    have hsecondne : second ≠ node := fun h ↦ houtside (h ▸ hsecond)
    simp [hne, hfirstne, hsecondne]
  · intro member hmember
    simp only [List.mem_cons, not_mem_nil, or_false] at hmember
    rcases hmember with rfl | rfl | rfl
    · exact (hmembers _ hfirst).mpr (Or.inl rfl)
    · exact (hmembers _ hsecond).mpr (Or.inr rfl)
    · exact hunmarked
  · intro member hmember hhealthy
    rcases (hmembers member hmember).mp hhealthy with rfl | rfl
    · exact List.mem_cons_self
    · exact List.mem_cons_of_mem _ List.mem_cons_self

/-- One healthy member and two nodes from outside. -/
theorem soundFor_one_healthy {node1 node2 : Endpoint}
    (hmembers : ∀ member ∈ user.currentReplicaSet, member ∉ unhealthyReplicasSet ↔ member = first)
    (hfirst : first ∈ user.currentReplicaSet) (hne : node1 ≠ node2)
    (hunmarked : ∀ node ∈ [node1, node2], node ∉ unhealthyReplicasSet)
    (houtside : ∀ node ∈ [node1, node2], node ∉ user.currentReplicaSet) :
    SoundFor user unhealthyReplicasSet replicaToUserInfoMap first node1 node2 := by
  have hout : ∀ node ∈ [node1, node2], first ≠ node := fun node hnode h ↦
    houtside node hnode (h ▸ hfirst)
  refine ⟨?_, ?_, ?_, hfirst, ?_⟩
  · have hfirst1 := hout node1 List.mem_cons_self
    have hfirst2 := hout node2 (List.mem_cons_of_mem _ List.mem_cons_self)
    simp [hne, hfirst1, hfirst2]
  · intro member hmember
    rcases List.mem_cons.mp hmember with rfl | hnew
    · exact (hmembers _ hfirst).mpr rfl
    · exact hunmarked member hnew
  · intro member hmember hhealthy
    rw [(hmembers member hmember).mp hhealthy]
    exact List.mem_cons_self
  · intro _ hhealthy1 hhealthy2
    have hmember1 : user.secondary1 ∈ user.currentReplicaSet := by
      simp [ReplicaSet.currentReplicaSet]
    have hmember2 : user.secondary2 ∈ user.currentReplicaSet := by
      simp [ReplicaSet.currentReplicaSet]
    have heq : user.secondary1 = user.secondary2 := by
      rw [(hmembers _ hmember1).mp hhealthy1, (hmembers _ hmember2).mp hhealthy2]
    exact absurd heq user.ne.2.2

theorem sound_newReplicaSetOf {second third : Endpoint} {enabledReconfigModes : List ReconfigMode}
    {mode : ReconfigMode} :
    (newReplicaSetOf (some first) (some second) (some third) enabledReconfigModes mode).Sound user
        unhealthyReplicasSet replicaToUserInfoMap ↔
      SoundFor user unhealthyReplicasSet replicaToUserInfoMap first second third := by
  refine ⟨?_, fun h ↦ ⟨first, second, third, rfl, rfl, rfl, h⟩⟩
  rintro ⟨first', second', third', hfirst, hsecond, hthird, h⟩
  cases hfirst
  cases hsecond
  cases hthird
  exact h

/-- An unhealthy primary gives way to one of two healthy secondaries; the new set is sound unless
their clocks are mistaken. -/
theorem primaryUnhealthy_sound_iff (hprimary : user.primary ∈ unhealthyReplicasSet)
    (hsecondary1 : user.secondary1 ∉ unhealthyReplicasSet)
    (hsecondary2 : user.secondary2 ∉ unhealthyReplicasSet)
    (replicaToUserInfoMap : ReplicaToUserInfoMap) (hunmarked : node ∉ unhealthyReplicasSet)
    (houtside : node ∉ user.currentReplicaSet) (enabledReconfigModes : List ReconfigMode) :
    (_determineNewReplicaSetWhenOneNodeIsUnhealthy user.primary user.secondary1 user.secondary2
        unhealthyReplicasSet replicaToUserInfoMap (some node) enabledReconfigModes).Sound user
        unhealthyReplicasSet replicaToUserInfoMap ↔
      ¬ ClocksMistaken (recordedClock replicaToUserInfoMap user.secondary1)
          (recordedClock replicaToUserInfoMap user.secondary2) := by
  obtain ⟨hfirst, hsecond, hthird⟩ := user.ne
  have hmember1 : user.secondary1 ∈ user.currentReplicaSet := by simp [ReplicaSet.currentReplicaSet]
  have hmember2 : user.secondary2 ∈ user.currentReplicaSet := by simp [ReplicaSet.currentReplicaSet]
  have hmembers : ∀ member ∈ user.currentReplicaSet, member ∉ unhealthyReplicasSet ↔
      member = user.secondary1 ∨ member = user.secondary2 := by
    intro member hmember
    simp only [ReplicaSet.currentReplicaSet, List.mem_cons, not_mem_nil, or_false] at hmember
    rcases hmember with rfl | rfl | rfl
    · simp [hprimary, hfirst, hsecond]
    · simp [hsecondary1]
    · simp [hsecondary2]
  have hrefl : ∀ clock : Option ℤ, clock ≤ clock := by
    intro clock
    cases clock <;> simp
  unfold _determineNewReplicaSetWhenOneNodeIsUnhealthy
  rw [if_pos hprimary, clocksMistaken_iff, not_not]
  by_cases hclocks : orMinusOne (recordedClock replicaToUserInfoMap user.secondary1) ≥
      orMinusOne (recordedClock replicaToUserInfoMap user.secondary2)
  · rw [if_pos hclocks, if_pos hclocks, sound_newReplicaSetOf,
      soundFor_two_healthy hmembers hmember1 hmember2 hthird hunmarked houtside]
    simp [hprimary, hsecondary1, hsecondary2, hrefl]
  · rw [if_neg hclocks, if_neg hclocks, sound_newReplicaSetOf,
      soundFor_two_healthy (fun member hmember ↦ (hmembers member hmember).trans or_comm) hmember2
        hmember1 hthird.symm hunmarked houtside]
    simp [hprimary, hsecondary1, hsecondary2, hrefl]

/-- A healthy primary stays, with the healthy secondary before the new one. -/
theorem oneSecondary_sound (hprimary : user.primary ∉ unhealthyReplicasSet)
    (hone : user.secondary1 ∈ unhealthyReplicasSet ↔ user.secondary2 ∉ unhealthyReplicasSet)
    (replicaToUserInfoMap : ReplicaToUserInfoMap) (hunmarked : node ∉ unhealthyReplicasSet)
    (houtside : node ∉ user.currentReplicaSet) (enabledReconfigModes : List ReconfigMode) :
    (_determineNewReplicaSetWhenOneNodeIsUnhealthy user.primary user.secondary1 user.secondary2
        unhealthyReplicasSet replicaToUserInfoMap (some node) enabledReconfigModes).Sound user
        unhealthyReplicasSet replicaToUserInfoMap := by
  obtain ⟨hfirst, hsecond, hthird⟩ := user.ne
  have hmember : user.primary ∈ user.currentReplicaSet := by simp [ReplicaSet.currentReplicaSet]
  have hmember1 : user.secondary1 ∈ user.currentReplicaSet := by simp [ReplicaSet.currentReplicaSet]
  have hmember2 : user.secondary2 ∈ user.currentReplicaSet := by simp [ReplicaSet.currentReplicaSet]
  unfold _determineNewReplicaSetWhenOneNodeIsUnhealthy
  rw [if_neg hprimary]
  by_cases h1 : user.secondary1 ∈ unhealthyReplicasSet
  · have h2 := hone.mp h1
    rw [if_neg (not_not_intro h1), sound_newReplicaSetOf,
      soundFor_two_healthy ?_ hmember hmember2 hsecond hunmarked houtside]
    · exact fun h ↦ absurd h hprimary
    · intro member hmember
      simp only [ReplicaSet.currentReplicaSet, List.mem_cons, not_mem_nil, or_false] at hmember
      rcases hmember with rfl | rfl | rfl
      · simp [hprimary]
      · simp [h1, hfirst.symm, hthird]
      · simp [h2]
  · have h2 : user.secondary2 ∈ unhealthyReplicasSet := by
      by_contra h2
      exact h1 (hone.mpr h2)
    rw [if_pos h1, sound_newReplicaSetOf,
      soundFor_two_healthy ?_ hmember hmember1 hfirst hunmarked houtside]
    · exact fun h ↦ absurd h hprimary
    · intro member hmember
      simp only [ReplicaSet.currentReplicaSet, List.mem_cons, not_mem_nil, or_false] at hmember
      rcases hmember with rfl | rfl | rfl
      · simp [hprimary]
      · simp [h1]
      · simp [h2, hsecond.symm, hthird.symm]

/-- With two unhealthy members the third becomes or stays the primary. -/
theorem twoUnhealthy_sound (hsub : unhealthyReplicasSet ⊆ user.currentReplicaSet.toFinset)
    (hcard : unhealthyReplicasSet.card = 2) (replicaToUserInfoMap : ReplicaToUserInfoMap)
    {newReplicaNodes : List Endpoint} (hfills : Fills user unhealthyReplicasSet newReplicaNodes)
    (enabledReconfigModes : List ReconfigMode) :
    (_determineNewReplicaSetWhenTwoNodesAreUnhealthy user.primary user.secondary1 user.secondary2
        unhealthyReplicasSet newReplicaNodes enabledReconfigModes).Sound user unhealthyReplicasSet
        replicaToUserInfoMap := by
  obtain ⟨hfirst, hsecond, hthird⟩ := user.ne
  have hcount := card_unhealthy user hsub
  obtain ⟨node1, node2, rest, rfl⟩ : ∃ node1 node2 rest, newReplicaNodes =
      node1 :: node2 :: rest := by
    have hlength := hfills.enough
    rw [hcard] at hlength
    match newReplicaNodes, hlength with
    | node1 :: node2 :: rest, _ => exact ⟨node1, node2, rest, rfl⟩
  have hne : node1 ≠ node2 := by
    have hnodup := hfills.nodup
    rw [nodup_cons, List.mem_cons, not_or] at hnodup
    exact hnodup.1.1
  have hnew : ∀ node ∈ [node1, node2], node ∈ node1 :: node2 :: rest := by
    intro node hnode
    rcases List.mem_cons.mp hnode with rfl | hnode
    · exact List.mem_cons_self
    · rw [List.mem_singleton.mp hnode]
      exact List.mem_cons_of_mem _ List.mem_cons_self
  -- whichever member is left is the primary of a sound set
  have hleft : ∀ (member : Endpoint) (mode : ReconfigMode), member ∈ user.currentReplicaSet →
      (∀ other ∈ user.currentReplicaSet, other ∉ unhealthyReplicasSet ↔ other = member) →
      (newReplicaSetOf (some member) (some node1) (some node2) enabledReconfigModes mode).Sound
        user unhealthyReplicasSet replicaToUserInfoMap := by
    intro member mode hmember hmembers
    exact sound_newReplicaSetOf.mpr (soundFor_one_healthy hmembers hmember hne
      (fun node hnode ↦ hfills.unmarked node (hnew node hnode))
      (fun node hnode ↦ hfills.outside node (hnew node hnode)))
  unfold _determineNewReplicaSetWhenTwoNodesAreUnhealthy
  by_cases hprimary : user.primary ∈ unhealthyReplicasSet
  · rw [if_pos hprimary]
    by_cases h1 : user.secondary1 ∈ unhealthyReplicasSet
    · have h2 : user.secondary2 ∉ unhealthyReplicasSet := by
        intro h2
        rw [if_pos hprimary, if_pos h1, if_pos h2] at hcount
        omega
      rw [if_neg (not_not_intro h1)]
      apply hleft
      · simp [ReplicaSet.currentReplicaSet]
      · simp [ReplicaSet.currentReplicaSet, hprimary, h1, h2, hsecond, hthird]
    · have h2 : user.secondary2 ∈ unhealthyReplicasSet := by
        by_contra h2
        rw [if_pos hprimary, if_neg h1, if_neg h2] at hcount
        omega
      rw [if_pos h1]
      apply hleft
      · simp [ReplicaSet.currentReplicaSet]
      · simp [ReplicaSet.currentReplicaSet, hprimary, h1, h2, hfirst, hthird.symm]
  · have hboth : user.secondary1 ∈ unhealthyReplicasSet ∧
        user.secondary2 ∈ unhealthyReplicasSet := by
      split_ifs at hcount with h1 h2
      · exact ⟨h1, h2⟩
      · omega
      · omega
      · omega
    rw [if_neg hprimary]
    apply hleft
    · simp [ReplicaSet.currentReplicaSet]
    · simp [ReplicaSet.currentReplicaSet, hprimary, hboth, hfirst.symm, hsecond.symm]

theorem exists_ok_eq {α : Type} {P : α → Prop} {a : α} :
    (∃ b, (Except.ok a : Except String α) = .ok b ∧ P b) ↔ P a :=
  ⟨fun ⟨_, heq, h⟩ ↦ Except.ok.inj heq ▸ h, fun h ↦ ⟨a, rfl, h⟩⟩

/-- **A new replica set** is sound exactly where the clocks of two healthy secondaries are not
mistaken when an unhealthy primary is replaced. -/
theorem _determineNewReplicaSet_sound_iff (user : ReplicaSet) (wallet : Wallet)
    (unhealthyReplicasSet : Finset Endpoint)
    (hnonempty : unhealthyReplicasSet.Nonempty)
    (hproper : unhealthyReplicasSet ⊂ user.currentReplicaSet.toFinset)
    (healthyNodes : List Endpoint) (replicaToUserInfoMap : ReplicaToUserInfoMap)
    (enabledReconfigModes : List ReconfigMode) (draws : ℕ → Draw)
    (henough : unhealthyReplicasSet.card ≤ (drawnNodes
      (user.healthyReplicaSet unhealthyReplicasSet) unhealthyReplicasSet healthyNodes
      (attempts draws)).card) :
    (∃ new, _determineNewReplicaSet user wallet unhealthyReplicasSet healthyNodes
        replicaToUserInfoMap enabledReconfigModes draws = .ok new ∧
        new.Sound user unhealthyReplicasSet replicaToUserInfoMap) ↔
      ¬ (user.primary ∈ unhealthyReplicasSet ∧ user.secondary1 ∉ unhealthyReplicasSet ∧
        user.secondary2 ∉ unhealthyReplicasSet ∧
        ClocksMistaken (recordedClock replicaToUserInfoMap user.secondary1)
          (recordedClock replicaToUserInfoMap user.secondary2)) := by
  obtain ⟨newReplicaNodes, hselected, hlength, hnodup, hfresh⟩ :=
    _selectRandomReplicaSetNodes_ok _ _ _ wallet _ henough
  have hfills : Fills user unhealthyReplicasSet newReplicaNodes := by
    refine ⟨hlength, hnodup, fun node hnode ↦ (hfresh node hnode).2, ?_⟩
    intro node hnode hmember
    apply (hfresh node hnode).1
    unfold ReplicaSet.healthyReplicaSet
    rw [List.mem_filter]
    exact ⟨hmember, decide_eq_true (hfresh node hnode).2⟩
  have hcount := card_unhealthy user hproper.1
  unfold _determineNewReplicaSet
  rw [hselected]
  dsimp only
  by_cases hone : unhealthyReplicasSet.card = 1
  · obtain ⟨node, hnode⟩ : ∃ node, newReplicaNodes[0]? = some node := by
      have hpos : 0 < newReplicaNodes.length := by omega
      exact ⟨_, List.getElem?_eq_getElem hpos⟩
    have hmem : node ∈ newReplicaNodes := List.mem_of_getElem? hnode
    have hunmarked := hfills.unmarked node hmem
    have houtside := hfills.outside node hmem
    rw [if_pos hone, hnode, exists_ok_eq]
    by_cases hprimary : user.primary ∈ unhealthyReplicasSet
    · have hhealthy : user.secondary1 ∉ unhealthyReplicasSet ∧
          user.secondary2 ∉ unhealthyReplicasSet := by
        split_ifs at hcount with h1 h2 h2
        · omega
        · omega
        · omega
        · exact ⟨h1, h2⟩
      rw [primaryUnhealthy_sound_iff hprimary hhealthy.1 hhealthy.2 _ hunmarked houtside]
      simp only [hprimary, hhealthy.1, hhealthy.2, not_false_eq_true, true_and]
    · have hsecondaries : user.secondary1 ∈ unhealthyReplicasSet ↔
          user.secondary2 ∉ unhealthyReplicasSet := by
        split_ifs at hcount with h1 h2 h2
        · omega
        · exact iff_of_true h1 h2
        · exact iff_of_false h1 (not_not_intro h2)
        · omega
      exact iff_of_true
        (oneSecondary_sound hprimary hsecondaries _ hunmarked houtside _) (fun h ↦ hprimary h.1)
  · have htwo : unhealthyReplicasSet.card = 2 := by
      have hpos := hnonempty.card_pos
      have hlt := Finset.card_lt_card hproper
      have hthree : user.currentReplicaSet.toFinset.card ≤ 3 :=
        List.toFinset_card_le user.currentReplicaSet
      omega
    rw [if_neg hone, if_pos htwo, exists_ok_eq]
    refine iff_of_true (twoUnhealthy_sound hproper.1 htwo _ hfills _) ?_
    rintro ⟨hprimary, h1, h2, -⟩
    rw [htwo, if_pos hprimary, if_neg h1, if_neg h2] at hcount
    omega

/-! ### A secondary whose clock is 0 -/

/-- A user whose primary is unhealthy. -/
def replicated : ReplicaSet where
  primary := "p"
  secondary1 := "s1"
  secondary2 := "s2"
  distinct := by decide

/-- The second secondary has the user with a clock of 0; nothing is known of the first. -/
def clockOfZero : ReplicaToUserInfoMap := fun node ↦
  if node = "s2" then some ⟨some 0, none⟩ else none

/-- Every attempt picks the first healthy node, which has not heard of the user. -/
def firstNode : ℕ → Draw := fun _ ↦ ⟨0, .ok (-1)⟩

theorem _determineNewReplicaSet_not_sound :
    ({"p"} : Finset Endpoint).card ≤ (drawnNodes (replicated.healthyReplicaSet {"p"}) {"p"} ["n"]
        (attempts firstNode)).card ∧
      ¬ ∃ new, _determineNewReplicaSet replicated "0xa" {"p"} ["n"] clockOfZero
          [.PRIMARY_AND_OR_SECONDARIES] firstNode = .ok new ∧
        new.Sound replicated {"p"} clockOfZero := by
  refine ⟨by decide, ?_⟩
  rintro ⟨new, hnew, newPrimary, newSecondary1, newSecondary2, hprimary, -, -, hsound⟩
  have hresult : _determineNewReplicaSet replicated "0xa" {"p"} ["n"] clockOfZero
      [.PRIMARY_AND_OR_SECONDARIES] firstNode =
      .ok ⟨some "s1", some "s2", some "n", true, some .PRIMARY_AND_OR_SECONDARIES⟩ := by rfl
  cases hnew
  cases hprimary
  have hclock := hsound.larger_clock (by decide) (by decide) (by decide) "s2" (by decide)
  have habsurd : (some 0 : Option ℤ) ≤ none := hclock
  exact Option.not_some_le_none habsurd

/-- With a clock of 1 the second secondary becomes the primary. -/
theorem _determineNewReplicaSet_sound_one :
    let clocks : ReplicaToUserInfoMap := fun node ↦
      if node = "s2" then some ⟨some 1, none⟩ else none
    ∃ new, _determineNewReplicaSet replicated "0xa" {"p"} ["n"] clocks
        [.PRIMARY_AND_OR_SECONDARIES] firstNode = .ok new ∧ new.Sound replicated {"p"} clocks := by
  apply (_determineNewReplicaSet_sound_iff replicated "0xa" {"p"} (by decide) (by decide) ["n"] _ _
    firstNode (by decide)).mpr
  rintro ⟨-, -, -, hclocks⟩
  have habsurd : (1 : ℤ) ≤ 0 := hclocks
  omega

end ReplicaSetUpdates

end ColivingSpec
