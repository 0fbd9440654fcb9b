import ColivingSpec.Discovery.Notifications

/-!
# What identity makes of a response of `/notifications`

The milestones of a response (`notifications/milestoneProcessing.js`) and the types that the
processors of reposts, favorites and creates store notifications under
(`notifications/processNotifications`). What `_processMilestone` does with a milestone is a
parameter.
-/

namespace ColivingSpec

open Lib

namespace NotificationFeed

/-! ### Milestones -/

/-- The arguments of `_processMilestone` that depend on the milestone. -/
structure ProcessedMilestone where
  milestoneType : String
  userId : Option ℕ
  entityId : ℕ
  entityType : String
  milestoneValue : ℕ
  deriving DecidableEq

def baseMilestoneList : List ℕ :=
  [10, 25, 50, 100, 250, 500, 1000, 5000, 10000, 20000, 50000, 100000, 1000000]

/-- The loop over the list, from its end to its start, up to the value that the count is. -/
def milestoneValue (count : ℕ) : Option ℕ :=
  baseMilestoneList.reverse.find? fun value ↦ value = count

/-- The keys of an object with ids as keys, which come in order. -/
def idsOf (counts : Dict ℕ ℕ) : List ℕ :=
  (counts.items.map Prod.fst).insertionSort (· ≤ ·)

variable (object : NestedDict String ℕ ℕ) (entityType : Option String)

/-- `Object.keys` of what an object has under a key. -/
def objectKeys (key : String) : Except String (List ℕ) :=
  match object.get? key with
  | some counts => .ok (idsOf counts)
  | none => .error "TypeError: Cannot convert undefined or null to object"

/-- `object[key][id]`. -/
def readId (key : String) (id : ℕ) : Except String (Option ℕ) :=
  match object.get? key with
  | some inner => .ok (inner.get? id)
  | none => .error "TypeError: Cannot read properties of undefined"

section Milestones

variable {σ : Type} (process : σ → ProcessedMilestone → Except String σ)

/-- Lines 51–80. -/
def updateFollowerMilestones (followerCounts : Dict ℕ ℕ) (s : σ) : Except String σ :=
  let step (s : σ) (targetUser : ℕ) : Except String σ :=
    match (followerCounts.get? targetUser).bind milestoneValue with
    | some value => process s ⟨"MilestoneFollow", some targetUser, value, "User", value⟩
    | none => .ok s
  (idsOf followerCounts).foldlM step s

variable (milestoneType : String)

/-- One of the three loops of reposts and favorites. -/
def updateEntityMilestones (entityType key : String) (counts owners : NestedDict String ℕ ℕ)
    (ids : List ℕ) (s : σ) : Except String σ :=
  let step (s : σ) (id : ℕ) : Except String σ := do
    let ownerId ← readId owners key id
    let count ← readId counts key id
    match count.bind milestoneValue with
    | some value => process s ⟨milestoneType, ownerId, id, entityType, value⟩
    | none => return s
  ids.foldlM step s

/-- Reposts and favorites are alike but for the type. -/
def updateGroupMilestones (counts owners : NestedDict String ℕ ℕ) (s : σ) : Except String σ := do
  let digitalContents ← objectKeys counts "digitalContents"
  let albums ← objectKeys counts "albums"
  let contentLists ← objectKeys counts "contentLists"
  let s ← updateEntityMilestones process milestoneType "DigitalContent" "digitalContents" counts
    owners digitalContents s
  let s ← updateEntityMilestones process milestoneType "Album" "albums" counts owners albums s
  updateEntityMilestones process milestoneType "ContentList" "contentLists" counts owners
    contentLists s

/-- Lines 87–157. -/
def updateRepostMilestones (repostCounts owners : NestedDict String ℕ ℕ) (s : σ) :
    Except String σ :=
  updateGroupMilestones process "MilestoneRepost" repostCounts owners s

/-- Lines 164–234. -/
def updateFavoriteMilestones (favoriteCounts owners : NestedDict String ℕ ℕ) (s : σ) :
    Except String σ :=
  updateGroupMilestones process "MilestoneFavorite" favoriteCounts owners s

/-- Lines 29–43. -/
def indexMilestones (milestones : MilestoneInfo) (owners : NestedDict String ℕ ℕ) (s : σ) :
    Except String σ := do
  let s ← updateFollowerMilestones process milestones.followerCounts s
  let s ← updateRepostMilestones process milestones.repostCounts owners s
  updateFavoriteMilestones process milestones.favoriteCounts owners s

end Milestones

/-! ### Types of notifications -/

/-- `notificationTypes.Repost`, `.Favorite` and `.Create` of a kind. -/
def notificationType (base : String) : EntityKind → String
  | .digitalContent => base ++ "DigitalContent"
  | .album => base ++ "Album"
  | .contentList => base ++ "ContentList"

/-- The kind that a case of `getNotifType` is for; all three files have the same cases. -/
def notifKind : Option EntityKind :=
  match entityType with
  | some "digital_content" => some .digitalContent
  | some "album" => some .album
  | some "contentList" => some .contentList
  | _ => none

/-- `getNotifType` of `repostNotification.js:7–18` and `favoriteNotification.js:7–18`: the
default is the empty string. -/
def getNotifType (base : String) (entityType : Option String) : String :=
  match notifKind entityType with
  | some kind => notificationType base kind
  | none => ""

/-- `createType` of `createNotification.js:7–27`: the default has none. -/
def createType : Option String :=
  (notifKind entityType).map (notificationType "Create")

/-- The type that the processor of a notification stores it under. -/
def storedType (notification : Notification) : Option String :=
  match notification.type with
  | "Repost" => some (getNotifType "Repost" notification.metadata.entityType)
  | "Favorite" => some (getNotifType "Favorite" notification.metadata.entityType)
  | "Create" => createType notification.metadata.entityType
  | type => some type

end NotificationFeed

end ColivingSpec

/-!
## Whether identity understands discovery

What it takes that a response of `/notifications` is understood, and why none is: the milestones of
content lists are written under one key and read under another, so that reading them raises whatever
the milestones are. The types of content lists differ in the same way.
-/

namespace ColivingSpec

open Lib

namespace NotificationFeed

/-- `actionEntityTypes` of a kind. -/
def EntityKind.actionEntityType : EntityKind → String
  | digitalContent => "DigitalContent"
  | contentList => "ContentList"
  | album => "Album"

/-- Keep the milestones that are processed. -/
def record (calls : List ProcessedMilestone) (milestone : ProcessedMilestone) :
    Except String (List ProcessedMilestone) :=
  .ok (calls ++ [milestone])

/-- Every count of a group is processed with the owner of what it is of. -/
def Considered (milestoneType : String) (counts owners : NestedDict String ℕ ℕ)
    (calls : List ProcessedMilestone) : Prop :=
  ∀ (kind : EntityKind) (id count : ℕ), counts.find? kind.ownersKey id = some count →
    ∃ owner, owners.find? kind.ownersKey id = some owner ∧
      ⟨milestoneType, some owner, id, kind.actionEntityType, count⟩ ∈ calls

/-- Favorites, reposts and creates are stored under the types of their kinds, and all milestones
are processed, with their owners, without an exception. -/
structure Response.Understood (response : Response) : Prop where
  stored : ∀ n ∈ response.notifications, n.type ∈ ["Favorite", "Repost", "Create"] →
    ∀ kind : EntityKind, n.metadata.entityType = some kind.value →
      storedType n = some (notificationType n.type kind)
  considered : ∃ calls, indexMilestones record response.milestones response.owners [] = .ok calls ∧
    (∀ userId count, response.milestones.followerCounts.get? userId = some count →
      ⟨"MilestoneFollow", some userId, count, "User", count⟩ ∈ calls) ∧
    Considered "MilestoneRepost" response.milestones.repostCounts response.owners calls ∧
    Considered "MilestoneFavorite" response.milestones.favoriteCounts response.owners calls

/-! ### Milestones -/

variable {σ : Type} {process : σ → ProcessedMilestone → Except String σ}

/-- The group has no key `contentLists`. -/
theorem get?_groupMilestones (db : Database) (digitalContents contentLists : List (ℕ × ℕ)) :
    (db.groupMilestones digitalContents contentLists).get? "contentLists" = none := by
  simp [Database.groupMilestones, Dict.get?_set]

/-- The keys are read before any milestone of the group. -/
theorem updateGroupMilestones_fails {milestoneType : String} {counts : NestedDict String ℕ ℕ}
    (h : counts.get? "contentLists" = none) (owners : NestedDict String ℕ ℕ) (s : σ) :
    ¬Succeeds (updateGroupMilestones process milestoneType counts owners s) := by
  rintro ⟨s', hok⟩
  obtain ⟨digitalContents, -, hok⟩ := bind_eq_ok.mp hok
  obtain ⟨albums, -, hok⟩ := bind_eq_ok.mp hok
  obtain ⟨contentLists, hkeys, -⟩ := bind_eq_ok.mp hok
  rw [objectKeys, h] at hkeys
  nomatch hkeys

theorem milestones_notifications {db : Database} {maxBlockDiff : ℕ} {others : List Notification}
    {minBlockNumber maxBlockNumber : Option ℕ} {digitalContentIds : List ℕ} {response : Response}
    (h : db.notifications maxBlockDiff others minBlockNumber maxBlockNumber digitalContentIds
      = .ok response) :
    response.milestones = db.getMilestoneInfo response.minBlockNumber response.maxBlockNumber := by
  cases minBlockNumber with
  | none => nomatch h
  | some low =>
    obtain ⟨high, -, h⟩ := bind_eq_ok.mp h
    obtain ⟨created, -, h⟩ := bind_eq_ok.mp h
    rw [pure_eq_ok] at h
    rw [← h]

/-- Whatever a processed milestone does, the milestones of a response raise. -/
theorem indexMilestones_fails (db : Database) (low high : ℕ) (owners : NestedDict String ℕ ℕ)
    (s : σ) : ¬Succeeds (indexMilestones process (db.getMilestoneInfo low high) owners s) := by
  rintro ⟨s', hok⟩
  obtain ⟨s₁, -, hok⟩ := bind_eq_ok.mp hok
  obtain ⟨s₂, hreposts, -⟩ := bind_eq_ok.mp hok
  exact updateGroupMilestones_fails (get?_groupMilestones db _ _) owners s₁ ⟨s₂, hreposts⟩

/-- No response is understood, of no database and no range. -/
theorem notifications_not_understood (db : Database) (maxBlockDiff : ℕ)
    (others : List Notification) (minBlockNumber maxBlockNumber : Option ℕ)
    (digitalContentIds : List ℕ) (response : Response)
    (h : db.notifications maxBlockDiff others minBlockNumber maxBlockNumber digitalContentIds
      = .ok response) :
    (∀ (σ : Type) (process : σ → ProcessedMilestone → Except String σ) (s : σ),
      ¬Succeeds (indexMilestones process response.milestones response.owners s)) ∧
      ¬response.Understood := by
  have hfails : ∀ (σ : Type) (process : σ → ProcessedMilestone → Except String σ) (s : σ),
      ¬Succeeds (indexMilestones process response.milestones response.owners s) := by
    intro σ process s
    rw [milestones_notifications h]
    exact indexMilestones_fails db _ _ response.owners s
  refine ⟨hfails, fun hunderstood ↦ ?_⟩
  obtain ⟨calls, hcalls, -⟩ := hunderstood.considered
  exact hfails _ record [] ⟨calls, hcalls⟩

/-- A content list of user 2 that user 1 reposts in block 3. -/
def reposted : Database where
  blocks := [⟨"0x5", "0x4", some 5, true⟩]
  saves := []
  reposts := [⟨1, 7, .contentList, true, false, 3, 30⟩]
  digitalContents := []
  contentLists := [⟨7, 2, false, false, true, false, [], 2, 20, 20⟩]
  milestones := []

theorem reposted_isOk : (reposted.notifications 100 [] (some 0) none []).isOk = true := by decide

theorem notifications_not_understood_reposted :
    (∀ (σ : Type) (process : σ → ProcessedMilestone → Except String σ) (s : σ),
      ¬Succeeds (indexMilestones process (valueOf _ reposted_isOk).milestones
        (valueOf _ reposted_isOk).owners s)) ∧
      ¬(valueOf _ reposted_isOk).Understood :=
  notifications_not_understood reposted 100 [] (some 0) none [] _ (eq_ok_valueOf _ reposted_isOk)

/-- The repost is stored under no type, and its response has milestones that raise. -/
theorem content_list_repost_not_understood :
    ∃ response, reposted.notifications 100 [] (some 0) none [] = .ok response ∧
      (∃ n ∈ response.notifications, n.type = "Repost" ∧
        n.metadata.entityType = some EntityKind.contentList.value ∧
          storedType n ≠ some (notificationType "Repost" .contentList)) ∧
      ¬Succeeds (indexMilestones record response.milestones response.owners []) := by
  refine ⟨valueOf _ reposted_isOk, eq_ok_valueOf _ reposted_isOk, ?_, ?_⟩
  · exact ⟨Database.socialNotification "Repost" ⟨1, 7, .contentList, true, false, 3, 30⟩ 2,
      by decide, rfl, rfl, by decide⟩
  · rw [milestones_notifications (eq_ok_valueOf _ reposted_isOk)]
    exact indexMilestones_fails reposted _ _ _ []

end NotificationFeed

end ColivingSpec
