import ColivingSpec.Lib.Checked
import ColivingSpec.Lib.Dict
import Mathlib.Data.Int.Notation

/-!
# Updates of content lists

`contentListUpdateNotification.js`: when the content lists that a user favorited were last
updated and last viewed, in one JSON value for each wallet, merged with a batch of
notifications. A timestamp is the number of milliseconds that `moment` reads it as.
-/

namespace ColivingSpec.ContentListUpdates

open Lib

abbrev Wallet := String

/-- What is recorded of a content list; a key may be missing. -/
structure Update where
  userLastViewed : Option ℤ
  lastUpdated : Option ℤ
  deriving DecidableEq

/-- `metadata` of a notification. -/
structure Notification where
  contentListId : ℕ
  contentListUpdatedAt : ℤ
  userIds : List ℕ

/-- The rows of `Users` and `UserEvents` that are read and written, and the wallets of the rows
written by statements that are not part of the caller's transaction. -/
structure Store where
  users : List (ℕ × Option Wallet)
  userEvents : Dict Wallet (Option (Dict ℕ Update))
  outside : List Wallet

variable (notifications : List Notification) (s : Store)

/-- The user, the content list and the timestamp of each turn of the loops of lines 23–37. -/
def turns : List (ℕ × ℕ × ℤ) :=
  notifications.flatMap fun n ↦ n.userIds.map fun userId ↦
    (userId, n.contentListId, n.contentListUpdatedAt)

/-- Lines 22–38. -/
def userContentListUpdatesMap : NestedDict ℕ ℕ ℤ :=
  (turns notifications).foldl (fun d t ↦ NestedDict.setEntry d t.1 t.2.1 t.2.2) Dict.empty

/-- Lines 44–57, for the users of the batch. -/
def userIdToWalletsMap (userIds : List ℕ) (s : Store) : Dict ℕ Wallet :=
  s.users.foldl (fun d user ↦
    match user.2 with
    | some wallet => if user.1 ∈ userIds then d.set user.1 wallet else d
    | none => d) Dict.empty

/-- The value of one content list, lines 87–94. `subtract` changes the moment it is called on,
which is read again for `lastUpdated`. -/
def mergeUpdate (contentListUpdatedAt : ℤ) (old : Option Update) : Update :=
  let fetchedLastUpdated := contentListUpdatedAt
  let fetchedLastUpdated := fetchedLastUpdated - 1000
  { userLastViewed := (old.bind (·.userLastViewed)).or (some fetchedLastUpdated)
    lastUpdated := some fetchedLastUpdated }

/-- Lines 62–99: a row for each user of the batch with a wallet. -/
def newUserEvents : List (Wallet × Dict ℕ Update) :=
  let updates := userContentListUpdatesMap notifications
  let wallets := userIdToWalletsMap (updates.items.map Prod.fst) s
  updates.items.filterMap fun (userId, fetchedContentListUpdates) ↦
    match wallets.get? userId with
    | some walletAddress =>
      if walletAddress = "" then none
      else
        let dbContentListUpdates := ((s.userEvents.get? walletAddress).bind id).getD Dict.empty
        some (walletAddress, dbContentListUpdates.mergeAll mergeUpdate
          fetchedContentListUpdates.items)
    | none => none

/-- The statement of lines 103–111, which is given no transaction. -/
def upsert (rows : List (Wallet × Dict ℕ Update)) (s : Store) : Except String Store := do
  require (rows ≠ []) "syntax error at or near \"ON\""
  require (rows.map Prod.fst).Nodup
    "ON CONFLICT DO UPDATE command cannot affect row a second time"
  return { s with
    userEvents := s.userEvents.mergeAll (fun updates _ ↦ some updates) rows
    outside := s.outside ++ rows.map Prod.fst }

/-- `processContentListUpdateNotifications`: lines 14–112. -/
def processContentListUpdateNotifications : Except String Store :=
  upsert (newUserEvents notifications s) s

/-! ### What the merge should do -/

/-- The wallet of a user. -/
def walletOf (userId : ℕ) (wallet : Wallet) : Prop :=
  (userId, some wallet) ∈ s.users

/-- When a content list of a user was last updated according to the batch. -/
def updatedAt (userId contentListId : ℕ) : Option ℤ :=
  (((turns notifications).filter fun t ↦ t.1 = userId ∧ t.2.1 = contentListId).getLast?).map (·.2.2)

/-- What is recorded of a content list under a wallet. -/
def recorded (wallet : Wallet) (contentListId : ℕ) : Option Update :=
  ((s.userEvents.get? wallet).bind id).bind (·.get? contentListId)

/-- The batch is merged into the store. -/
structure Merged (notifications : List Notification) (s s' : Store) : Prop where
  stored : ∀ userId wallet contentListId timestamp, walletOf s userId wallet →
    updatedAt notifications userId contentListId = some timestamp →
    ∃ update, recorded s' wallet contentListId = some update ∧
      update.lastUpdated = some timestamp ∧
      match (recorded s wallet contentListId).bind (·.userLastViewed) with
      | some viewed => update.userLastViewed = some viewed
      | none => ∃ viewed < timestamp, update.userLastViewed = some viewed
  others : ∀ wallet contentListId,
    (∀ userId, walletOf s userId wallet → updatedAt notifications userId contentListId = none) →
    recorded s' wallet contentListId = recorded s wallet contentListId
  users : s'.users = s.users
  inside : s'.outside = s.outside

variable {notifications : List Notification} {s s' : Store} {userId contentListId : ℕ}
  {wallet : Wallet} {timestamp : ℤ}

theorem updatedAt_eq : updatedAt notifications userId contentListId
    = (userContentListUpdatesMap notifications).find? userId contentListId :=
  (NestedDict.find?_foldl_setEntry (turns notifications)).symm

/-- A user of the batch has a content list in it. -/
theorem exists_updatedAt {fetched : Dict ℕ ℤ}
    (h : (userContentListUpdatesMap notifications).get? userId = some fetched) :
    ∃ contentListId timestamp, fetched.get? contentListId = some timestamp := by
  have hfilled : ∀ (l : List (ℕ × ℕ × ℤ)) (d : NestedDict ℕ ℕ ℤ),
      (∀ k inner, d.get? k = some inner → inner.items ≠ []) → ∀ k inner,
        (l.foldl (fun d t ↦ NestedDict.setEntry d t.1 t.2.1 t.2.2) d).get? k = some inner →
          inner.items ≠ [] := by
    intro l
    induction l with
    | nil => exact fun d hd ↦ hd
    | cons t l ih =>
      intro d hd
      refine ih _ fun k inner hinner ↦ ?_
      simp only [NestedDict.setEntry, Dict.get?_set] at hinner
      split at hinner
      · cases hinner
        exact Dict.items_set_ne_nil _ _ _
      · exact hd k inner hinner
  have hne := hfilled _ _ (fun _ _ hnone ↦ by cases hnone) userId fetched h
  obtain ⟨entry, rest, hitems⟩ := List.exists_cons_of_ne_nil hne
  exact ⟨entry.1, entry.2, (fetched.mem_items _ _).mp (hitems ▸ List.mem_cons_self)⟩

/-- A wallet that is found is that of a row. -/
theorem walletOf_of_get? {userIds : List ℕ}
    (h : (userIdToWalletsMap userIds s).get? userId = some wallet) : walletOf s userId wallet := by
  unfold userIdToWalletsMap at h
  unfold walletOf
  generalize s.users = users at h ⊢
  induction users using List.reverseRecOn with
  | nil => cases h
  | append_singleton users user ih =>
    rw [List.foldl_concat] at h
    rw [List.mem_append, List.mem_singleton]
    obtain ⟨id, _ | other⟩ := user
    · exact .inl (ih h)
    · simp only at h
      split at h
      · rw [Dict.get?_set] at h
        split at h
        · next heq =>
          cases h
          exact .inr (by rw [heq])
        · exact .inl (ih h)
      · exact .inl (ih h)

/-- When the call returns, it has written rows outside of the transaction, and some content list is
recorded as updated a second early. -/
theorem wrong_of_eq_ok (h : processContentListUpdateNotifications notifications s = .ok s') :
    s'.outside ≠ s.outside ∧ ∃ userId wallet contentListId timestamp, walletOf s userId wallet ∧
      updatedAt notifications userId contentListId = some timestamp ∧
      recorded s' wallet contentListId
        = some (mergeUpdate timestamp (recorded s wallet contentListId)) := by
  simp only [processContentListUpdateNotifications, upsert, ↓require_bind_eq_ok, pure_eq_ok] at h
  obtain ⟨hne, hnodup, rfl⟩ := h
  refine ⟨by simpa using hne, ?_⟩
  obtain ⟨⟨wallet, updates⟩, rest, hrows⟩ := List.exists_cons_of_ne_nil hne
  have hrow : (wallet, updates) ∈ newUserEvents notifications s := hrows ▸ List.mem_cons_self
  have hget := (Entries.mem_iff_get? hnodup wallet updates).mp hrow
  obtain ⟨⟨userId, fetched⟩, hfetched, hrow⟩ := List.mem_filterMap.mp hrow
  rw [Dict.mem_items] at hfetched
  simp only at hrow
  split at hrow
  · next walletAddress hwallet =>
    split at hrow
    · cases hrow
    · obtain ⟨rfl, rfl⟩ := Prod.mk.inj (Option.some.inj hrow)
      obtain ⟨contentListId, timestamp, htimestamp⟩ := exists_updatedAt hfetched
      refine ⟨userId, _, contentListId, timestamp, walletOf_of_get? hwallet, ?_, ?_⟩
      · rw [updatedAt_eq, NestedDict.find?, hfetched]
        exact htimestamp
      · unfold recorded
        rw [Dict.get?_mergeAll _ _ hnodup, hget]
        simp only [Option.bind_some, id]
        have hentry : Entries.get? contentListId fetched.items = some timestamp := htimestamp
        rw [Dict.get?_mergeAll _ _ fetched.nodup, hentry]
        cases s.userEvents.get? _ with
        | none => rfl
        | some updates => cases updates <;> rfl
  · cases hrow

/-- No batch is merged into any store. -/
theorem content_list_updates_never_merged (notifications : List Notification) (s : Store) :
    ¬ ∃ s', processContentListUpdateNotifications notifications s = .ok s' ∧
      Merged notifications s s' := by
  rintro ⟨s', h, hmerged⟩
  obtain ⟨-, userId, wallet, contentListId, timestamp, hwallet, hupdated, hrecorded⟩ :=
    wrong_of_eq_ok h
  obtain ⟨update, hupdate, hlast, -⟩ := hmerged.stored _ _ _ _ hwallet hupdated
  cases hrecorded.symm.trans hupdate
  simp only [mergeUpdate, Option.some.injEq] at hlast
  omega

/-- One user with a wallet, and one update of a content list. -/
def exampleStore : Store := ⟨[(1, some "0xa")], Dict.empty, []⟩

@[inherit_doc exampleStore] def exampleBatch : List Notification := [⟨5, 1600000000000, [1]⟩]

theorem exampleBatch_not_merged :
    ¬ ∀ notifications s, ∃ s', processContentListUpdateNotifications notifications s = .ok s' ∧
      Merged notifications s s' := by
  intro h
  obtain ⟨s', hprocess, hmerged⟩ := h exampleBatch exampleStore
  obtain ⟨update, hupdate, hlast, -⟩ :=
    hmerged.stored 1 "0xa" 5 1600000000000 List.mem_cons_self (by decide)
  obtain rfl := Except.ok.inj hprocess
  obtain rfl : update = ⟨some 1599999999000, some 1599999999000⟩ := by
    refine Option.some.inj (hupdate.symm.trans ?_)
    decide +kernel
  exact absurd hlast (by decide)

end ColivingSpec.ContentListUpdates
