import ColivingSpec.Discovery.AssociatedWallets
import ColivingSpec.Discovery.ContentLists
import ColivingSpec.Discovery.UserEvents

/-!
# Users

The handler of user events. The events of a user are handled one after the other, over a record that
starts as the current row or as a new record with the user's id. The metadata of a user is copied
into the record field by field, and its wallets and events are handed on. The module follows
`users.py`; timestamps are in seconds.
-/

namespace ColivingSpec.Discovery

open Lib (Dict Json bind_eq_ok pure_eq_ok)

namespace Users

/-! ### Events and records -/

/-- An event of a user with its arguments: `user_event_constants.py:4–14`. -/
inductive Event where
  | add_user (handle : List UInt8) (wallet : String)
  | update_multihash (multihashDigest : List UInt8)
  | update_name (name : List UInt8)
  | update_location (location : List UInt8)
  | update_bio (bio : String)
  | update_profile_photo (profilePhotoDigest : List UInt8)
  | update_cover_photo (coverPhotoDigest : List UInt8)
  | update_is_verified (isVerified : Bool)
  | update_content_node_endpoint (contentNodeEndpoint : String)
  deriving DecidableEq, Repr

/-- The record of a user; what is not set is `None`: `user.py:23–65`. -/
structure User where
  user_id : Option ℤ
  is_current : Option Bool
  handle : Option String
  handle_lc : Option String
  wallet : Option String
  name : Option String
  location : Option String
  bio : Option String
  metadata_multihash : Option String
  profile_picture : Option String
  profile_picture_sizes : Option String
  cover_photo : Option String
  cover_photo_sizes : Option String
  content_node_endpoint : Option String
  is_verified : Option Bool
  primary_id : Option ℤ
  has_collectibles : Option Bool
  content_list_library : Json
  is_deactivated : Json
  created_at : Option ℕ
  updated_at : Option ℕ
  blocknumber : Option ℤ
  blockhash : Option String
  txhash : Option String

/-- A record of a user without a row: `users.py:249–254`. -/
def User.fresh (user_id : ℤ) (created_at : ℕ) : User where
  user_id := some user_id
  is_current := some true
  handle := none
  handle_lc := none
  wallet := none
  name := none
  location := none
  bio := none
  metadata_multihash := none
  profile_picture := none
  profile_picture_sizes := none
  cover_photo := none
  cover_photo_sizes := none
  content_node_endpoint := none
  is_verified := none
  primary_id := none
  has_collectibles := none
  content_list_library := .null
  is_deactivated := .null
  created_at := some created_at
  updated_at := none
  blocknumber := none
  blockhash := none
  txhash := none

/-- The columns that may not be null and have no default: `model_nullable_validator.py:10–29`. -/
def all_required_fields_present (record : User) : Bool :=
  record.user_id.isSome && record.is_current.isSome

/-- `CID` in `user_schema.json`. -/
def isCid (value : String) : Bool :=
  decide (value.length = 46) && "Qm".isPrefixOf value &&
    value.toList.all fun c ↦ c.isAlphanum

/-- A value in a text field of the schema; only a string is not refused, and a value that has no
`encode` raises: `model_utils.py:72–96`. -/
def textOf : Json → Except String (Option String)
  | .str value => .ok (some (sanitize value))
  | value => if value.truthy then .error "AttributeError" else .ok none

/-- A value in a field of the schema for a CID; a text that is not one is replaced by `None`. -/
def cidOf (value : Json) : Except String (Option String) :=
  match textOf value with
  | .error message => .error message
  | .ok none => .ok none
  | .ok (some value) => .ok (if isCid value then some value else none)

/-! ### Parsing an event -/

/-- What the handler takes from libraries. -/
structure Functions where
  lower : String → String
  multihash_digest_to_cid : List UInt8 → String
  signatures : AssociatedWallets.Signatures

/-- The tables and what is dispatched, which an event changes as it goes. -/
structure Effects where
  associated_wallets : List AssociatedWallets.AssociatedWallet
  user_events : UserEvents.State

/-- What is left when an event was parsed: its effects, the record as it was set, and whether the
record has its required fields. -/
structure Parsed where
  effects : Effects
  record : User
  complete : Bool

/-- `user_replica_set_upgraded`: `users.py:656–660`. -/
def user_replica_set_upgraded (user_record : User) : Bool :=
  match user_record.primary_id with
  | some primary_id => decide (0 < primary_id)
  | none => false

section Parse

variable (functions : Functions) (block_number : ℤ) (block_timestamp : ℕ)

/-- A photo given by its digest. -/
def photoOf (digest : List UInt8) : Except String (Option String) :=
  cidOf (.str (functions.multihash_digest_to_cid digest))

variable (user_record : User) (metadata : Dict String Json)

/-- The fields that an event sets by its type: `users.py:283–332`. -/
def setChainFields : Event → Except String User
  | .add_user handle wallet => do
    let handle_str ← bytes32ToStr handle
    return { user_record with
      handle := some (sanitize handle_str)
      handle_lc := some (sanitize (functions.lower handle_str))
      wallet := some (sanitize (functions.lower wallet)) }
  | .update_multihash multihashDigest =>
    .ok { user_record with
      metadata_multihash := some (sanitize (functions.multihash_digest_to_cid multihashDigest)) }
  | .update_name name => do
    let name ← bytes32ToStr name
    return { user_record with name := some (sanitize name) }
  | .update_location location => do
    let location ← bytes32ToStr location
    return { user_record with location := some (sanitize location) }
  | .update_bio bio => .ok { user_record with bio := some (sanitize bio) }
  | .update_profile_photo digest => do
    let profile_picture ← photoOf functions digest
    return { user_record with profile_picture }
  | .update_cover_photo digest => do
    let cover_photo ← photoOf functions digest
    return { user_record with cover_photo }
  | .update_is_verified isVerified => .ok { user_record with is_verified := some isVerified }
  | .update_content_node_endpoint contentNodeEndpoint =>
    .ok (if user_replica_set_upgraded user_record then user_record
      else { user_record with content_node_endpoint := some (sanitize contentNodeEndpoint) })

/-- `if key in metadata and metadata[key]`: the field is set to the value, else it stays. -/
def overridden (read : Json → Except String (Option String)) (metadata : Dict String Json)
    (key : String) (old : Option String) : Except String (Option String) :=
  match metadata.get? key with
  | some value => if value.truthy then read value else .ok old
  | none => .ok old

/-- Whether the metadata has collectibles: `users.py:370–378`. -/
def hasCollectibles : Bool :=
  match metadata.get? "collectibles" with
  | some (.object members) => !members.isEmpty
  | _ => false

/-- The fields of the metadata: `users.py:341–378` and `398–405`. -/
def copyMetadata : Except String User := do
  let profile_picture ← overridden cidOf metadata "profile_picture" user_record.profile_picture
  let cover_photo ← overridden cidOf metadata "cover_photo" user_record.cover_photo
  let bio ← overridden textOf metadata "bio" user_record.bio
  let name ← overridden textOf metadata "name" user_record.name
  let location ← overridden textOf metadata "location" user_record.location
  let profile_picture ← overridden cidOf metadata "profile_picture_sizes" profile_picture
  let cover_photo ← overridden cidOf metadata "cover_photo_sizes" cover_photo
  let content_list_library := (metadata.get? "content_list_library").getD .null
  return { user_record with
    profile_picture, cover_photo, bio, name, location
    has_collectibles := some (hasCollectibles metadata)
    content_list_library :=
      if content_list_library.truthy then content_list_library
      else user_record.content_list_library
    is_deactivated := (metadata.get? "is_deactivated").getD user_record.is_deactivated }

/-- The wallets of a chain in the metadata: `users.py:380–396`. -/
def updateWallets (key : String) (chain : AssociatedWallets.WalletChain)
    (rows : List AssociatedWallets.AssociatedWallet) :
    List AssociatedWallets.AssociatedWallet :=
  match metadata.get? key with
  | none => rows
  | some wallets =>
    AssociatedWallets.update_user_associated_wallets functions.signatures rows
      ⟨user_record.user_id.getD 0, user_record.blocknumber.getD 0, user_record.blockhash.getD ""⟩
      wallets chain

/-- The wallets and the events of the metadata: `users.py:380–396` and `407–413`. -/
def metadataEffects (effects : Effects) :
    Effects where
  associated_wallets :=
    updateWallets functions user_record metadata "associated_sol_wallets" .sol
      (updateWallets functions user_record metadata "associated_wallets" .eth
        effects.associated_wallets)
  user_events :=
    let events := (metadata.get? "events").getD .null
    if events.truthy then
      UserEvents.update_user_events effects.user_events
        ⟨user_record.user_id.getD 0, user_record.blocknumber, user_record.blockhash⟩ events
    else effects.user_events

/-- A verified user is dispatched as such: `users.py:312–319`. -/
def verifiedEffects (event : Event) (effects : Effects) : Effects :=
  match event with
  | .update_is_verified true =>
    { effects with
      user_events := { effects.user_events with
        dispatched := effects.user_events.dispatched ++
          [⟨.connect_verified, block_number, user_record.user_id.getD 0, none⟩] } }
  | _ => effects

/-- Whether a text counts as true in a condition. -/
def isSet (value : Option String) : Bool := decide (value.getD "" ≠ "")

/-- Photos stand under their sizes: `users.py:415–431`. -/
def movePhotos : User :=
  { user_record with
    profile_picture_sizes :=
      if isSet user_record.profile_picture then user_record.profile_picture
      else user_record.profile_picture_sizes
    profile_picture :=
      if isSet user_record.profile_picture then none else user_record.profile_picture
    cover_photo_sizes :=
      if isSet user_record.cover_photo then user_record.cover_photo
      else user_record.cover_photo_sizes
    cover_photo := if isSet user_record.cover_photo then none else user_record.cover_photo }

variable (ipfs_metadata : Dict String (Dict String Json)) (users : List User)

/-- The metadata that an event is parsed with: `users.py:167–195`. -/
def metadataOf :
    Event → Except String (Option (Dict String Json))
  | .update_multihash digest =>
    match ipfs_metadata.get? (functions.multihash_digest_to_cid digest) with
    | some metadata => .ok (if metadata.items.isEmpty then none else some metadata)
    | none => .error "KeyError"
  | _ => .ok none

/-- `parse_user_event`: `users.py:271–440`. -/
def parse_user_event (event : Event) (user_record : User) (effects : Effects) :
    Except String Parsed := do
  let metadata ← metadataOf functions ipfs_metadata event
  let user_record ← setChainFields functions user_record event
  let user_record := { user_record with updated_at := some block_timestamp }
  let effects := verifiedEffects block_number user_record event effects
  match metadata with
  | none =>
    let user_record := movePhotos user_record
    return ⟨effects, user_record, all_required_fields_present user_record⟩
  | some metadata =>
    let copied ← copyMetadata user_record metadata
    let effects := metadataEffects functions user_record metadata effects
    let user_record := movePhotos copied
    return ⟨effects, user_record, all_required_fields_present user_record⟩

/-! ### The events of a user -/

/-- An event of a user, with its transaction. -/
structure Entry where
  txhash : String
  event_blockhash : String
  event : Event
  deriving DecidableEq, Repr

/-- `lookup_user_record`: `users.py:231–261`. -/
def lookup_user_record (user_id : ℤ) (entry : Entry) : User :=
  let record := (users.find? fun row ↦
    decide (row.user_id = some user_id ∧ row.is_current = some true)).getD
      (User.fresh user_id block_timestamp)
  { record with
    blocknumber := some block_number
    blockhash := some entry.event_blockhash
    txhash := some entry.txhash }

/-- What the loop over the events of a user keeps: the record of the user in `user_events_lookup`
with its events, the effects, and the transactions that were skipped. -/
structure Changes where
  user : Option (User × List Event)
  effects : Effects
  skipped : List String

/-- An event of a user: `users.py:146–222`. -/
def process_user_tx (ipfs_metadata : Dict String (Dict String Json)) (user_id : ℤ)
    (changes : Changes) (entry : Entry) : Except String Changes :=
  let existing := (changes.user.map Prod.fst).getD
    (lookup_user_record block_number block_timestamp users user_id entry)
  match parse_user_event functions block_number block_timestamp ipfs_metadata entry.event existing
    changes.effects with
  | .error message => .error message
  | .ok parsed =>
    if parsed.complete then
      .ok ⟨some (parsed.record, (changes.user.map Prod.snd).getD [] ++ [entry.event]),
        parsed.effects, changes.skipped⟩
    else
      .ok ⟨changes.user.map fun user ↦ (parsed.record, user.2), parsed.effects,
        changes.skipped ++ [entry.txhash]⟩

/-- `process_user_txs_serial`: `users.py:130–222`. -/
def process_user_txs_serial (users : List User) (ipfs_metadata : Dict String (Dict String Json))
    (user_id : ℤ) : List Entry → Changes → Except String Changes
  | [], changes => .ok changes
  | entry :: rest, changes =>
    match process_user_tx functions block_number block_timestamp users ipfs_metadata user_id changes
      entry with
    | .error message => .error message
    | .ok changes => process_user_txs_serial users ipfs_metadata user_id rest changes

end Parse

/-! ### Required fields -/

/-- Two records agree in the required fields. -/
def SameRequired (record record' : User) : Prop :=
  record'.user_id = record.user_id ∧ record'.is_current = record.is_current

section Required

variable {functions : Functions} {block_number : ℤ} {block_timestamp : ℕ}
variable {ipfs_metadata : Dict String (Dict String Json)}
variable {event : Event} {user_record : User} {effects : Effects} {parsed : Parsed}

theorem sameRequired_setChainFields {set : User}
    (h : setChainFields functions user_record event = .ok set) : SameRequired user_record set := by
  cases event with
  | add_user | update_name | update_location =>
    obtain ⟨text, -, h⟩ := bind_eq_ok.mp h
    cases pure_eq_ok.mp h
    exact ⟨rfl, rfl⟩
  | update_profile_photo | update_cover_photo =>
    cases pure_eq_ok.mp h
    exact ⟨rfl, rfl⟩
  | update_content_node_endpoint endpoint =>
    cases h
    split <;> exact ⟨rfl, rfl⟩
  | update_multihash | update_bio | update_is_verified =>
    cases h
    exact ⟨rfl, rfl⟩

theorem sameRequired_copyMetadata {metadata : Dict String Json} {copied : User}
    (h : copyMetadata user_record metadata = .ok copied) : SameRequired user_record copied := by
  obtain ⟨_, -, h⟩ := bind_eq_ok.mp h
  obtain ⟨_, -, h⟩ := bind_eq_ok.mp h
  obtain ⟨_, -, h⟩ := bind_eq_ok.mp h
  obtain ⟨_, -, h⟩ := bind_eq_ok.mp h
  obtain ⟨_, -, h⟩ := bind_eq_ok.mp h
  obtain ⟨_, -, h⟩ := bind_eq_ok.mp h
  obtain ⟨_, -, h⟩ := bind_eq_ok.mp h
  cases pure_eq_ok.mp h
  exact ⟨rfl, rfl⟩

theorem SameRequired.present {record record' : User} (h : SameRequired record record')
    (hpresent : all_required_fields_present record = true) :
    all_required_fields_present record' = true := by
  unfold all_required_fields_present at hpresent ⊢
  rw [h.1, h.2]
  exact hpresent

/-- No event takes a required field from a record. -/
theorem present_of_parse
    (h : parse_user_event functions block_number block_timestamp ipfs_metadata event user_record
      effects = .ok parsed) (hpresent : all_required_fields_present user_record = true) :
    parsed.complete = true ∧ all_required_fields_present parsed.record = true := by
  obtain ⟨metadata, -, h⟩ := bind_eq_ok.mp h
  obtain ⟨chain, hchain, h⟩ := bind_eq_ok.mp h
  have hset := (sameRequired_setChainFields hchain).present hpresent
  cases metadata with
  | none =>
    cases pure_eq_ok.mp h
    exact ⟨hset, hset⟩
  | some metadata =>
    obtain ⟨copied, hcopied, h⟩ := bind_eq_ok.mp h
    cases pure_eq_ok.mp h
    have hcopy := (sameRequired_copyMetadata hcopied).present
      (show all_required_fields_present { chain with updated_at := some block_timestamp } = true
        from hset)
    exact ⟨hcopy, hcopy⟩

variable (users : List User)

/-- The record of a user that is looked up has the required fields. -/
theorem present_lookup (user_id : ℤ) (entry : Entry) :
    all_required_fields_present
      (lookup_user_record block_number block_timestamp users user_id entry) = true := by
  unfold lookup_user_record
  cases hfind : users.find? fun row ↦
      decide (row.user_id = some user_id ∧ row.is_current = some true) with
  | none => rfl
  | some row =>
    have hrow := List.find?_some hfind
    rw [decide_eq_true_eq] at hrow
    obtain ⟨hid, hcurrent⟩ := hrow
    change (row.user_id.isSome && row.is_current.isSome) = true
    rw [hid, hcurrent]
    rfl

/-- The record in the dictionary has the required fields. -/
def Changes.Present (changes : Changes) : Prop :=
  ∀ user, changes.user = some user → all_required_fields_present user.1 = true

/-- An event is not skipped, whatever the other users have changed before it. -/
theorem not_skipped_of_process_user_tx {users : List User} {user_id : ℤ}
    {changes changes' : Changes} {entry : Entry} (hpresent : changes.Present)
    (h : process_user_tx functions block_number block_timestamp users ipfs_metadata user_id changes
      entry = .ok changes') :
    changes'.skipped = changes.skipped ∧ changes'.Present := by
  have hexisting : all_required_fields_present ((changes.user.map Prod.fst).getD
      (lookup_user_record block_number block_timestamp users user_id entry)) = true := by
    cases huser : changes.user with
    | none => exact present_lookup users user_id entry
    | some user => exact hpresent user huser
  unfold process_user_tx at h
  dsimp only at h
  split at h
  · cases h
  · next parsed hparsed =>
    obtain ⟨hcomplete, hrecord⟩ := present_of_parse hparsed hexisting
    rw [if_pos hcomplete] at h
    cases h
    refine ⟨rfl, ?_⟩
    intro user huser
    cases huser
    exact hrecord

/-- No event of a user is skipped for a missing required field. -/
theorem not_skipped_of_process_user_txs_serial (user_id : ℤ) (entries : List Entry) :
    ∀ {changes changes' : Changes}, changes.Present →
      process_user_txs_serial functions block_number block_timestamp users ipfs_metadata user_id
        entries changes = .ok changes' →
      changes'.skipped = changes.skipped := by
  induction entries with
  | nil =>
    intro changes changes' _ h
    cases h
    rfl
  | cons entry entries ih =>
    intro changes changes' hpresent h
    unfold process_user_txs_serial at h
    split at h
    · cases h
    · next next hnext =>
      obtain ⟨hskipped, hpresent'⟩ := not_skipped_of_process_user_tx hpresent hnext
      rw [ih hpresent' h, hskipped]

end Required

end Users

end ColivingSpec.Discovery
