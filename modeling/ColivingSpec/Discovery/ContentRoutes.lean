import ColivingSpec.Lib.NumberedNames

/-!
# Slugs and routes of digital contents

The slug of a title, and the routes that lead to the digital contents of an owner by slugs.
-/

/-!
## Slugs of digital contents

The slug of a title is what is left of it when special characters are dropped and white space is
replaced by dashes, in lower case. A title of which nothing is left has the hashed id of its content
in its place. `helpers.py` makes slugs; what depends on Unicode is a parameter.
-/

namespace ColivingSpec.Discovery

open List

open Lib (numbered)

namespace ContentRoutes

/-- A text that can be stored. -/
abbrev Text := List Char

/-- A code point of a Python string: a character, or a surrogate by itself. -/
inductive CodePoint where
  | char (c : Char)
  | surrogate (unit : Fin 2048)
  deriving DecidableEq, Repr

/-- A Python string. -/
abbrev PyString := List CodePoint

variable (value : PyString)

/-- `value.encode("utf-8", "ignore").decode("utf-8", "ignore")`. -/
def encodable : Text :=
  value.filterMap fun
    | .char c => some c
    | .surrogate _ => none

/-- What is stored of a string in a text column: `model_utils.py:51–69`. -/
def stored : Text :=
  (encodable value).filter fun c ↦ decide (c ≠ '\x00')

/-- The string of a text. -/
def ofText (text : Text) : PyString := text.map .char

@[simp] theorem encodable_ofText (text : Text) : encodable (ofText text) = text := by
  unfold encodable ofText
  rw [filterMap_map]
  exact filterMap_some

/-- What a text is stored as when it has no null characters. -/
theorem stored_ofText {text : Text} (h : '\x00' ∉ text) : stored (ofText text) = text := by
  unfold stored
  rw [encodable_ofText, filter_eq_self]
  intro c hc
  apply decide_eq_true
  rintro rfl
  exact h hc

/-- The functions on texts that the slugs rest on: `str.lower`, `str.isspace`, `str.isdigit` and the
`encode` of `hashids`. -/
structure TextFunctions where
  lower : Text → Text
  isspace : Char → Bool
  isdigit : Char → Bool
  encode_int_id : ℕ → Text
  isdigit_of_isDigit : ∀ c, c.isDigit = true → isdigit c = true
  null_not_mem_lower : ∀ text, '\x00' ∉ text → '\x00' ∉ lower text
  encode_int_id_ne_nil : ∀ id, encode_int_id id ≠ []
  null_not_mem_encode_int_id : ∀ id, '\x00' ∉ encode_int_id id

/-- The characters a slug is made without: `helpers.py:436–440`. -/
def special : List Char := "!%#$&'()*+,/:;=?@[]\x00^.\x7b\x7d\"".toList

/-- `re.sub` of each run of certain characters by a dash; `within` says whether one has begun. -/
def dashRuns (p : Char → Bool) : Bool → Text → Text
  | _, [] => []
  | within, c :: rest =>
    if p c then
      if within then dashRuns p true rest else '-' :: dashRuns p true rest
    else c :: dashRuns p false rest

/-- `str.strip`. -/
def strip (isspace : Char → Bool) (text : Text) : Text :=
  ((text.dropWhile isspace).reverse.dropWhile isspace).reverse

section Slug

variable (functions : TextFunctions)

variable (title : PyString)

/-- The sanitized title: `helpers.py:434–446`. -/
def sanitized_title : Text :=
  functions.lower (dashRuns (fun c ↦ decide (c = '-')) false
    (dashRuns functions.isspace false
      (strip functions.isspace ((encodable title).filter fun c ↦ decide (c ∉ special)))))

/-- `create_digital_content_slug`: `helpers.py:422–455`. -/
def create_digital_content_slug (digital_content_id collision_id : ℕ) : Text :=
  let sanitized := sanitized_title functions title
  numbered (if sanitized = [] then functions.encode_int_id digital_content_id else sanitized)
    collision_id

/-- The characters a route id is made without: `helpers.py:403–405`. -/
def specialInRouteId : List Char := "!%#$&'()*+,/:;=?@[]\x00".toList

/-- `create_digital_content_route_id`: `helpers.py:396–419`. -/
def create_digital_content_route_id (handle : Text) : Text :=
  functions.lower handle ++ '/' :: functions.lower (dashRuns (fun c ↦ decide (c = '-')) false
    (dashRuns functions.isspace false
      ((encodable title).filter fun c ↦ decide (c ∉ specialInRouteId))))

variable {functions} (title : PyString) (digital_content_id collision_id : ℕ)

/-- A slug with a number is the slug without, and the number. -/
theorem slug_eq_numbered :
    create_digital_content_slug functions title digital_content_id collision_id =
      numbered (create_digital_content_slug functions title digital_content_id 0) collision_id := by
  unfold create_digital_content_slug
  rw [Lib.numbered_zero]

/-- No slug is empty. -/
theorem slug_ne_nil :
    create_digital_content_slug functions title digital_content_id 0 ≠ [] := by
  unfold create_digital_content_slug
  rw [Lib.numbered_zero]
  split
  · exact functions.encode_int_id_ne_nil digital_content_id
  · assumption

theorem null_mem_special : '\x00' ∈ special := by decide

/-- The title that is stored has the slug of the one that was given. -/
theorem slug_stored :
    create_digital_content_slug functions (ofText (stored title)) digital_content_id collision_id =
      create_digital_content_slug functions title digital_content_id collision_id := by
  have hsame : (encodable (ofText (stored title))).filter (fun c ↦ decide (c ∉ special)) =
      (encodable title).filter fun c ↦ decide (c ∉ special) := by
    rw [encodable_ofText, stored, filter_filter]
    apply filter_congr
    intro c _
    by_cases hnull : c = '\x00'
    · subst hnull
      rw [decide_eq_false (not_not.mpr null_mem_special), Bool.false_and]
    · rw [decide_eq_true hnull, Bool.and_true]
  unfold create_digital_content_slug sanitized_title
  rw [hsame]

/-- Dashes for runs bring in nothing but dashes. -/
theorem mem_of_mem_dashRuns {p : Char → Bool} {c : Char} {text : Text} :
    ∀ {within : Bool}, c ∈ dashRuns p within text → c = '-' ∨ c ∈ text := by
  induction text with
  | nil => exact fun h ↦ .inr h
  | cons d rest ih =>
    intro within h
    unfold dashRuns at h
    split at h
    · split at h
      · exact (ih h).imp_right (mem_cons_of_mem d)
      · rcases mem_cons.mp h with hdash | hrest
        · exact .inl hdash
        · exact (ih hrest).imp_right (mem_cons_of_mem d)
    · rcases mem_cons.mp h with hd | hrest
      · exact .inr (mem_cons.mpr (.inl hd))
      · exact (ih hrest).imp_right (mem_cons_of_mem d)

theorem mem_of_mem_strip {isspace : Char → Bool} {c : Char} {text : Text}
    (h : c ∈ strip isspace text) : c ∈ text := by
  unfold strip at h
  rw [mem_reverse] at h
  have hdropped := (dropWhile_sublist isspace).subset h
  rw [mem_reverse] at hdropped
  exact (dropWhile_sublist isspace).subset hdropped

/-- A slug has no null characters, so it is stored as it is. -/
theorem null_not_mem_slug :
    '\x00' ∉ create_digital_content_slug functions title digital_content_id collision_id := by
  have hsanitized : '\x00' ∉ sanitized_title functions title := by
    apply functions.null_not_mem_lower
    intro hmem
    rcases mem_of_mem_dashRuns hmem with hdash | hmem
    · exact absurd hdash (by decide)
    · rcases mem_of_mem_dashRuns hmem with hdash | hmem
      · exact absurd hdash (by decide)
      · have hfilter := mem_filter.mp (mem_of_mem_strip hmem)
        exact of_decide_eq_true hfilter.2 null_mem_special
  unfold create_digital_content_slug
  have hbase : '\x00' ∉ (if sanitized_title functions title = [] then
      functions.encode_int_id digital_content_id else sanitized_title functions title) := by
    split
    · exact functions.null_not_mem_encode_int_id digital_content_id
    · exact hsanitized
  rcases Nat.eq_zero_or_pos collision_id with rfl | hpos
  · rw [Lib.numbered_zero]
    exact hbase
  · rw [Lib.numbered_of_pos _ hpos]
    intro hmem
    rcases mem_append.mp hmem with hname | hnumber
    · exact hbase hname
    · rcases mem_cons.mp hnumber with hdash | hdigit
      · exact absurd hdash (by decide)
      · exact absurd (Nat.isDigit_of_mem_toDigits (by decide) (Nat.le_refl 10) hdigit) (by decide)

end Slug

end ContentRoutes

end ColivingSpec.Discovery

/-!
## Routes of digital contents

A digital content has a route under its owner: the slug of its title, with a number where the owner
has that slug already. A new title gives it a new route, and the old one is no longer current. The
routes of the block that is being indexed are kept in a list as well, which is searched before the
table. The module follows `update_digital_content_routes_table` in `digital_contents.py`.
-/

namespace ColivingSpec.Discovery

open Lib (numbered)

namespace ContentRoutes

/-- A row of `digital_content_routes`: `digital_content_route.py:6–22`. -/
structure DigitalContentRoute where
  slug : Text
  title_slug : Text
  collision_id : ℕ
  owner_id : ℕ
  digital_content_id : ℕ
  is_current : Bool
  blockhash : String
  blocknumber : ℕ
  txhash : String
  deriving DecidableEq, Repr

/-- The record of a digital content, as far as its route needs it. -/
structure Record where
  digital_content_id : ℕ
  owner_id : ℕ
  title : Option Text
  blockhash : String
  blocknumber : ℕ
  txhash : String
  deriving DecidableEq, Repr

/-- The rows of the blocks before, and those of this block, which queries see as well. -/
structure Routes where
  db : List DigitalContentRoute
  pending : List DigitalContentRoute
  deriving DecidableEq, Repr

variable (routes : Routes)

/-- The rows that a query sees. -/
def Routes.visible : List DigitalContentRoute := routes.db ++ routes.pending

variable (route : DigitalContentRoute) (owner_id : ℕ)

/-- A route is added to the session and to the pending ones: `digital_contents.py:412–415`. -/
def Routes.add : Routes :=
  ⟨routes.db, routes.pending ++ [route]⟩

/-- The primary key of a route. -/
def DigitalContentRoute.key : ℕ × Text := (route.owner_id, route.slug)

/-- Whether a route is a current one of a digital content. -/
def isCurrentOf (digital_content_id : ℕ) (route : DigitalContentRoute) : Bool :=
  route.is_current && decide (route.digital_content_id = digital_content_id)

/-- Whether a route is an owner's with a slug. -/
def hasSlug (slug : Text) (route : DigitalContentRoute) : Bool :=
  decide (route.slug = slug ∧ route.owner_id = owner_id)

/-- `Query.one_or_none`. -/
def one_or_none {α : Type} : List α → Except String (Option α)
  | [] => .ok none
  | [row] => .ok (some row)
  | _ :: _ :: _ => .error "Multiple rows were found when one or none was required"

/-- A search among the pending routes, and in the table if there is none among them:
`digital_contents.py:273–294`, `328–347` and `380–399`. -/
def findRoute (p : DigitalContentRoute → Bool) : Except String (Option DigitalContentRoute) :=
  match routes.pending.find? p with
  | some route => .ok (some route)
  | none => one_or_none (routes.visible.filter p)

/-- The route is no longer current. -/
def retireRow (prev route : DigitalContentRoute) : DigitalContentRoute :=
  if route.key = prev.key then { route with is_current := false } else route

/-- `prev_digital_content_route_record.is_current = False`: `digital_contents.py:296–301`. -/
def retire (prev : Option DigitalContentRoute) (routes : Routes) : Routes :=
  match prev with
  | none => routes
  | some prev => ⟨routes.db.map (retireRow prev), routes.pending.map (retireRow prev)⟩

/-- The largest collision id of an owner's routes with a title slug. -/
def largest (title_slug : Text) (rows : List DigitalContentRoute) : Option ℕ :=
  ((rows.filter fun route ↦
    decide (route.title_slug = title_slug ∧ route.owner_id = owner_id)).map (·.collision_id)).max?

/-- `max_collision_id`: `digital_contents.py:303–325`. -/
def max_collision_id (owner_id : ℕ) (title_slug : Text) (routes : Routes) : Option ℕ :=
  match largest owner_id title_slug routes.pending with
  | some max_collision_id => some max_collision_id
  | none => largest owner_id title_slug routes.visible

section Update

variable (functions : TextFunctions)

/-- The search for a route with the new slug itself, if that ends in a digit:
`digital_contents.py:327–347`. -/
def existingAtDigit (owner_id : ℕ) (title_slug : Text) (routes : Routes) :
    Except String (Option DigitalContentRoute) :=
  match title_slug.getLast? with
  | none => .error "string index out of range"
  | some c =>
    if functions.isdigit c then findRoute routes (hasSlug owner_id title_slug) else .ok none

/-- The loop that raises the collision id until its slug is free, for as many rounds as there is
fuel: `digital_contents.py:354–400`. -/
def resolveCollisions (record : Record) (title : PyString) (routes : Routes) :
    ℕ → ℕ → Except String ℕ
  | 0, _ => .error "out of fuel"
  | fuel + 1, new_collision_id =>
    match findRoute routes (hasSlug record.owner_id (create_digital_content_slug functions title
      record.digital_content_id (new_collision_id + 1))) with
    | .error message => .error message
    | .ok none => .ok (new_collision_id + 1)
    | .ok (some _) => resolveCollisions record title routes fuel (new_collision_id + 1)

variable (record : Record)

variable (title : PyString) (title_slug : Text)

/-- `new_collision_id`: `digital_contents.py:349–400`. The loop is given a round more than there are
routes. -/
def new_collision_id (routes : Routes) : Except String ℕ :=
  match existingAtDigit functions record.owner_id title_slug routes with
  | .error message => .error message
  | .ok existing =>
    match max_collision_id record.owner_id title_slug routes, existing with
    | some largest, _ =>
      resolveCollisions functions record title routes (routes.visible.length + 1) largest
    | none, some _ => resolveCollisions functions record title routes (routes.visible.length + 1) 0
    | none, none => .ok 0

/-- The new route: `digital_contents.py:402–411`. -/
def newRoute (collision_id : ℕ) :
    DigitalContentRoute where
  slug := stored (ofText (create_digital_content_slug functions title record.digital_content_id
    collision_id))
  title_slug := stored (ofText title_slug)
  collision_id := collision_id
  owner_id := record.owner_id
  digital_content_id := record.digital_content_id
  is_current := true
  blockhash := record.blockhash
  blocknumber := record.blocknumber
  txhash := record.txhash

/-- `update_digital_content_routes_table`: `digital_contents.py:256–415`. -/
def update_digital_content_routes_table (routes : Routes) :
    Except String Routes :=
  if record.title.map ofText = some title then .ok routes
  else
    let title_slug := create_digital_content_slug functions title record.digital_content_id 0
    match findRoute routes (isCurrentOf record.digital_content_id) with
    | .error message => .error message
    | .ok prev =>
      if prev.any fun route ↦ decide (route.title_slug = title_slug) then .ok routes
      else
        match new_collision_id functions record title title_slug (retire prev routes) with
        | .error message => .error message
        | .ok collision_id =>
          .ok ((retire prev routes).add (newRoute functions record title title_slug collision_id))

/-- A new or update event of a digital content, as far as its route needs it. -/
structure Event where
  digital_content_id : ℕ
  owner_id : ℕ
  title : PyString
  txhash : String

/-- The events of a block, in the order they are handled. -/
structure Block where
  blockhash : String
  blocknumber : ℕ
  events : List Event

/-- The titles of the current records, and the routes. -/
structure State where
  titles : ℕ → Option Text
  routes : Routes

/-- An event: the record has the event's owner and the title it had, the routes are updated, and
then the title is set. `digital_contents.py:461–484` and `515–528`. -/
def processEvent (block : Block) (state : State) (event : Event) : Except String State :=
  match update_digital_content_routes_table functions ⟨event.digital_content_id, event.owner_id,
    state.titles event.digital_content_id, block.blockhash, block.blocknumber, event.txhash⟩
    event.title state.routes with
  | .error message => .error message
  | .ok routes =>
    .ok ⟨Function.update state.titles event.digital_content_id (some (stored event.title)), routes⟩

/-- The events of a block, in their order. -/
def processEvents (block : Block) : List Event → State → Except String State
  | [], state => .ok state
  | event :: rest, state =>
    match processEvent functions block state event with
    | .error message => .error message
    | .ok state => processEvents block rest state

/-- After a block its routes are in the table, and the list is empty. -/
def State.committed (state : State) : State := ⟨state.titles, ⟨state.routes.visible, []⟩⟩

/-- The blocks, in their order. -/
def processBlocks : List Block → State → Except String State
  | [], state => .ok state
  | block :: rest, state =>
    match processEvents functions block block.events state with
    | .error message => .error message
    | .ok state => processBlocks rest state.committed

/-- The state after some blocks, from empty tables. -/
def run (blocks : List Block) : Except String State :=
  processBlocks functions blocks ⟨fun _ ↦ none, ⟨[], []⟩⟩

end Update

end ContentRoutes

end ColivingSpec.Discovery
