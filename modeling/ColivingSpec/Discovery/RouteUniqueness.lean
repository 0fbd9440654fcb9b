import ColivingSpec.Discovery.ContentRoutes

/-!
# Routes do not collide

No owner has two routes with one slug. A slug without a number is free when no route has its title
slug and, where it ends in a digit, no other route has it: a slug with a number ends in one.
-/

namespace ColivingSpec.Discovery

open List Function

open Lib (numbered)

namespace ContentRoutes

/-! ### Searches that find one route at most -/

theorem one_or_none_eq {α : Type} {rows : List α} (h : rows.length ≤ 1) :
    one_or_none rows = .ok rows.head? := by
  match rows with
  | [] => rfl
  | [row] => rfl
  | first :: second :: rest =>
    rw [length_cons, length_cons] at h
    omega

variable {routes : Routes}

/-- Where one visible route at most is looked for, it is found in either place. -/
theorem findRoute_eq {p : DigitalContentRoute → Bool} (h : (routes.visible.filter p).length ≤ 1) :
    findRoute routes p = .ok (routes.visible.filter p).head? := by
  unfold findRoute
  cases hfind : routes.pending.find? p with
  | none => exact one_or_none_eq h
  | some route =>
    have hmem : route ∈ routes.visible.filter p := by
      rw [mem_filter]
      exact ⟨mem_append_right _ (mem_of_find?_eq_some hfind), find?_some hfind⟩
    match hfilter : routes.visible.filter p with
    | [] =>
      rw [hfilter] at hmem
      cases hmem
    | [first] =>
      rw [hfilter] at hmem
      rw [mem_singleton.mp hmem]
      rfl
    | first :: second :: rest =>
      rw [hfilter, length_cons, length_cons] at h
      omega

/-- The keys that the visible routes have. -/
def Routes.keys (routes : Routes) : List (ℕ × Text) :=
  routes.visible.map DigitalContentRoute.key

theorem hasSlug_eq_true {owner_id : ℕ} {slug : Text} {route : DigitalContentRoute} :
    hasSlug owner_id slug route = true ↔ route.key = (owner_id, slug) := by
  unfold hasSlug DigitalContentRoute.key
  rw [decide_eq_true_eq, Prod.mk.injEq]
  exact and_comm

theorem length_filter_hasSlug_le {rows : List DigitalContentRoute}
    (hnodup : (rows.map DigitalContentRoute.key).Nodup) (owner_id : ℕ) (slug : Text) :
    (rows.filter (hasSlug owner_id slug)).length ≤ 1 := by
  have hkeys : (rows.filter (hasSlug owner_id slug)).map DigitalContentRoute.key =
      replicate (rows.filter (hasSlug owner_id slug)).length (owner_id, slug) := by
    apply eq_replicate_iff.mpr
    refine ⟨length_map _, fun key hkey ↦ ?_⟩
    obtain ⟨route, hroute, rfl⟩ := mem_map.mp hkey
    exact hasSlug_eq_true.mp (mem_filter.mp hroute).2
  have hsub := (filter_sublist (p := hasSlug owner_id slug)
    (l := rows)).map DigitalContentRoute.key
  rw [← nodup_replicate, ← hkeys]
  exact hsub.nodup hnodup

theorem head?_filter_hasSlug (owner_id : ℕ) (slug : Text) :
    (routes.visible.filter (hasSlug owner_id slug)).head? = none ↔
      (owner_id, slug) ∉ routes.keys := by
  rw [head?_eq_none_iff, filter_eq_nil_iff]
  unfold Routes.keys
  rw [mem_map]
  constructor
  · rintro h ⟨route, hroute, hkey⟩
    exact h route hroute (hasSlug_eq_true.mpr hkey)
  · intro h route hroute htrue
    exact h ⟨route, hroute, hasSlug_eq_true.mp htrue⟩

/-! ### A free slug -/

section Free

variable {functions : TextFunctions} {record : Record} {title : PyString} {routes : Routes}

/-- The slug of a collision id. -/
def slugAt (functions : TextFunctions) (record : Record) (title : PyString) (collision_id : ℕ) :
    Text :=
  create_digital_content_slug functions title record.digital_content_id collision_id

/-- Whether a collision id is taken. -/
def taken (functions : TextFunctions) (record : Record) (title : PyString) (routes : Routes)
    (collision_id : ℕ) : Bool :=
  decide ((record.owner_id, slugAt functions record title collision_id) ∈ routes.keys)

theorem findRoute_hasSlug (hnodup : routes.keys.Nodup) (owner_id : ℕ) (slug : Text) :
    ∃ found, findRoute routes (hasSlug owner_id slug) = .ok found ∧
      (found = none ↔ (owner_id, slug) ∉ routes.keys) :=
  ⟨_, findRoute_eq (length_filter_hasSlug_le hnodup owner_id slug),
    head?_filter_hasSlug owner_id slug⟩

/-- The loop gives the first free collision id. -/
theorem resolveCollisions_eq (hnodup : routes.keys.Nodup) (fuel n : ℕ) :
    resolveCollisions functions record title routes fuel n =
      match Lib.firstFree (taken functions record title routes) fuel n with
      | some collision_id => .ok collision_id
      | none => .error "out of fuel" := by
  induction fuel generalizing n with
  | zero => rfl
  | succ fuel ih =>
    obtain ⟨found, hfind, hnone⟩ := findRoute_hasSlug hnodup record.owner_id
      (slugAt functions record title (n + 1))
    unfold resolveCollisions Lib.firstFree
    rw [show create_digital_content_slug functions title record.digital_content_id (n + 1) =
      slugAt functions record title (n + 1) from rfl, hfind]
    cases found with
    | none =>
      have hfree : taken functions record title routes (n + 1) = false :=
        decide_eq_false (hnone.mp rfl)
      rw [hfree]
      rfl
    | some route =>
      have htaken : taken functions record title routes (n + 1) = true := by
        by_contra hnot
        exact absurd (hnone.mpr (of_decide_eq_false (Bool.not_eq_true _ ▸ hnot)))
          (Option.some_ne_none route)
      rw [htaken]
      exact ih (n + 1)

theorem slugAt_injective : Injective (slugAt functions record title) := by
  intro m n heq
  unfold slugAt at heq
  exact Lib.numbered_injective _ heq

/-- With a round more than there are routes, the loop ends, at a free slug. -/
theorem exists_resolveCollisions (hnodup : routes.keys.Nodup) (n : ℕ) :
    ∃ collision_id,
      resolveCollisions functions record title routes (routes.visible.length + 1) n =
          .ok collision_id ∧
        (record.owner_id, slugAt functions record title collision_id) ∉ routes.keys := by
  have hinj : Injective fun n ↦ (record.owner_id, slugAt functions record title n) :=
    fun a b heq ↦ slugAt_injective (Prod.mk.inj heq).2
  have hsome : (Lib.firstFree (taken functions record title routes) (routes.visible.length + 1)
      n).isSome = true := by
    apply Lib.firstFree_isSome hinj (fun n htaken ↦ of_decide_eq_true htaken)
    rw [Routes.keys, length_map]
    omega
  obtain ⟨collision_id, hfirst⟩ := Option.isSome_iff_exists.mp hsome
  refine ⟨collision_id, ?_, of_decide_eq_false (Lib.firstFree_eq_some hfirst).1⟩
  rw [resolveCollisions_eq hnodup, hfirst]

/-- The slug of each route is its title slug with its collision id. -/
def Numbered (routes : Routes) : Prop :=
  ∀ route ∈ routes.visible, route.slug = numbered route.title_slug route.collision_id

theorem largest_eq_none {owner_id : ℕ} {title_slug : Text} {rows : List DigitalContentRoute}
    (h : largest owner_id title_slug rows = none) :
    ∀ route ∈ rows, ¬ (route.title_slug = title_slug ∧ route.owner_id = owner_id) := by
  unfold largest at h
  rw [max?_eq_none_iff, map_eq_nil_iff, filter_eq_nil_iff] at h
  intro route hroute hsame
  exact h route hroute (decide_eq_true hsame)

/-- Without a collision the slug itself is free. -/
theorem title_slug_free (hnodup : routes.keys.Nodup) (hnumbered : Numbered routes)
    (hmax : max_collision_id record.owner_id (slugAt functions record title 0) routes = none)
    (hexisting : existingAtDigit functions record.owner_id (slugAt functions record title 0)
      routes = .ok none) :
    (record.owner_id, slugAt functions record title 0) ∉ routes.keys := by
  intro hmem
  obtain ⟨route, hroute, hkey⟩ := mem_map.mp hmem
  obtain ⟨howner, hslug⟩ := Prod.mk.inj hkey
  have hlargest : largest record.owner_id (slugAt functions record title 0) routes.visible =
      none := by
    unfold max_collision_id at hmax
    split at hmax
    · cases hmax
    · exact hmax
  rcases Nat.eq_zero_or_pos route.collision_id with hzero | hpos
  · -- a route without a number has the slug as its title slug
    have htitle := hnumbered route hroute
    rw [hzero, Lib.numbered_zero, hslug] at htitle
    exact largest_eq_none hlargest route hroute ⟨htitle.symm, howner⟩
  · -- a route with a number ends in a digit, so it is looked for
    obtain ⟨c, hlast, hdigit⟩ := Lib.exists_digit_of_numbered route.title_slug hpos
    rw [← hnumbered route hroute, hslug] at hlast
    obtain ⟨found, hfind, hnone⟩ := findRoute_hasSlug hnodup record.owner_id
      (slugAt functions record title 0)
    unfold existingAtDigit at hexisting
    rw [hlast] at hexisting
    dsimp only at hexisting
    rw [if_pos (functions.isdigit_of_isDigit c hdigit), hfind] at hexisting
    exact hnone.mp (Except.ok.inj hexisting) hmem

variable (functions record title) in
theorem exists_existingAtDigit (hnodup : routes.keys.Nodup) :
    ∃ existing, existingAtDigit functions record.owner_id (slugAt functions record title 0)
      routes = .ok existing := by
  unfold existingAtDigit
  cases hlast : (slugAt functions record title 0).getLast? with
  | none => exact absurd (getLast?_eq_none_iff.mp hlast) (slug_ne_nil title _)
  | some c =>
    dsimp only
    split
    · obtain ⟨found, hfind, -⟩ := findRoute_hasSlug hnodup record.owner_id
        (slugAt functions record title 0)
      exact ⟨found, hfind⟩
    · exact ⟨none, rfl⟩

variable (functions record title) in
/-- The new collision id has a free slug. -/
theorem exists_new_collision_id (hnodup : routes.keys.Nodup) (hnumbered : Numbered routes) :
    ∃ collision_id,
      new_collision_id functions record title (slugAt functions record title 0) routes =
          .ok collision_id ∧
        (record.owner_id, slugAt functions record title collision_id) ∉ routes.keys := by
  obtain ⟨existing, hexisting⟩ := exists_existingAtDigit functions record title hnodup
  unfold new_collision_id
  rw [hexisting]
  cases hmax : max_collision_id record.owner_id (slugAt functions record title 0) routes with
  | some largest => exact exists_resolveCollisions hnodup largest
  | none =>
    cases existing with
    | some route => exact exists_resolveCollisions hnodup 0
    | none => exact ⟨0, rfl, title_slug_free hnodup hnumbered hmax hexisting⟩

end Free

/-! ### One event -/

section Retire

variable {routes : Routes} {prev : Option DigitalContentRoute}

/-- The rows with the route taken back. -/
def retireOf (prev : Option DigitalContentRoute) (route : DigitalContentRoute) :
    DigitalContentRoute :=
  prev.elim route fun prev ↦ retireRow prev route

theorem visible_retire (prev : Option DigitalContentRoute) (routes : Routes) :
    (retire prev routes).visible = routes.visible.map (retireOf prev) := by
  cases prev with
  | none => exact (map_id _).symm
  | some prev => exact map_append.symm

/-- Taking a route back changes nothing but whether it is current. -/
theorem retireOf_eq (prev : Option DigitalContentRoute) (route : DigitalContentRoute) :
    ∃ is_current, retireOf prev route = { route with is_current := is_current } := by
  cases prev with
  | none => exact ⟨route.is_current, rfl⟩
  | some prev =>
    by_cases hkey : route.key = prev.key
    · exact ⟨false, if_pos hkey⟩
    · exact ⟨route.is_current, if_neg hkey⟩

theorem keys_retire (prev : Option DigitalContentRoute) (routes : Routes) :
    (retire prev routes).keys = routes.keys := by
  unfold Routes.keys
  rw [visible_retire, map_map]
  apply map_congr_left
  intro route _
  obtain ⟨is_current, heq⟩ := retireOf_eq prev route
  rw [comp_apply, heq]
  rfl

theorem numbered_retire (hnumbered : Numbered routes) : Numbered (retire prev routes) := by
  intro route hroute
  rw [visible_retire] at hroute
  obtain ⟨old, hold, rfl⟩ := mem_map.mp hroute
  obtain ⟨is_current, heq⟩ := retireOf_eq prev old
  rw [heq]
  exact hnumbered old hold

/-- The current routes of a digital content. -/
def Routes.currentOf (routes : Routes) (digital_content_id : ℕ) : List DigitalContentRoute :=
  routes.visible.filter (isCurrentOf digital_content_id)

/-- When the only current route is taken back, there is none. -/
theorem currentOf_retire_self {digital_content_id : ℕ}
    (h : routes.currentOf digital_content_id = prev.toList) :
    (retire prev routes).currentOf digital_content_id = [] := by
  unfold Routes.currentOf
  rw [visible_retire]
  apply filter_eq_nil_iff.mpr
  intro route hroute hcurrent
  obtain ⟨old, hold, rfl⟩ := mem_map.mp hroute
  have hmem : isCurrentOf digital_content_id old = true → old ∈ prev.toList := by
    intro htrue
    rw [← h]
    exact mem_filter.mpr ⟨hold, htrue⟩
  cases prev with
  | none => cases hmem hcurrent
  | some prev =>
    dsimp only [retireOf, Option.elim_some] at hcurrent
    unfold retireRow at hcurrent
    split at hcurrent
    · cases hcurrent
    · next hne =>
      have heq := hmem hcurrent
      rw [Option.toList_some, mem_singleton] at heq
      exact hne (congrArg DigitalContentRoute.key heq)

/-- The current routes of the others stay. -/
theorem currentOf_retire_of_ne (hnodup : routes.keys.Nodup) {digital_content_id other : ℕ}
    (h : ∀ route ∈ prev, route ∈ routes.visible ∧ route.digital_content_id = digital_content_id)
    (hne : other ≠ digital_content_id) :
    (retire prev routes).currentOf other = routes.currentOf other := by
  unfold Routes.currentOf
  rw [visible_retire]
  cases prev with
  | none => exact congrArg _ (map_id _)
  | some prev =>
    obtain ⟨hprev, hid⟩ := h prev rfl
    have hrow : ∀ route ∈ routes.visible,
        (isCurrentOf other (retireRow prev route) = isCurrentOf other route) ∧
          (isCurrentOf other route = true → retireRow prev route = route) := by
      intro route hroute
      unfold retireRow
      split
      · next hkey =>
        have heq := inj_on_of_nodup_map hnodup hroute hprev hkey
        have hnot : ∀ is_current,
            isCurrentOf other { route with is_current := is_current } = false := by
          intro is_current
          unfold isCurrentOf
          rw [heq, hid, decide_eq_false (Ne.symm hne), Bool.and_false]
        have hroute' : isCurrentOf other route = false := hnot route.is_current
        rw [hroute']
        exact ⟨rfl, fun htrue ↦ nomatch htrue⟩
      · exact ⟨rfl, fun _ ↦ rfl⟩
    change (routes.visible.map (retireRow prev)).filter _ = _
    rw [filter_map]
    have hfilter : routes.visible.filter (isCurrentOf other ∘ retireRow prev) =
        routes.visible.filter (isCurrentOf other) :=
      filter_congr fun route hroute ↦ (hrow route hroute).1
    have hmap : (routes.visible.filter (isCurrentOf other)).map (retireRow prev) =
        (routes.visible.filter (isCurrentOf other)).map id :=
      map_congr_left fun route hroute ↦
        (hrow route (mem_filter.mp hroute).1).2 (mem_filter.mp hroute).2
    rw [hfilter, hmap, map_id]

end Retire

/-- The current routes of a digital content fit its title: there is none without a title, and one
with the slug of the title else. -/
def RouteFits (functions : TextFunctions) (digital_content_id : ℕ) :
    Option Text → List DigitalContentRoute → Prop
  | none, routes => routes = []
  | some title, routes => ∃ route, routes = [route] ∧ route.title_slug =
      create_digital_content_slug functions (ofText title) digital_content_id 0

/-- What every event keeps: no two routes of an owner have one slug, a slug is its title slug with
its collision id, and the current routes fit the titles. -/
structure Invariant (functions : TextFunctions) (state : State) : Prop where
  unique : state.routes.keys.Nodup
  numbered : Numbered state.routes
  fits : ∀ digital_content_id, RouteFits functions digital_content_id
    (state.titles digital_content_id) (state.routes.currentOf digital_content_id)

/-- What every event keeps whatever the titles are: the slugs are distinct and numbered, and no
content has two current routes. -/
structure Sound (routes : Routes) : Prop where
  unique : routes.keys.Nodup
  numbered : Numbered routes
  current : ∀ digital_content_id, (routes.currentOf digital_content_id).length ≤ 1

/-- There is one current route at most, which the search finds. -/
theorem Sound.exists_currentOf (h : Sound routes) (digital_content_id : ℕ) :
    ∃ prev : Option DigitalContentRoute,
      routes.currentOf digital_content_id = prev.toList ∧
        findRoute routes (isCurrentOf digital_content_id) = .ok prev := by
  refine ⟨(routes.currentOf digital_content_id).head?, ?_,
    findRoute_eq (h.current digital_content_id)⟩
  match routes.currentOf digital_content_id, h.current digital_content_id with
  | [], _ => rfl
  | [route], _ => rfl
  | first :: second :: rest, hlength =>
    rw [length_cons, length_cons] at hlength
    omega

section Event

variable {functions : TextFunctions} {state : State}

theorem Invariant.sound (h : Invariant functions state) : Sound state.routes := by
  refine ⟨h.unique, h.numbered, fun digital_content_id ↦ ?_⟩
  have hfits := h.fits digital_content_id
  cases htitle : state.titles digital_content_id with
  | none =>
    rw [htitle] at hfits
    rw [show state.routes.currentOf digital_content_id = [] from hfits]
    exact Nat.zero_le 1
  | some title =>
    rw [htitle] at hfits
    obtain ⟨route, hroute, -⟩ := hfits
    rw [hroute]
    exact Nat.le_refl 1

variable {routes : Routes} {route : DigitalContentRoute} {prev : Option DigitalContentRoute}

/-- A title is set: its own current route has its slug, and those of the others stay. -/
theorem fits_update {titles : ℕ → Option Text} {routes' : Routes}
    (h : ∀ other, RouteFits functions other (titles other) (routes.currentOf other))
    {digital_content_id : ℕ} {title : PyString}
    (hroute : routes'.currentOf digital_content_id = [route])
    (hslug : route.title_slug = create_digital_content_slug functions title digital_content_id 0)
    (hothers : ∀ other, other ≠ digital_content_id →
      routes'.currentOf other = routes.currentOf other) (other : ℕ) :
    RouteFits functions other
      (update titles digital_content_id (some (stored title)) other)
      (routes'.currentOf other) := by
  by_cases hid : other = digital_content_id
  · subst hid
    rw [update_self]
    exact ⟨route, hroute, hslug.trans (slug_stored title other 0).symm⟩
  · rw [update_of_ne hid, hothers other hid]
    exact h other

/-- The title of a content whose route has the slug of the new title already can be set. -/
theorem Invariant.set_title (h : Invariant functions state) {digital_content_id : ℕ}
    {title : PyString} (hroute : state.routes.currentOf digital_content_id = [route])
    (hslug : route.title_slug = create_digital_content_slug functions title digital_content_id 0) :
    Invariant functions
      ⟨update state.titles digital_content_id (some (stored title)), state.routes⟩ :=
  ⟨h.unique, h.numbered, fits_update h.fits hroute hslug fun _ _ ↦ rfl⟩

variable {record : Record} {title : PyString}

/-- The slug of a new route is that of its collision id. -/
theorem newRoute_slug (collision_id : ℕ) :
    (newRoute functions record title (slugAt functions record title 0) collision_id).slug =
      slugAt functions record title collision_id :=
  stored_ofText (null_not_mem_slug title _ _)

theorem newRoute_title_slug (collision_id : ℕ) :
    (newRoute functions record title (slugAt functions record title 0) collision_id).title_slug =
      slugAt functions record title 0 :=
  stored_ofText (null_not_mem_slug title _ _)

theorem visible_add (routes : Routes) (route : DigitalContentRoute) :
    (routes.add route).visible = routes.visible ++ [route] :=
  (append_assoc ..).symm

theorem currentOf_add_self (routes : Routes) (hcurrent : route.is_current = true) :
    (routes.add route).currentOf route.digital_content_id =
      routes.currentOf route.digital_content_id ++ [route] := by
  unfold Routes.currentOf
  rw [visible_add, filter_append]
  congr 1
  apply filter_cons_of_pos
  unfold isCurrentOf
  rw [hcurrent, decide_eq_true rfl]
  rfl

theorem currentOf_add_of_ne (routes : Routes) {other : ℕ} (hne : other ≠ route.digital_content_id) :
    (routes.add route).currentOf other = routes.currentOf other := by
  unfold Routes.currentOf
  rw [visible_add, filter_append, filter_cons_of_neg, filter_nil, append_nil]
  unfold isCurrentOf
  rw [decide_eq_false (Ne.symm hne), Bool.and_false]
  exact Bool.false_ne_true

/-- A new route takes the place of the current one, and those of the others stay. -/
theorem currentOf_replace (hunique : routes.keys.Nodup)
    (hprev : routes.currentOf route.digital_content_id = prev.toList)
    (hcurrent : route.is_current = true) (other : ℕ) :
    ((retire prev routes).add route).currentOf other =
      if other = route.digital_content_id then [route] else routes.currentOf other := by
  have hmine : ∀ old ∈ prev, old ∈ routes.visible ∧
      old.digital_content_id = route.digital_content_id := by
    intro old hold
    have hmem : old ∈ routes.currentOf route.digital_content_id := by
      rw [hprev]
      exact Option.mem_toList.mpr hold
    obtain ⟨hvisible, htrue⟩ := mem_filter.mp hmem
    exact ⟨hvisible, of_decide_eq_true (Bool.and_eq_true_iff.mp htrue).2⟩
  split
  · next hother =>
    rw [hother, currentOf_add_self _ hcurrent, currentOf_retire_self hprev, nil_append]
  · next hother =>
    rw [currentOf_add_of_ne _ hother]
    exact currentOf_retire_of_ne hunique hmine hother

/-- A new route with a free slug keeps what every event keeps. -/
theorem Sound.add_route (h : Sound routes)
    (hprev : routes.currentOf record.digital_content_id = prev.toList) {collision_id : ℕ}
    (hfree : (record.owner_id, slugAt functions record title collision_id) ∉ routes.keys) :
    Sound ((retire prev routes).add
      (newRoute functions record title (slugAt functions record title 0) collision_id)) := by
  constructor
  · unfold Routes.keys
    rw [visible_add, map_append]
    change ((retire prev routes).keys ++ [_]).Nodup
    rw [keys_retire, ← concat_eq_append, nodup_concat]
    refine ⟨?_, h.unique⟩
    rw [DigitalContentRoute.key, newRoute_slug]
    exact hfree
  · intro route hroute
    rw [visible_add] at hroute
    rcases mem_append.mp hroute with hold | hnew
    · exact numbered_retire h.numbered route hold
    · rw [mem_singleton.mp hnew, newRoute_slug, newRoute_title_slug]
      exact slug_eq_numbered title _ _
  · intro other
    rw [currentOf_replace h.unique hprev rfl other]
    split
    · exact Nat.le_refl 1
    · exact h.current other

variable (functions record title) in
/-- The update of the routes does not fail, whatever the title of the record. -/
theorem Sound.update_routes (h : Sound routes) :
    ∃ routes', update_digital_content_routes_table functions record title routes = .ok routes' ∧
      Sound routes' := by
  obtain ⟨prev, hprev, hfind⟩ := h.exists_currentOf record.digital_content_id
  unfold update_digital_content_routes_table
  by_cases hsame : record.title.map ofText = some title
  · rw [if_pos hsame]
    exact ⟨routes, rfl, h⟩
  · rw [if_neg hsame]
    rw [hfind]
    dsimp only
    split
    · exact ⟨routes, rfl, h⟩
    · have hunique : (retire prev routes).keys.Nodup := by
        rw [keys_retire]
        exact h.unique
      obtain ⟨collision_id, hnew, hfree⟩ := exists_new_collision_id functions record title hunique
        (numbered_retire h.numbered)
      rw [keys_retire] at hfree
      rw [show create_digital_content_slug functions title record.digital_content_id 0 =
        slugAt functions record title 0 from rfl, hnew]
      exact ⟨_, rfl, h.add_route hprev hfree⟩

/-- A new route with a free slug takes the place of the current one. -/
theorem Invariant.add_route (h : Invariant functions state)
    (hprev : state.routes.currentOf record.digital_content_id = prev.toList) {collision_id : ℕ}
    (hfree : (record.owner_id, slugAt functions record title collision_id) ∉ state.routes.keys) :
    Invariant functions
      ⟨update state.titles record.digital_content_id (some (stored title)),
        (retire prev state.routes).add
          (newRoute functions record title (slugAt functions record title 0) collision_id)⟩ := by
  have hsound := h.sound.add_route hprev hfree
  have hcurrent := currentOf_replace h.unique hprev
    (show (newRoute functions record title (slugAt functions record title 0)
      collision_id).is_current = true from rfl)
  refine ⟨hsound.unique, hsound.numbered, ?_⟩
  refine fits_update h.fits ?_ (newRoute_title_slug collision_id) fun other hne ↦ ?_
  · rw [hcurrent]
    exact if_pos rfl
  · rw [hcurrent]
    exact if_neg hne

/-- The update of the routes does not fail, and the title can be set after it. -/
theorem Invariant.update_routes (h : Invariant functions state) (record : Record) (title : PyString)
    (htitle : record.title = state.titles record.digital_content_id) :
    ∃ routes,
      update_digital_content_routes_table functions record title state.routes = .ok routes ∧
        Invariant functions
          ⟨update state.titles record.digital_content_id (some (stored title)),
            routes⟩ := by
  obtain ⟨prev, hprev, hfind⟩ := h.sound.exists_currentOf record.digital_content_id
  unfold update_digital_content_routes_table
  by_cases hsame : record.title.map ofText = some title
  · rw [if_pos hsame]
    obtain ⟨old, hold, rfl⟩ := Option.map_eq_some_iff.mp hsame
    have hfits := h.fits record.digital_content_id
    rw [← htitle, hold] at hfits
    obtain ⟨route, hroute, hslug⟩ := hfits
    exact ⟨_, rfl, h.set_title hroute hslug⟩
  · rw [if_neg hsame]
    rw [hfind]
    dsimp only
    by_cases hkept : (prev.any fun route ↦ decide (route.title_slug = create_digital_content_slug
        functions title record.digital_content_id 0)) = true
    · rw [if_pos hkept]
      cases prev with
      | none => cases hkept
      | some route => exact ⟨_, rfl, h.set_title hprev (of_decide_eq_true hkept)⟩
    · rw [if_neg hkept]
      have hunique : (retire prev state.routes).keys.Nodup := by
        rw [keys_retire]
        exact h.unique
      obtain ⟨collision_id, hnew, hfree⟩ := exists_new_collision_id functions record title hunique
        (numbered_retire h.numbered)
      rw [keys_retire] at hfree
      rw [show create_digital_content_slug functions title record.digital_content_id 0 =
        slugAt functions record title 0 from rfl, hnew]
      exact ⟨_, rfl, h.add_route hprev hfree⟩

/-- The end of a block changes no visible route. -/
theorem Invariant.committed (h : Invariant functions state) :
    Invariant functions state.committed := by
  have hvisible : state.committed.routes.visible = state.routes.visible := append_nil _
  constructor
  · unfold Routes.keys
    rw [hvisible]
    exact h.unique
  · unfold Numbered
    rw [hvisible]
    exact h.numbered
  · intro digital_content_id
    unfold Routes.currentOf
    rw [hvisible]
    exact h.fits digital_content_id

end Event

/-! ### Runs -/

/-- No owner has a slug twice, and each titled content has one current route, of which the title
slug is the slug of the title, and the slug is the title slug, or the title slug, a dash and the
collision id. -/
structure Distinct (functions : TextFunctions) (state : State) : Prop where
  unique : (state.routes.visible.map fun route ↦ (route.owner_id, route.slug)).Nodup
  current : ∀ digital_content_id title, state.titles digital_content_id = some title →
    ∃ route,
      (state.routes.visible.filter fun route ↦
          route.is_current && decide (route.digital_content_id = digital_content_id)) = [route] ∧
        route.title_slug =
            create_digital_content_slug functions (ofText title) digital_content_id 0 ∧
          (route.slug = route.title_slug ∨
            route.slug = route.title_slug ++ '-' :: Nat.toDigits 10 route.collision_id)

theorem Invariant.distinct {functions : TextFunctions} {state : State}
    (h : Invariant functions state) : Distinct functions state := by
  refine ⟨h.unique, fun digital_content_id title htitle ↦ ?_⟩
  have hfits := h.fits digital_content_id
  rw [htitle] at hfits
  obtain ⟨route, hroute, hslug⟩ := hfits
  refine ⟨route, hroute, hslug, ?_⟩
  have hmem : route ∈ state.routes.currentOf digital_content_id := by
    rw [hroute]
    exact mem_singleton_self route
  have hnumbered := h.numbered route (mem_filter.mp hmem).1
  rcases Nat.eq_zero_or_pos route.collision_id with hzero | hpos
  · rw [hzero, Lib.numbered_zero] at hnumbered
    exact .inl hnumbered
  · rw [Lib.numbered_of_pos _ hpos] at hnumbered
    exact .inr hnumbered

/-- Only the null character has it as its lower case. -/
theorem toLower_eq_null {c : Char} (h : c.toLower = '\x00') : c = '\x00' := by
  unfold Char.toLower at h
  split at h
  · next hupper =>
    have hval : c.val + 32 = 0 := congrArg Char.val h
    have hge : (65 : UInt32) ≤ c.val := hupper.1
    have hle : c.val ≤ (90 : UInt32) := hupper.2
    rw [UInt32.le_iff_toNat_le] at hge hle
    have hsum := congrArg UInt32.toNat hval
    rw [UInt32.toNat_add] at hsum
    simp only [UInt32.reduceToNat] at hge hle hsum
    omega
  · exact h

/-- The functions on ASCII texts, with a simple code for an id. -/
def asciiFunctions : TextFunctions where
  lower text := text.map Char.toLower
  isspace := Char.isWhitespace
  isdigit := Char.isDigit
  encode_int_id id := 'i' :: Nat.toDigits 10 id
  isdigit_of_isDigit _ h := h
  null_not_mem_lower text h := by
    intro hmem
    obtain ⟨c, hc, hlower⟩ := List.mem_map.mp hmem
    rw [toLower_eq_null hlower] at hc
    exact h hc
  encode_int_id_ne_nil id := List.cons_ne_nil _ _
  null_not_mem_encode_int_id id := by
    intro hmem
    rcases List.mem_cons.mp hmem with hhead | hdigit
    · exact absurd hhead (by decide)
    · exact absurd (Nat.isDigit_of_mem_toDigits (by decide) (Nat.le_refl 10) hdigit) (by decide)

/-- Three contents of one owner: the number that the second "A" would have is taken already. -/
example :
    ((run asciiFunctions [⟨"0x01", 1, [⟨1, 7, ofText "A".toList, "0x"⟩,
        ⟨2, 7, ofText "A 1".toList, "0x"⟩, ⟨3, 7, ofText "A".toList, "0x"⟩]⟩]).toOption.map
          fun state ↦ state.routes.visible.map fun route ↦ String.ofList route.slug) =
      some ["a", "a-1", "a-2"] := by
  decide +kernel

end ContentRoutes

end ColivingSpec.Discovery
