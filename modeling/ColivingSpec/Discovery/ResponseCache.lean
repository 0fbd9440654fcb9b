import ColivingSpec.Lib.Dict
import ColivingSpec.Lib.Joined
import Mathlib.Data.List.Sort

/-!
# The response cache

`redis_cache.py` caches what a view answers under a key made of the path of the request and of its
arguments. The arguments are lowered and joined by letters that may occur in them, and of the values
of an argument only the first is taken. A request shares its key with none that its view would read
otherwise only if it has no arguments; requests of plain arguments are told from each other.
-/

namespace ColivingSpec.Discovery

open List

namespace ResponseCache

open Lib.MultiDict (getlist items getlist_concat getlist_filter getlist_eq_of_perm items_filter
  items_of_nodup items_concat_of_mem)

/-- A text of a request. -/
abbrev Text := List Char

/-- `query_params.py:1–4`. -/
def appNameParam : Text := ['a', 'p', 'p', '_', 'n', 'a', 'm', 'e']

def excludeParamSet : List Text := [appNameParam]

/-- What is used of `str.lower`: the result is in lower case, and what stands before and after one
of the letters that join arguments is lowered by itself. -/
structure Lowering where
  lower : Text → Text
  lower_lower (text : Text) : lower (lower text) = lower text
  lower_append_and (before after : Text) :
    lower (before ++ '&' :: after) = lower before ++ '&' :: lower after
  lower_append_eq (before after : Text) :
    lower (before ++ '=' :: after) = lower before ++ '=' :: lower after
  lower_appName : lower ['A', 'P', 'P', '_', 'N', 'A', 'M', 'E'] = appNameParam

/-- The order of pairs of texts. -/
def ArgLe (x y : Text × Text) : Prop := x.1 < y.1 ∨ x.1 = y.1 ∧ ¬ y.2 < x.2

instance (x y : Text × Text) : Decidable (ArgLe x y) := by
  unfold ArgLe
  infer_instance

variable (l : Lowering)

variable (x : Text × Text)

/-- The text of one argument. -/
def argText : Text := l.lower x.1 ++ '=' :: l.lower x.2

/-- `query_params.py:8–11`. -/
def stringifyQueryParams (reqArgItems : List (Text × Text)) : Text :=
  let kept := reqArgItems.filter fun x ↦ decide (x.1 ∉ excludeParamSet)
  ['&'].intercalate ((kept.insertionSort ArgLe).map (argText l))

def internalApiCachePrefix : Text := "INTERNAL_API".toList

def cachePrefix : Text := "API_V1_ROUTE".toList

/-- `redis_cache.py:20–26`. -/
def extractKey (path : Text) (argItems : List (Text × Option Text))
    (cachePrefixOverride : Option Text) : Text :=
  let filteredArgItems := argItems.filterMap fun x ↦ x.2.map (x.1, ·)
  let reqArgs := stringifyQueryParams l filteredArgItems
  let keyPrefix := match cachePrefixOverride with
    | none => cachePrefix
    | some override => if override = [] then cachePrefix else override
  keyPrefix ++ ':' :: (path ++ ':' :: reqArgs)

/-- A request to a route that is decorated with the cache. `internal` says that the decorator has
`cache_prefix_override=internal_api_cache_prefix`, the only override there is. -/
structure Request where
  internal : Bool
  path : Text
  args : List (Text × Text)
  deriving DecidableEq

namespace Request

variable (l : Lowering)

variable (r : Request)

/-- The key of a request: `redis_cache.py:141`. -/
def key : Text :=
  extractKey l r.path ((items r.args).map fun x ↦ (x.1, some x.2))
    (if r.internal then some internalApiCachePrefix else none)

/-- The arguments that a view reads: no view reads the name of the app. -/
def readArgs : List (Text × Text) :=
  r.args.filter fun x ↦ decide (x.1 ∉ excludeParamSet)

/-- A view reads the same path and the same values from both requests. -/
def ReadsSame (r' : Request) : Prop :=
  r.path = r'.path ∧ ∀ name ∉ excludeParamSet, getlist name r.args = getlist name r'.args

/-- No request that has the key of this one is read otherwise. -/
def Separated : Prop :=
  ∀ r' : Request, r'.key l = r.key l → r'.ReadsSame r

/-- No colon of the path is followed by what reads as a lowered argument. -/
def PathApart : Prop :=
  ∀ before after, r.path = before ++ ':' :: after → '=' ∈ after →
    l.lower (after ++ [':']) ≠ after ++ [':']

end Request

/-- An argument that is read back from its text: in lower case, without the letters that join. -/
structure PlainArg (l : Lowering) (x : Text × Text) : Prop where
  name_lower : l.lower x.1 = x.1
  value_lower : l.lower x.2 = x.2
  name_and : '&' ∉ x.1
  name_eq : '=' ∉ x.1
  value_and : '&' ∉ x.2

theorem plainArg_iff :
    PlainArg l x ↔ l.lower x.1 = x.1 ∧ l.lower x.2 = x.2 ∧ '&' ∉ x.1 ∧ '=' ∉ x.1 ∧ '&' ∉ x.2 :=
  ⟨fun h ↦ ⟨h.name_lower, h.value_lower, h.name_and, h.name_eq, h.value_and⟩,
    fun ⟨hname, hvalue, hand, heq, hand'⟩ ↦ ⟨hname, hvalue, hand, heq, hand'⟩⟩

instance (l : Lowering) (x : Text × Text) : Decidable (PlainArg l x) :=
  decidable_of_iff _ (plainArg_iff l x).symm

/-- A request of plain arguments, each with one value, and a path without colons. -/
structure Request.Plain (l : Lowering) (r : Request) : Prop where
  path : ':' ∉ r.path
  single : (r.readArgs.map Prod.fst).Nodup
  args : ∀ x ∈ r.readArgs, PlainArg l x

variable {l : Lowering}

/-- The texts of arguments, in their order, joined. -/
def argsText (l : Lowering) (args : List (Text × Text)) : Text :=
  ['&'].intercalate (args.map (argText l))

variable {args : List (Text × Text)} {x : Text × Text} {r : Request}

theorem eq_mem_argsText (h : args ≠ []) : '=' ∈ argsText l args := by
  match args with
  | [] => exact absurd rfl h
  | [x] => simp [argsText, argText]
  | x :: y :: rest => simp [argsText, argText]

/-- The texts of arguments are in lower case. -/
theorem lower_argsText (h : args ≠ []) :
    l.lower (argsText l args) = argsText l args := by
  have hone : ∀ x, l.lower (argText l x) = argText l x := by
    intro x
    rw [argText, l.lower_append_eq, l.lower_lower, l.lower_lower]
  induction args with
  | nil => exact absurd rfl h
  | cons x rest ih =>
    cases rest with
    | nil =>
      rw [argsText, map_cons, map_nil, intercalate_singleton]
      exact hone x
    | cons y rest =>
      have htext : argsText l (x :: y :: rest) = argText l x ++ '&' :: argsText l (y :: rest) := by
        rw [argsText, map_cons, map_cons, intercalate_cons_cons, append_assoc]
        rfl
      rw [htext, l.lower_append_and, hone, ih (cons_ne_nil _ _)]

theorem PlainArg.argText_eq (h : PlainArg l x) :
    argText l x = x.1 ++ '=' :: x.2 := by
  rw [argText, h.name_lower, h.value_lower]

theorem PlainArg.and_not_mem (h : PlainArg l x) : '&' ∉ argText l x := by
  rw [h.argText_eq, mem_append, mem_cons]
  rintro (hname | heq | hvalue)
  · exact h.name_and hname
  · exact absurd heq (by decide)
  · exact h.value_and hvalue

theorem PlainArg.eq_of_argText_eq {x' : Text × Text} (h : PlainArg l x) (h' : PlainArg l x')
    (heq : argText l x = argText l x') : x = x' := by
  rw [h.argText_eq, h'.argText_eq] at heq
  obtain ⟨hname, hvalue⟩ := Lib.Joined.append_cons_inj h.name_eq h'.name_eq heq
  exact Prod.ext hname hvalue

private theorem eq_of_map_argText_eq {args' : List (Text × Text)} (h : ∀ x ∈ args, PlainArg l x)
    (h' : ∀ x ∈ args', PlainArg l x) (heq : args.map (argText l) = args'.map (argText l)) :
    args = args' := by
  induction args generalizing args' with
  | nil => exact (map_eq_nil_iff.mp heq.symm).symm
  | cons x rest ih =>
    cases args' with
    | nil => cases heq
    | cons x' rest' =>
      obtain ⟨hx, hrest⟩ := cons.inj heq
      rw [(h x mem_cons_self).eq_of_argText_eq (h' x' mem_cons_self) hx,
        ih (fun y hy ↦ h y (mem_cons_of_mem x hy))
          (fun y hy ↦ h' y (mem_cons_of_mem x' hy)) hrest]

/-- Plain arguments are read back from their joined texts. -/
theorem eq_of_argsText_eq {args' : List (Text × Text)} (h : ∀ x ∈ args, PlainArg l x)
    (h' : ∀ x ∈ args', PlainArg l x) (heq : argsText l args = argsText l args') :
    args = args' := by
  by_cases hnil : args = []
  · by_contra hne
    rw [hnil] at heq hne
    have hmem : '=' ∈ argsText l args' := eq_mem_argsText (Ne.symm hne)
    rw [← heq] at hmem
    cases hmem
  · have hnil' : args' ≠ [] := by
      rintro rfl
      have hmem : '=' ∈ argsText l args := eq_mem_argsText hnil
      rw [heq] at hmem
      cases hmem
    have hsplit : ∀ args : List (Text × Text), (∀ x ∈ args, PlainArg l x) → args ≠ [] →
        (argsText l args).splitOn '&' = args.map (argText l) := by
      intro args hargs hne
      apply splitOn_intercalate
      · intro text htext
        obtain ⟨x, hx, rfl⟩ := mem_map.mp htext
        exact (hargs x hx).and_not_mem
      · exact fun hmap ↦ hne (map_eq_nil_iff.mp hmap)
    apply eq_of_map_argText_eq h h'
    rw [← hsplit args h hnil, heq, hsplit args' h' hnil']

namespace Request

/-- The part of the key that the decorator of the route decides. -/
def keyPrefix (r : Request) : Text := if r.internal then internalApiCachePrefix else cachePrefix

/-- The arguments of the key, in the order in which they are joined. -/
def keyArgs (r : Request) : List (Text × Text) := (items r.readArgs).insertionSort ArgLe

theorem key_eq (r : Request) :
    r.key l = r.keyPrefix ++ ':' :: (r.path ++ ':' :: argsText l r.keyArgs) := by
  have hitems : ((items r.args).map fun x ↦ (x.1, some x.2)).filterMap
      (fun x ↦ x.2.map (x.1, ·)) = items r.args := by
    rw [filterMap_map]
    exact filterMap_some
  have hkept : (items r.args).filter (fun x ↦ decide (x.1 ∉ excludeParamSet)) =
      items r.readArgs := (items_filter (fun name ↦ decide (name ∉ excludeParamSet)) r.args).symm
  unfold key extractKey stringifyQueryParams
  simp only [hitems, hkept]
  unfold keyPrefix
  cases r.internal <;> rfl

variable {r : Request}

/-- The two prefixes are told apart, so equal keys agree in what follows them. -/
theorem rest_eq_of_key_eq {r' : Request} (h : r.key l = r'.key l) :
    r.path ++ ':' :: argsText l r.keyArgs = r'.path ++ ':' :: argsText l r'.keyArgs := by
  rw [key_eq, key_eq] at h
  have hcolon : ∀ r : Request, ':' ∉ r.keyPrefix := by
    intro r
    unfold keyPrefix
    cases r.internal <;> decide
  exact (Lib.Joined.append_cons_inj (hcolon r) (hcolon r') h).2

theorem keyArgs_eq_nil_iff (r : Request) : r.keyArgs = [] ↔ r.readArgs = [] := by
  constructor
  · intro h
    have hperm := perm_insertionSort ArgLe (items r.readArgs)
    have hitems : items r.readArgs = [] := (nil_perm.mp (h ▸ hperm))
    cases hargs : r.readArgs with
    | nil => rfl
    | cons x rest =>
      rw [hargs] at hitems
      cases hitems
  · intro h
    rw [keyArgs, h]
    rfl

theorem getlist_readArgs (r : Request) {name : Text} (h : name ∉ excludeParamSet) :
    getlist name r.readArgs = getlist name r.args :=
  getlist_filter (p := fun name ↦ decide (name ∉ excludeParamSet)) (decide_eq_true h) r.args

/-- A further value of an argument does not change the key. -/
theorem key_concat (r : Request) {name : Text} (value : Text) (h : name ∈ r.args.map Prod.fst) :
    ({ r with args := r.args ++ [(name, value)] } : Request).key l = r.key l := by
  show extractKey l r.path ((items (r.args ++ [(name, value)])).map _) _ = _
  rw [items_concat_of_mem value h]
  rfl

/-- A request with an argument shares its key with one that has a further value of it. -/
theorem Separated.readArgs_eq_nil (h : r.Separated l) : r.readArgs = [] := by
  cases hargs : r.readArgs with
  | nil => rfl
  | cons x rest =>
    have hx : x ∈ r.readArgs := hargs ▸ mem_cons_self
    obtain ⟨hmem, hread⟩ := mem_filter.mp hx
    have hsame := h _ (key_concat r [] (mem_map.mpr ⟨x, hmem, rfl⟩))
    have hvalues : getlist x.1 (r.args ++ [(x.1, [])]) = getlist x.1 r.args :=
      hsame.2 x.1 (of_decide_eq_true hread)
    rw [getlist_concat] at hvalues
    have hlength := congrArg length hvalues
    rw [length_append, length_singleton] at hlength
    omega

/-- Each name but that of the app, and each lowered name, is that of an argument that is read. -/
private theorem exists_read_name (name : Text) :
    ∃ name', l.lower name' = l.lower name ∧ name' ∉ excludeParamSet := by
  by_cases hname : name = appNameParam
  · refine ⟨['A', 'P', 'P', '_', 'N', 'A', 'M', 'E'], ?_, by decide⟩
    rw [hname, ← l.lower_appName, l.lower_lower]
  · exact ⟨name, rfl, fun hmem ↦ hname (mem_singleton.mp hmem)⟩

/-- What follows a colon of the path can be an argument of another request. -/
theorem Separated.pathApart (h : r.Separated l) : r.PathApart l := by
  intro before after hpath heq hlower
  obtain ⟨name, value, rfl⟩ := append_of_mem heq
  obtain ⟨name', hname, hread⟩ := @exists_read_name l name
  have hargs : (⟨r.internal, before, [(name', value ++ [':'])]⟩ : Request).keyArgs =
      [(name', value ++ [':'])] := by
    unfold keyArgs readArgs
    rw [filter_cons, if_pos (decide_eq_true hread)]
    rfl
  have htext : argsText l [(name', value ++ [':'])] = name ++ '=' :: (value ++ [':']) := by
    rw [argsText, map_cons, map_nil, intercalate_singleton, argText, hname, ← l.lower_append_eq]
    rw [append_assoc, cons_append] at hlower
    exact hlower
  have hnil : r.keyArgs = [] := (keyArgs_eq_nil_iff r).mpr h.readArgs_eq_nil
  have hkey : (⟨r.internal, before, [(name', value ++ [':'])]⟩ : Request).key l = r.key l := by
    rw [key_eq, key_eq, hargs, htext, hnil, hpath]
    simp [keyPrefix, argsText]
  have hsame : before = r.path := (h _ hkey).1
  have hlength := congrArg length (hsame.trans hpath)
  rw [length_append, length_cons] at hlength
  omega

/-- Without arguments only another reading of the path could have the key. -/
theorem separated_of_pathApart (hargs : r.readArgs = []) (hpath : r.PathApart l) :
    r.Separated l := by
  intro r' hkey
  have hrest := rest_eq_of_key_eq hkey
  rw [(keyArgs_eq_nil_iff r).mpr hargs] at hrest
  by_cases hnil : r'.keyArgs = []
  · rw [hnil] at hrest
    refine ⟨append_cancel_right hrest, ?_⟩
    intro name hname
    rw [← getlist_readArgs r' hname, ← getlist_readArgs r hname, hargs,
      (keyArgs_eq_nil_iff r').mp hnil]
  · exfalso
    have hmem := eq_mem_argsText (l := l) hnil
    rcases append_eq_append_iff.mp hrest with ⟨gap, hgap, hafter⟩ | ⟨gap, -, hafter⟩
    · cases gap with
      | nil =>
        have htext := (cons.inj hafter).2
        rw [htext] at hmem
        cases hmem
      | cons c gap =>
        -- the path of the other request ends where a colon of this path stands
        obtain ⟨hc, htext⟩ := cons.inj hafter
        have htext' : argsText l r'.keyArgs = gap ++ [':'] := htext
        have heq : '=' ∈ gap := by
          rw [htext'] at hmem
          rcases mem_append.mp hmem with hin | hlast
          · exact hin
          · exact absurd (mem_singleton.mp hlast) (by decide)
        apply hpath r'.path gap (hc ▸ hgap) heq
        rw [← htext', lower_argsText hnil]
    · have hlength := congrArg length hafter
      have hpos := length_pos_of_mem hmem
      simp only [argsText, map_nil, intercalate_nil, length_append,
        length_cons, length_nil] at hlength hpos
      omega

theorem Plain.perm (h : r.Plain l) : r.keyArgs.Perm r.readArgs := by
  unfold keyArgs
  rw [items_of_nodup h.single]
  exact perm_insertionSort ArgLe r.readArgs

/-- Plain requests with one key are read alike. -/
theorem Plain.readsSame {r' : Request} (h : r.Plain l) (h' : r'.Plain l) (hkey : r.key l = r'.key l) :
    r.ReadsSame r' := by
  obtain ⟨hpath, htext⟩ := Lib.Joined.append_cons_inj h.path h'.path (rest_eq_of_key_eq hkey)
  have hargs : r.keyArgs = r'.keyArgs :=
    eq_of_argsText_eq (fun x hx ↦ h.args x (h.perm.mem_iff.mp hx))
      (fun x hx ↦ h'.args x (h'.perm.mem_iff.mp hx)) htext
  have hperm : r.readArgs.Perm r'.readArgs := h.perm.symm.trans (hargs ▸ h'.perm)
  refine ⟨hpath, ?_⟩
  intro name hname
  rw [← getlist_readArgs r hname, ← getlist_readArgs r' hname]
  exact getlist_eq_of_perm hperm h.single name

end Request

private theorem toLower_toLower (c : Char) : c.toLower.toLower = c.toLower := by
  delta Char.toLower
  split
  · next hupper =>
    split
    · next hupper' =>
      exfalso
      simp at hupper hupper'
      grind
    · rfl
  · rfl

/-- `str.lower` of ASCII texts. -/
def asciiLower : Lowering where
  lower := List.map Char.toLower
  lower_lower text := by
    rw [List.map_map]
    exact List.map_congr_left fun c _ ↦ toLower_toLower c
  lower_append_and before after := by
    rw [List.map_append, List.map_cons]
    rfl
  lower_append_eq before after := by
    rw [List.map_append, List.map_cons]
    rfl
  lower_appName := by decide

end ResponseCache

open ResponseCache in
/-- No other request has the key of a request and is read otherwise exactly if the request has no
arguments and no colon of its path is followed by what reads as one; and of two plain requests with
one key both are read alike. -/
theorem responseCache_separates (l : Lowering) :
    (∀ r : Request, r.Separated l ↔ r.readArgs = [] ∧ r.PathApart l) ∧
      ∀ r r' : Request, r.Plain l → r'.Plain l → r.key l = r'.key l → r.ReadsSame r' := by
  refine ⟨fun r ↦ ⟨?_, ?_⟩, fun r r' h h' ↦ h.readsSame h'⟩
  · exact fun h ↦ ⟨h.readArgs_eq_nil, h.pathApart⟩
  · exact fun h ↦ Request.separated_of_pathApart h.1 h.2

open ResponseCache in
/-- Two requests for the first page of a list, with their arguments in different order, and one
without arguments. -/
theorem responseCache_separates_page :
    (⟨false, ['/', 'v', '1'], []⟩ : Request).Separated asciiLower ∧
      (⟨false, ['/', 'v', '1'], [(['l'], ['5']), (['o'], ['0'])]⟩ : Request).ReadsSame
        ⟨false, ['/', 'v', '1'], [(['o'], ['0']), (appNameParam, ['x']), (['l'], ['5'])]⟩ := by
  refine ⟨((responseCache_separates asciiLower).1 _).mpr ⟨rfl, ?_⟩,
    (responseCache_separates asciiLower).2 _ _ ⟨by decide, by decide, by decide⟩
      ⟨by decide, by decide, by decide⟩ (by decide +kernel)⟩
  intro before after hpath _
  have hcolon : ':' ∈ before ++ ':' :: after := List.mem_append_right before List.mem_cons_self
  rw [← hpath] at hcolon
  exact absurd hcolon (by decide)

open ResponseCache in
/-- A request for two contents. -/
def bothContents : Request :=
  ⟨false, "/v1/digitalContents".toList, [(['i', 'd'], "7eP5n".toList), (['i', 'd'], "ePaqz".toList)]⟩

open ResponseCache in
/-- A request for the first of them, written in small letters, which is another id. -/
def smallContent : Request :=
  ⟨false, "/v1/digitalContents".toList, [(['i', 'd'], "7ep5n".toList)]⟩

open ResponseCache in
/-- Both requests have one key, and are read differently. -/
theorem key_eq_not_readsSame :
    smallContent.key asciiLower = bothContents.key asciiLower ∧
      ¬ smallContent.ReadsSame bothContents := by
  refine ⟨by decide +kernel, ?_⟩
  rintro ⟨-, hvalues⟩
  exact absurd (hvalues ['i', 'd'] (by decide)) (by decide +kernel)

end ColivingSpec.Discovery
