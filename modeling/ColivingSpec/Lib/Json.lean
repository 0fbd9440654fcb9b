import ColivingSpec.Lib.Dict
import Mathlib.Data.Rat.Init
import Mathlib.Data.List.Infix

/-!
# JSON values

A JSON text as Python loads it. Of an object with a key twice the last value counts, so that its
dictionary has each key once. A boolean is an integer as well.
-/

namespace ColivingSpec.Lib

/-- A JSON value; a float is its value, if it is finite. -/
inductive Json where
  | null
  | bool (value : Bool)
  | int (value : ℤ)
  | float (value : Option ℚ)
  | str (value : String)
  | list (items : List Json)
  | object (members : List (String × Json))

namespace Json

/-- The dictionary that an object is loaded as. -/
def dict? : Json → Option (Dict String Json)
  | object members => some (members.foldl (fun d member ↦ d.set member.1 member.2) Dict.empty)
  | _ => none

/-- The value of an instance of `int`, which a boolean is. -/
def int? : Json → Option ℤ
  | int value => some value
  | bool value => some value.toNat
  | _ => none

/-- The value of an instance of `bool`. -/
def bool? : Json → Option Bool
  | bool value => some value
  | _ => none

/-- The value of an instance of `str`. -/
def str? : Json → Option String
  | str value => some value
  | _ => none

/-- Whether a value counts as true in a condition. -/
def truthy : Json → Bool
  | null => false
  | bool value => value
  | int value => decide (value ≠ 0)
  | float value => decide (value ≠ some 0)
  | str value => decide (value ≠ "")
  | list items => !items.isEmpty
  | object members => !members.isEmpty

/-- `value == True`, which also the number 1 is. -/
def eqTrue : Json → Bool
  | bool value => value
  | int value => decide (value = 1)
  | float value => decide (value = some 1)
  | _ => false

/-- Whether a value is absent, `None`. -/
def isNull : Json → Bool
  | null => true
  | _ => false

/-- `key in value`: a key of a dictionary, an item of a list, or a part of a string. -/
def contains (key : String) : Json → Except String Bool
  | str value => .ok (decide (key.toList <:+: value.toList))
  | list items => .ok (items.any fun item ↦ item.str? = some key)
  | object members => .ok (members.any fun member ↦ member.1 = key)
  | null | bool _ | int _ | float _ => .error "TypeError"

/-- `value[key]`, which only a dictionary answers. -/
def getItem (key : String) (value : Json) : Except String Json :=
  match value.dict? with
  | some entries =>
    match entries.get? key with
    | some item => .ok item
    | none => .error "KeyError"
  | none => .error "TypeError"

end Json

end ColivingSpec.Lib
