import ColivingSpec.Lib.Sorting
import Mathlib.Data.Prod.Lex
import Mathlib.Order.WithBot

/-!
# The order of services

`sortServiceTimings` (utils/network.ts) orders the services that answered a health check by version
and latency, and those that did not last. Latencies that are near each other are to be ordered at
random. Versions are those of `semver`, a parameter.
-/

namespace ColivingSpec

open Lib

namespace Services

/-- What a service answers (lines 87–88). -/
structure Response where
  version : Option String

/-- `Timing` (lines 31–35). -/
structure Timing where
  response : Option Response
  millis : Option ℚ

/-- The settings of `sortServiceTimings` (lines 61–71). -/
structure SortConfig where
  sortByVersion : Bool
  currentVersion : Option String
  equivalencyDelta : Option ℚ

/-- What `Math.random` may return. -/
structure Random where
  value : ℚ
  nonneg : 0 ≤ value
  lt_one : value < 1

instance : Nonempty Random := ⟨⟨0, le_refl 0, zero_lt_one⟩⟩

section

variable {V : Type} [LinearOrder V] (parse : String → Option V) (config : SortConfig)

/-- The version of a text; a text that is none is thrown for. -/
def parsed (version : Option String) : Except String V :=
  (version.bind parse).elim (.error "Invalid Version") .ok

variable (a b aVersion bVersion : Option String)

/-- `semver.gt`. -/
def gt : Except String Bool := do
  let a ← parsed parse a
  let b ← parsed parse b
  return b < a

/-- `semver.lt`. -/
def lt : Except String Bool := do
  let a ← parsed parse a
  let b ← parsed parse b
  return a < b

/-- The answer by descending versions (lines 92–93 and 100–101), if they differ. -/
def descending : Except String (Option ℚ) := do
  if ← gt parse aVersion bVersion then return some (-1)
  if ← lt parse aVersion bVersion then return some 1
  return none

/-- The answer by versions (lines 90–107), if they decide. -/
def compareVersions : Except String (Option ℚ) := do
  if config.sortByVersion then
    descending parse aVersion bVersion
  else
    match config.currentVersion.filter fun version ↦ version ≠ "" with
    | none => return none
    | some currentVersion =>
      let behindA := gt parse (some currentVersion) aVersion
      let behindB := gt parse (some currentVersion) bVersion
      let behindBoth ← (do if ← behindA then behindB else return false)
      if behindBoth then return ← descending parse aVersion bVersion
      else if ← behindA then return some 1
      else if ← behindB then return some (-1)
      return none

variable (a b : Timing)

variable (random : Random)

/-- The answer by latencies (lines 112–116). -/
def compareMillis : ℚ :=
  let delta := a.millis.getD 0 - b.millis.getD 0
  match config.equivalencyDelta with
  | some equivalencyDelta => if delta < equivalencyDelta then 1 - 2 * random.value else delta
  | none => delta

/-- The comparator of `sortServiceTimings` (lines 82–117). -/
def compareTimings : Except String ℚ :=
  match a.response, b.response with
  | none, _ => .ok 1
  | some _, none => .ok (-1)
  | some aResponse, some bResponse => do
    match ← compareVersions parse config aResponse.version bResponse.version with
    | some answer => return answer
    | none => return compareMillis config a b random

/-! ### What the order is to be -/

/-- Where a version stands: all versions that are not behind the current one stand together, and
without a version to compare with all do. -/
def rank (version : Option String) : Except String (WithBot V) := do
  if config.sortByVersion then
    return ((← parsed parse version : V) : WithBot V)
  else
    match config.currentVersion.filter fun version ↦ version ≠ "" with
    | none => return ⊥
    | some currentVersion =>
      return ((min (← parsed parse version) (← parsed parse (some currentVersion)) : V) : WithBot V)

/-- Two services of one rank. -/
def SameRank (a b : Response) : Prop :=
  ∃ v, rank parse config a.version = .ok v ∧ rank parse config b.version = .ok v

/-- The first service has a version that is preferred. -/
def Preferred (a b : Response) : Prop :=
  ∃ v w, rank parse config a.version = .ok v ∧ rank parse config b.version = .ok w ∧ w < v

/-- The latencies differ by less than the equivalency delta, or not at all. -/
def Near : Prop :=
  a.millis.getD 0 = b.millis.getD 0 ∨
    ∃ δ, config.equivalencyDelta = some δ ∧ |a.millis.getD 0 - b.millis.getD 0| < δ

/-- The first service is faster, by more than the equivalency delta if there is one. -/
def Faster : Prop :=
  a.millis.getD 0 < b.millis.getD 0 ∧
    ∀ δ, config.equivalencyDelta = some δ → δ < b.millis.getD 0 - a.millis.getD 0

/-- The first service is to be listed before the second one. -/
def Precedes : Prop :=
  ∃ response, a.response = some response ∧
    ∀ other, b.response = some other → Preferred parse config response other ∨
      SameRank parse config response other ∧ Faster config a b

/-- The two services may be listed in either order. -/
def Equivalent : Prop :=
  ∃ response other, a.response = some response ∧ b.response = some other ∧
    SameRank parse config response other ∧ Near config a b

/-- The comparator on the positions of a list. -/
def compareAt (timings : List Timing) (i j : Fin timings.length) : Random → Except String ℚ :=
  compareTimings parse config (timings.get i) (timings.get j)

/-- The comparator orders the list: it is a weak order that leaves only equivalent services
undecided, and no sort by it lists a service after one that it is to precede. -/
structure Orders (timings : List Timing) : Prop where
  weakOrder : WeakOrder (compareAt parse config timings)
  equivalent : ∀ i j, i ≠ j → Undecided (compareAt parse config timings) i j →
    Equivalent parse config (timings.get i) (timings.get j)
  lists : ∀ order, Arranges (compareAt parse config timings) order →
    (order.map timings.get).Pairwise fun a b ↦ ¬ Precedes parse config b a

/-- The comparator asked for the two services decides alike both ways: they did not both fail, their
versions can be compared if they are to be, and latencies that decide differ by less than the
equivalency delta, or by no more than a negative one. -/
def Fits : Prop :=
  match a.response, b.response with
  | none, none => False
  | some response, some other =>
    (∃ v, rank parse config response.version = .ok v) ∧
      (∃ w, rank parse config other.version = .ok w) ∧
      (SameRank parse config response other → ∀ δ, config.equivalencyDelta = some δ →
        |a.millis.getD 0 - b.millis.getD 0| < δ ∨ |a.millis.getD 0 - b.millis.getD 0| ≤ -δ)
  | _, _ => True

end

end Services

end ColivingSpec
