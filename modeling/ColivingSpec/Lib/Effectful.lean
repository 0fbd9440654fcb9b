import Mathlib.Tactic.Common

/-!
# Computations whose effects stay

A computation on a state that returns or fails. A failure leaves the effects that came before it,
and a handler goes on from there. `Keeps` and `Ensures` are the rules for what any end of a
computation leaves and for what one that returns has established.
-/

namespace ColivingSpec.Lib

/-- A computation that may fail with a message. -/
abbrev Effectful (σ α : Type) := ExceptT String (StateM σ) α

/-- How an operation on another system ends: with its effect, or with an error that comes before or
after the effect. -/
inductive Outcome where
  | done
  | failed (effect : Bool)
deriving DecidableEq

namespace Effectful

variable {σ α β : Type}

/-- What a computation returns from a state, and the state that it leaves. -/
def runOn (m : Effectful σ α) (s : σ) : Except String α × σ := StateT.run (ExceptT.run m) s

/-- An operation with the effect on the state. -/
def operate (outcome : Outcome) (error : String) (effect : σ → σ) : Effectful σ Unit :=
  match outcome with
  | .done => modify effect
  | .failed true => do
    modify effect
    throw error
  | .failed false => throw error

variable (s : σ) (error : String) {m : Effectful σ α} {handler : String → Effectful σ α}

/-- The continuation runs from the state that the head leaves, if the head returns. -/
theorem runOn_bind (m : Effectful σ α) (f : α → Effectful σ β) (s : σ) :
    runOn (m >>= f) s = match runOn m s with
      | (.ok a, s') => runOn (f a) s'
      | (.error error, s') => (.error error, s') := by
  unfold runOn
  rw [ExceptT.run_bind, StateT.run_bind]
  cases StateT.run (ExceptT.run m) s with
  | mk result s' => cases result <;> rfl

/-- The handler runs from the state that the failure leaves. -/
theorem runOn_tryCatch (m : Effectful σ α) (handler : String → Effectful σ α) (s : σ) :
    runOn (tryCatch m handler) s = match runOn m s with
      | (.ok a, s') => (.ok a, s')
      | (.error error, s') => runOn (handler error) s' := by
  unfold runOn
  rw [ExceptT.run_tryCatch, StateT.run_bind]
  cases StateT.run (ExceptT.run m) s with
  | mk result s' => cases result <;> rfl

@[simp] theorem runOn_operate_done (effect : σ → σ) (s : σ) :
    runOn (operate .done error effect) s = (.ok (), effect s) := rfl

/-- An operation that fails has had its effect or none. -/
@[simp] theorem runOn_operate_failed (happens : Bool) (error : String) (effect : σ → σ) (s : σ) :
    runOn (operate (.failed happens) error effect) s =
      (.error error, if happens then effect s else s) := by
  cases happens <;> rfl

/-- However the computation ends, it leaves the invariant. -/
def Keeps (I : σ → Prop) (m : Effectful σ α) : Prop := ∀ s, I s → I (runOn m s).2

/-- From a state with `P`, the computation returns only with `Q`. -/
def Ensures (P : σ → Prop) (m : Effectful σ α) (Q : α → σ → Prop) : Prop :=
  ∀ s a s', P s → runOn m s = (.ok a, s') → Q a s'

variable {I P : σ → Prop} {Q : α → σ → Prop} {R : β → σ → Prop}

theorem Keeps.pure (a : α) : Keeps I (pure a) := fun _ hs ↦ hs

theorem Keeps.throw : Keeps I (throw error : Effectful σ α) := fun _ hs ↦ hs

theorem Keeps.get : Keeps I (get : Effectful σ σ) := fun _ hs ↦ hs

theorem Keeps.bind {f : α → Effectful σ β} (hm : Keeps I m) (hf : ∀ a, Keeps I (f a)) :
    Keeps I (m >>= f) := by
  intro s hs
  have hleft := hm s hs
  rw [runOn_bind]
  cases hrun : runOn m s with
  | mk result s' =>
    rw [hrun] at hleft
    cases result with
    | ok a => exact hf a s' hleft
    | error error => exact hleft

theorem Keeps.tryCatch (hm : Keeps I m) (hhandler : ∀ error, Keeps I (handler error)) :
    Keeps I (tryCatch m handler) := by
  intro s hs
  have hleft := hm s hs
  rw [runOn_tryCatch]
  cases hrun : runOn m s with
  | mk result s' =>
    rw [hrun] at hleft
    cases result with
    | ok a => exact hleft
    | error error => exact hhandler error s' hleft

theorem Keeps.operate {effect : σ → σ} (heffect : ∀ s, I s → I (effect s)) (outcome : Outcome)
    (error : String) : Keeps I (operate outcome error effect) := by
  intro s hs
  cases outcome with
  | done => exact heffect s hs
  | failed happens =>
    cases happens with
    | true => exact heffect s hs
    | false => exact hs

theorem Ensures.throw : Ensures P (throw error : Effectful σ α) Q := by
  intro s a s' _ hrun
  cases hrun

theorem Ensures.bind {f : α → Effectful σ β} (hm : Ensures P m Q) (hf : ∀ a, Ensures (Q a) (f a) R) :
    Ensures P (m >>= f) R := by
  intro s b s'' hs hrun
  rw [runOn_bind] at hrun
  cases hm' : runOn m s with
  | mk result s' =>
    rw [hm'] at hrun
    cases result with
    | ok a => exact hf a s' b s'' (hm s a s' hs hm') hrun
    | error error => cases hrun

/-- An operation that fails does not return. -/
theorem Ensures.operate_failed {Q : Unit → σ → Prop} (happens : Bool) (error : String)
    (effect : σ → σ) : Ensures P (operate (.failed happens) error effect) Q := by
  intro s a s' _ hrun
  rw [runOn_operate_failed] at hrun
  cases hrun

/-- An operation returns only with its effect. -/
theorem Ensures.operate {Q : Unit → σ → Prop} {effect : σ → σ}
    (heffect : ∀ s, P s → Q () (effect s)) (outcome : Outcome) (error : String) :
    Ensures P (operate outcome error effect) Q := by
  cases outcome with
  | done =>
    intro s a s' hs hrun
    cases hrun
    exact heffect s hs
  | failed happens => exact Ensures.operate_failed happens error effect

/-- A computation that is tried establishes what it does itself or, if it fails, its handler. -/
theorem Ensures.tryCatch (hm : Ensures P m Q) (hkeeps : Keeps P m)
    (hhandler : ∀ s error s', runOn m s = (.error error, s') → Ensures P (handler error) Q) :
    Ensures P (tryCatch m handler) Q := by
  intro s a s'' hs hrun
  rw [runOn_tryCatch] at hrun
  have hleft := hkeeps s hs
  cases hm' : runOn m s with
  | mk result s' =>
    rw [hm'] at hrun hleft
    cases result with
    | ok b =>
      cases hrun
      exact hm s a s'' hs hm'
    | error error => exact hhandler s error s' hm' s' a s'' hleft hrun

/-- What a computation keeps it also has when it returns. -/
theorem Ensures.of_keeps (h : Keeps P m) : Ensures P m fun _ ↦ P := by
  intro s a s' hs hrun
  have hleft := h s hs
  rwa [hrun] at hleft

end Effectful

end ColivingSpec.Lib
