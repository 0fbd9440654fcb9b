import Mathlib.Tactic.Common

/-!
# Reverting computations and checked arithmetic

A call either returns a value or reverts with a reason. `Except String` is that
result type; this module has its guard, its bounded natural arithmetic, and for
each of them the equation saying when the rest of a computation is reached.
Every bound is a parameter.
-/

namespace ColivingSpec.Lib

/-- The computation returns, whatever it returns. -/
def Succeeds {ε α : Type} (x : Except ε α) : Prop := ∃ a, x = .ok a

/-- Continue when `p` holds, revert with `reason` otherwise. -/
def require (p : Prop) [Decidable p] (reason : String) : Except String Unit :=
  if p then .ok () else .error reason

/-- The value of a computation that is known to return. -/
def valueOf {ε α : Type} (x : Except ε α) (h : x.isOk = true) : α :=
  match x, h with
  | .ok a, _ => a

theorem eq_ok_valueOf {ε α : Type} (x : Except ε α) (h : x.isOk = true) :
    x = .ok (valueOf x h) := by
  cases x with
  | error e => simp [Except.isOk, Except.toBool] at h
  | ok a => rfl

/-- A computation that reverts returns nothing. -/
theorem not_succeeds {ε α : Type} {x : Except ε α} (h : x.isOk = false) : ¬ Succeeds x := by
  rintro ⟨a, rfl⟩
  cases h

namespace Checked

/-- Sum below `bound`. -/
def add (bound a b : ℕ) : Except String ℕ :=
  if a + b < bound then .ok (a + b) else .error "Panic(0x11)"

/-- Difference of naturals, without truncation. -/
def sub (a b : ℕ) : Except String ℕ :=
  if b ≤ a then .ok (a - b) else .error "Panic(0x11)"

/-- Product below `bound`. -/
def mul (bound a b : ℕ) : Except String ℕ :=
  if a * b < bound then .ok (a * b) else .error "Panic(0x11)"

/-- Floor division by a nonzero divisor. -/
def div (a b : ℕ) : Except String ℕ :=
  if b ≠ 0 then .ok (a / b) else .error "Panic(0x12)"

end Checked

section Inversion

variable {ε α β : Type} {f : α → Except ε β} {l : List α} {bs : List β} {x : Except ε α}

/-- A sequence returns exactly when its head does and the continuation does. -/
theorem bind_eq_ok {b : β} :
    (x >>= f) = .ok b ↔ ∃ a, x = .ok a ∧ f a = .ok b := by
  cases x with
  | error e => simp [bind, Except.bind]
  | ok a => simp [bind, Except.bind]

/-- A sequence returns when its head does and `p` holds, if that is when any continuation returns. -/
theorem succeeds_bind_iff {p : Prop} (h : ∀ a, Succeeds (f a) ↔ p) :
    Succeeds (x >>= f) ↔ Succeeds x ∧ p := by
  constructor
  · rintro ⟨b, hb⟩
    obtain ⟨a, ha, hf⟩ := bind_eq_ok.mp hb
    exact ⟨⟨a, ha⟩, (h a).mp ⟨b, hf⟩⟩
  · rintro ⟨⟨a, ha⟩, hp⟩
    obtain ⟨b, hb⟩ := (h a).mpr hp
    exact ⟨b, bind_eq_ok.mpr ⟨a, ha, hb⟩⟩

/-- A sequence reverts in its head or after it. -/
theorem bind_eq_error {e : ε} :
    (x >>= f) = .error e ↔ x = .error e ∨ ∃ a, x = .ok a ∧ f a = .error e := by
  cases x with
  | error e' => simp [bind, Except.bind]
  | ok a => simp [bind, Except.bind]

/-- The head of a sequence has already returned. -/
@[simp] theorem ok_bind (a : α) (f : α → Except ε β) : (Except.ok a >>= f) = f a := rfl

/-- A reverted head reverts the sequence. -/
@[simp] theorem error_bind (e : ε) (f : α → Except ε β) : (Except.error e >>= f) = .error e := rfl

/-- A pure result is the value itself. -/
@[simp] theorem pure_eq_ok {a b : α} : (pure a : Except ε α) = .ok b ↔ a = b := by
  simp [pure, Except.pure]

/-- Mapping returns exactly on a returned value. -/
theorem map_eq_ok {g : α → β} {b : β} :
    (g <$> x) = .ok b ↔ ∃ a, x = .ok a ∧ g a = b := by
  cases x with
  | error | ok => simp [Functor.map, Except.map]

/-- A list of computations returns exactly when each of them does. -/
theorem succeeds_mapM_iff (l : List α) :
    Succeeds (l.mapM f) ↔ ∀ a ∈ l, Succeeds (f a) := by
  induction l with
  | nil =>
    exact iff_of_true ⟨[], rfl⟩ (by simp)
  | cons a l ih =>
    rw [List.mapM_cons, List.forall_mem_cons, ← ih]
    apply succeeds_bind_iff
    intro b
    constructor
    · rintro ⟨bs, hbs⟩
      obtain ⟨bs', hl, -⟩ := bind_eq_ok.mp hbs
      exact ⟨bs', hl⟩
    · rintro ⟨bs, hbs⟩
      exact ⟨b :: bs, by rw [hbs]; rfl⟩

/-- What each result has of its argument, the results have of the arguments. -/
theorem map_of_mapM_eq_ok {γ : Type} {g : β → γ} {g' : α → γ} (hf : ∀ a b, f a = .ok b → g b = g' a)
    (h : l.mapM f = .ok bs) : bs.map g = l.map g' := by
  induction l generalizing bs with
  | nil =>
    rw [List.mapM_nil, pure_eq_ok] at h
    subst h
    rfl
  | cons a l ih =>
    rw [List.mapM_cons, bind_eq_ok] at h
    obtain ⟨b, hb, h⟩ := h
    obtain ⟨bs', hbs', h⟩ := bind_eq_ok.mp h
    rw [pure_eq_ok] at h
    subst h
    rw [List.map_cons, List.map_cons, ih hbs', hf a b hb]

/-- The results are those of the arguments, one for each. -/
theorem map_ok_of_mapM_eq_ok (h : l.mapM f = .ok bs) : bs.map Except.ok = l.map f :=
  map_of_mapM_eq_ok (fun _ _ hb ↦ hb.symm) h

theorem mem_iff_of_mapM_eq_ok (h : l.mapM f = .ok bs) (b : β) : b ∈ bs ↔ ∃ a ∈ l, f a = .ok b := by
  have hmem : Except.ok b ∈ bs.map (@Except.ok ε β) ↔ Except.ok b ∈ l.map f := by
    rw [map_ok_of_mapM_eq_ok h]
  simpa using hmem

theorem getElem?_of_mapM_eq_ok {i : ℕ} {a : α} (h : l.mapM f = .ok bs) (ha : l[i]? = some a) :
    ∃ b, bs[i]? = some b ∧ f a = .ok b := by
  have hget : (bs.map Except.ok)[i]? = (l.map f)[i]? := by rw [map_ok_of_mapM_eq_ok h]
  rw [List.getElem?_map, List.getElem?_map, ha, Option.map_some, Option.map_eq_some_iff] at hget
  obtain ⟨b, hb, heq⟩ := hget
  exact ⟨b, hb, heq.symm⟩

end Inversion

section Guards

variable {β : Type} (f : Unit → Except String β) (g : ℕ → Except String β)
variable (bound a b : ℕ) (r : β) (p : Prop) (reason : String)

/-- A guard passes exactly when its condition holds. -/
@[simp] theorem require_eq_ok [Decidable p] (u : Unit) :
    require p reason = .ok u ↔ p := by
  unfold require
  split <;> simp [*]

/-- A guarded continuation is reached exactly under the condition. -/
@[simp] theorem require_bind_eq_ok {f : Unit → Except String β} {r : β} {p : Prop}
    {reason : String} [Decidable p] :
    (require p reason >>= f) = .ok r ↔ p ∧ f () = .ok r := by
  unfold require
  split <;> simp [*]

/-- A guarded continuation reverts for the guard's reason or for its own. -/
theorem require_bind_eq_error [Decidable p] (e : String) :
    (require p reason >>= f) = .error e ↔ ¬ p ∧ reason = e ∨ p ∧ f () = .error e := by
  unfold require
  split <;> simp [*]

/-- A checked difference without underflow is no reason to revert. -/
theorem sub_bind_of_le (h : b ≤ a) : (Checked.sub a b >>= g) = g (a - b) := by
  rw [Checked.sub, if_pos h]
  rfl

/-- A checked sum returns exactly below its bound. -/
theorem add_eq_ok (r : ℕ) : Checked.add bound a b = .ok r ↔ a + b < bound ∧ a + b = r := by
  unfold Checked.add
  split <;> simp [*]

/-- A checked sum is reached exactly below its bound. -/
@[simp] theorem add_bind_eq_ok :
    (Checked.add bound a b >>= g) = .ok r ↔ a + b < bound ∧ g (a + b) = .ok r := by
  unfold Checked.add
  split <;> simp [*]

/-- A checked difference is reached exactly without underflow. -/
@[simp] theorem sub_bind_eq_ok :
    (Checked.sub a b >>= g) = .ok r ↔ b ≤ a ∧ g (a - b) = .ok r := by
  unfold Checked.sub
  split <;> simp [*]

/-- A checked product is reached exactly below its bound. -/
@[simp] theorem mul_bind_eq_ok :
    (Checked.mul bound a b >>= g) = .ok r ↔ a * b < bound ∧ g (a * b) = .ok r := by
  unfold Checked.mul
  split <;> simp [*]

/-- A checked quotient is reached exactly for a nonzero divisor. -/
@[simp] theorem div_bind_eq_ok :
    (Checked.div a b >>= g) = .ok r ↔ b ≠ 0 ∧ g (a / b) = .ok r := by
  unfold Checked.div
  split <;> simp_all

end Guards

end ColivingSpec.Lib
