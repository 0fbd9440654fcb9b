import ColivingSpec.System.Machine

/-!
# The list of service types

`ServiceTypeManager.sol:88–152`: the list of valid types beside the flags of their records. A
removal overwrites the slot with the last type and then deletes it, without shrinking the
list. Governance may move, so each event carries the wiring it meets.
-/

namespace ColivingSpec.ServiceTypeManager

open Lib

/-- A call about service types. -/
structure Event where
  w : Wiring
  msg : Msg
  c : TypeCall

/-- One call. -/
def step (m : ServiceTypeManager) (e : Event) : Except String ServiceTypeManager :=
  e.c.perform e.w e.msg m

/-- The list has each valid type once, and no empty entry. -/
structure ListExact (m : ServiceTypeManager) : Prop where
  nodup : m.validServiceTypes.Nodup
  mem_iff : ∀ ty, ty ∈ m.validServiceTypes ↔ m.serviceTypeIsValid ty = true
  unholed : 0 ∉ m.validServiceTypes

/-- A call of governance that adds the empty type, or removes a listed one. -/
def LeavesEmpty (m : ServiceTypeManager) (e : Event) : Prop :=
  e.msg.sender = e.w.governance ∧
    match e.c with
    | .addServiceType ty min max =>
      ty = 0 ∧ m.serviceTypeIsValid ty = false ∧ min < max ∧ (m.serviceTypeInfo ty).maxStake = 0
    | .removeServiceType ty => ty ∈ m.validServiceTypes
    | .setServiceVersion _ _ => False

variable {m m' : ServiceTypeManager} {e : Event}

theorem initialStorage_listExact : ListExact initialStorage where
  nodup := List.nodup_nil
  mem_iff _ := iff_of_false List.not_mem_nil Bool.false_ne_true
  unholed := List.not_mem_nil

/-- A type that is not valid yet enters the list and its flag is set. -/
theorem ListExact.add (h : ListExact m) {w : Wiring} {msg : Msg} {ty : Bytes32} {min max : ℕ}
    (hok : m.addServiceType w msg ty min max = .ok m') : ListExact m' ↔ ty ≠ 0 := by
  unfold addServiceType at hok
  simp only [↓require_bind_eq_ok, pure_eq_ok] at hok
  obtain ⟨-, hnew, -, -, rfl⟩ := hok
  constructor
  · rintro hexact rfl
    exact hexact.unholed (by simp)
  · intro hty
    have hnot : ty ∉ m.validServiceTypes := by
      rw [h.mem_iff]
      simpa using hnew
    refine ⟨?_, fun ty' ↦ ?_, ?_⟩
    · rw [← List.concat_eq_append]
      exact (List.nodup_concat _ _).mpr ⟨hnot, h.nodup⟩
    · by_cases heq : ty' = ty
      · simp [heq, serviceTypeIsValid]
      · simpa [heq, serviceTypeIsValid] using h.mem_iff ty'
    · simpa [h.unholed] using hty.symm

/-- A successful call keeps the list exact, unless it leaves an empty entry. -/
theorem step_listExact_iff (h : ListExact m) (hok : step m e = .ok m') :
    ListExact m' ↔ ¬ LeavesEmpty m e := by
  obtain ⟨w, msg, c⟩ := e
  cases c with
  | addServiceType ty min max =>
    rw [h.add hok, not_iff_not]
    simp only [step, TypeCall.perform, addServiceType, ↓require_bind_eq_ok] at hok
    constructor
    · exact fun hty ↦ ⟨hok.1, hty, by simpa using hok.2.1, hok.2.2.1, hok.2.2.2.1⟩
    · exact fun hempty ↦ hempty.2.1
  | removeServiceType ty =>
    simp only [step, TypeCall.perform, removeServiceType, ↓require_bind_eq_ok, pure_eq_ok] at hok
    obtain ⟨hsender, hmem, rfl⟩ := hok
    refine iff_of_false (fun hexact ↦ ?_) (not_not_intro ⟨hsender, hmem⟩)
    exact hexact.unholed (zero_mem_deleteSlot hmem)
  | setServiceVersion ty version =>
    simp only [step, TypeCall.perform, setServiceVersion, ↓require_bind_eq_ok, pure_eq_ok] at hok
    obtain ⟨-, -, -, rfl⟩ := hok
    exact iff_of_true ⟨h.nodup, h.mem_iff, h.unholed⟩ fun hempty ↦ hempty.2

/-- Such a call goes through. -/
theorem LeavesEmpty.succeeds (h : LeavesEmpty m e) : Succeeds (step m e) := by
  obtain ⟨w, msg, c⟩ := e
  obtain ⟨hsender, h⟩ := h
  cases c with
  | addServiceType ty min max =>
    obtain ⟨-, hnew, hlt, hfresh⟩ := h
    exact ⟨_, by
      simp only [step, TypeCall.perform, addServiceType, ↓require_bind_eq_ok, pure_eq_ok]
      exact ⟨hsender, by simpa using hnew, hlt, hfresh, rfl⟩⟩
  | removeServiceType ty =>
    exact ⟨_, by
      simp only [step, TypeCall.perform, removeServiceType, ↓require_bind_eq_ok, pure_eq_ok]
      exact ⟨hsender, h, rfl⟩⟩
  | setServiceVersion ty version => exact h.elim

/-- The list is exact at all times just when no call leaves an empty entry. -/
theorem service_type_list_exact_iff (es : List Event) :
    (∀ fs, fs <+: es → ListExact (replay step initialStorage fs)) ↔
      Along step (fun m e ↦ ¬ LeavesEmpty m e) initialStorage es :=
  prefixes_iff_along_of_ok (W := fun _ ↦ True) (fun _ _ _ h _ ↦ h)
    (fun _ _ _ _ h hok ↦ step_listExact_iff h hok)
    (fun _ _ hreverts hempty ↦ hreverts hempty.succeeds) trivial initialStorage_listExact

/-- A type that governance adds and removes leaves its slot in the list. -/
theorem removed_service_type_leaves_hole :
    ¬ ∀ es, ListExact (replay step initialStorage es) := by
  intro h
  refine (h [⟨Scenario.wiring, ⟨7, 1⟩, .addServiceType 1 0 10⟩,
    ⟨Scenario.wiring, ⟨7, 2⟩, .removeServiceType 1⟩]).unholed ?_
  decide +kernel

end ColivingSpec.ServiceTypeManager
