import ColivingSpec.Lib.Checked

/-!
# Runs with reverts

A machine whose step may revert, and its runs: an event whose step reverts leaves
the state as it was. Results about a run come from results about one successful
step, under a condition on each event and the state it meets. The state, the events
and the step are parameters.
-/

namespace ColivingSpec.Lib

variable {σ ε : Type} (step : σ → ε → Except String σ)

variable (s : σ) (counts : σ → ε → Bool)

/-- The state after an event; a reverted event changes nothing. -/
def attempt (e : ε) : σ :=
  match step s e with
  | .ok s' => s'
  | .error _ => s

/-- The state after a list of events, first event first. -/
def replay (es : List ε) : σ := es.foldl (attempt step) s

/-- Each event of the run meets `G` in the state before it. -/
def Along (G : σ → ε → Prop) : σ → List ε → Prop
  | _, [] => True
  | s, e :: es => G s e ∧ Along G (attempt step s e) es

instance instDecidableAlong (G : σ → ε → Prop) [∀ s e, Decidable (G s e)] :
    ∀ s es, Decidable (Along step G s es)
  | _, [] => .isTrue trivial
  | s, e :: es =>
    have := instDecidableAlong G (attempt step s e) es
    inferInstanceAs (Decidable (G s e ∧ Along step G (attempt step s e) es))

/-- Sum over the run of what each event adds in the state before it. -/
def accumulated (amount : σ → ε → ℕ) : σ → List ε → ℕ
  | _, [] => 0
  | s, e :: es => amount s e + accumulated amount (attempt step s e) es

/-- Number of events of the run that are counted in the state before them. -/
def occurrences : σ → List ε → ℕ :=
  accumulated step fun s e ↦ (counts s e).toNat

@[simp] theorem occurrences_cons (s : σ) (e : ε) (es : List ε) :
    occurrences step counts s (e :: es)
      = (counts s e).toNat + occurrences step counts (attempt step s e) es := rfl

@[simp] theorem replay_nil : replay step s [] = s := rfl

@[simp] theorem replay_cons (e : ε) (es : List ε) :
    replay step s (e :: es) = replay step (attempt step s e) es := rfl

theorem replay_append (es fs : List ε) :
    replay step s (es ++ fs) = replay step (replay step s es) fs :=
  List.foldl_append

variable {s : σ} {e : ε} {es : List ε} {P : σ → Prop}

theorem attempt_of_ok {s' : σ} (h : step s e = .ok s') : attempt step s e = s' := by
  simp only [attempt, h]

theorem attempt_of_error {reason : String} (h : step s e = .error reason) :
    attempt step s e = s := by
  simp only [attempt, h]

theorem eq_ok_attempt (h : (step s e).isOk = true) :
    step s e = .ok (attempt step s e) := by
  have hok := eq_ok_valueOf _ h
  rwa [attempt_of_ok step hok]

/-- An event either reverts without effect or is one successful step. -/
theorem attempt_cases (s : σ) (e : ε) :
    attempt step s e = s ∨ step s e = .ok (attempt step s e) := by
  unfold attempt
  cases step s e with
  | ok s' => exact .inr rfl
  | error reason => exact .inl rfl

variable {step} {G : σ → ε → Prop}

theorem attempt_invariant {I : σ → Prop} (hstep : ∀ s e s', I s → G s e → step s e = .ok s' → I s')
    (hi : I s) (hg : G s e) : I (attempt step s e) := by
  rcases attempt_cases step s e with heq | hok
  · rw [heq]
    exact hi
  · exact hstep s e _ hi hg hok

/-- What every successful step preserves under its condition, a run preserves. -/
theorem replay_invariant (I : σ → Prop) (hstep : ∀ s e s', I s → G s e → step s e = .ok s' → I s')
    (hi : I s) (hg : Along step G s es) : I (replay step s es) := by
  induction es generalizing s with
  | nil => exact hi
  | cons e es ih => exact ih (attempt_invariant hstep hi hg.1) hg.2

/-- What every event of the run meets in any state is met along it. -/
theorem along_of_forall (h : ∀ s, ∀ e ∈ es, G s e) : Along step G s es := by
  induction es generalizing s with
  | nil => trivial
  | cons e es ih =>
    exact ⟨h s e List.mem_cons_self, ih fun s e he ↦ h s e (List.mem_cons_of_mem _ he)⟩

/-- The unconditional case. -/
theorem replay_invariant' (I : σ → Prop) (hstep : ∀ s e s', I s → step s e = .ok s' → I s')
    (es : List ε) (hi : I s) : I (replay step s es) :=
  have hes : Along step (fun _ _ ↦ True) s es := along_of_forall fun _ _ _ ↦ trivial
  replay_invariant I (fun s e s' hi _ h ↦ hstep s e s' hi h) hi hes

/-- What an invariant gives before every step holds along the run. -/
theorem along_of_invariant {I : σ → Prop} {G' : σ → ε → Prop}
    (hstep : ∀ s e s', I s → G s e → step s e = .ok s' → I s') (himp : ∀ s e, I s → G s e → G' s e)
    (hi : I s) (hg : Along step G s es) : Along step G' s es := by
  induction es generalizing s with
  | nil => trivial
  | cons e es ih =>
    exact ⟨himp s e hi hg.1, ih (attempt_invariant hstep hi hg.1) hg.2⟩

/-- When, under an invariant that the condition keeps up, a step leads to a good state just when its
condition is met, all states of a run are good just when the conditions are met along it. -/
theorem prefixes_iff_along_of_invariant {J : σ → Prop} (hgood : ∀ s, J s → P s)
    (hkept : ∀ s e, J s → G s e → J (attempt step s e))
    (hneeded : ∀ s e, J s → P (attempt step s e) → G s e) (hs : J s) :
    (∀ fs, fs <+: es → P (replay step s fs)) ↔ Along step G s es := by
  induction es generalizing s with
  | nil =>
    refine iff_of_true (fun fs hfs ↦ ?_) trivial
    rw [List.prefix_nil.mp hfs]
    exact hgood s hs
  | cons e es ih =>
    constructor
    · intro hall
      have hone : P (attempt step s e) := hall [e] (List.prefix_append [e] es)
      have hg := hneeded s e hs hone
      refine ⟨hg, (ih (hkept s e hs hg)).mp fun fs hfs ↦ ?_⟩
      exact hall (e :: fs) ((List.prefix_cons_inj e).mpr hfs)
    · rintro ⟨hg, hrest⟩ fs hfs
      cases fs with
      | nil => exact hgood s hs
      | cons f fs =>
        obtain ⟨rfl, hrestfs⟩ := List.cons_prefix_cons.mp hfs
        exact (ih (hkept s f hs hg)).mpr hrest fs hrestfs

/-- When a step from a good state leads to a good state just when its condition is met, all
states of a run are good just when the conditions are met along it. -/
theorem prefixes_iff_along {W : σ → Prop} (hkept : ∀ s e s', W s → step s e = .ok s' → W s')
    (hstep : ∀ s e, W s → P s → (P (attempt step s e) ↔ G s e)) (hw : W s) (hp : P s) :
    (∀ fs, fs <+: es → P (replay step s fs)) ↔ Along step G s es := by
  apply prefixes_iff_along_of_invariant (J := fun s ↦ W s ∧ P s)
  · exact fun s hs ↦ hs.2
  · intro s e hs hg
    exact ⟨replay_invariant' W hkept [e] hs.1, (hstep s e hs.1 hs.2).mpr hg⟩
  · exact fun s e hs hp ↦ (hstep s e hs.1 hs.2).mp hp
  · exact ⟨hw, hp⟩

/-- The case in which an event that reverts meets its condition. -/
theorem prefixes_iff_along_of_ok {W P : σ → Prop} (hkept : ∀ s e s', W s → step s e = .ok s' → W s')
    (hstep : ∀ s e s', W s → P s → step s e = .ok s' → (P s' ↔ G s e))
    (hreverts : ∀ s e, ¬ Succeeds (step s e) → G s e) {s : σ} {es : List ε} (hw : W s)
    (hp : P s) : (∀ fs, fs <+: es → P (replay step s fs)) ↔ Along step G s es := by
  apply prefixes_iff_along hkept _ hw hp
  intro s e hw hp
  cases hok : step s e with
  | ok s' =>
    rw [attempt_of_ok _ hok]
    exact hstep s e s' hw hp hok
  | error reason =>
    rw [attempt_of_error _ hok]
    refine iff_of_true hp (hreverts s e ?_)
    rw [hok]
    exact not_succeeds rfl

/-- A condition met along a run may be weakened. -/
theorem Along.imp {G' : σ → ε → Prop} (himp : ∀ s e, G s e → G' s e) (hg : Along step G s es) :
    Along step G' s es := by
  induction es generalizing s with
  | nil => trivial
  | cons e es ih => exact ⟨himp s e hg.1, ih hg.2⟩

/-- What happens only while nothing is spent, and spends when it happens, happens once. -/
theorem accumulated_le_one {amount : σ → ε → ℕ} {spent : σ → Prop}
    (hspent : ∀ s e, spent s → amount s e = 0 ∧ spent (attempt step s e))
    (honce : ∀ s e, amount s e = 0 ∨ amount s e = 1 ∧ spent (attempt step s e)) (s : σ)
    (es : List ε) :
    accumulated step amount s es ≤ 1 ∧ (spent s → accumulated step amount s es = 0) := by
  induction es generalizing s with
  | nil => exact ⟨Nat.zero_le _, fun _ ↦ rfl⟩
  | cons e es ih =>
    obtain ⟨hle, hzero⟩ := ih (attempt step s e)
    constructor
    · rcases honce s e with hnone | ⟨hone, hnext⟩
      · simpa [accumulated, hnone] using hle
      · simp [accumulated, hone, hzero hnext]
    · intro hs
      obtain ⟨hnone, hnext⟩ := hspent s e hs
      simp [accumulated, hnone, hzero hnext]

/-- What holds at the end of a run and not at its start came about in one of its steps. -/
theorem exists_step_of_replay (hstart : ¬ P s) (hend : P (replay step s es)) :
    ∃ before e after s', es = before ++ e :: after ∧ ¬ P (replay step s before) ∧
      step (replay step s before) e = .ok s' ∧ P s' := by
  induction es generalizing s with
  | nil => exact absurd hend hstart
  | cons e es ih =>
    by_cases hnext : P (attempt step s e)
    · rcases attempt_cases step s e with hsame | hok
      · exact absurd (hsame ▸ hnext) hstart
      · exact ⟨[], e, es, _, rfl, hstart, hok, hnext⟩
    · obtain ⟨before, e', after, s', rfl, hbefore, hstep, hs'⟩ := ih hnext hend
      exact ⟨e :: before, e', after, s', rfl, hbefore, hstep, hs'⟩

/-- A condition on the rest of a run. -/
theorem along_append {fs : List ε} :
    Along step G s (es ++ fs) ↔ Along step G s es ∧ Along step G (replay step s es) fs := by
  induction es generalizing s with
  | nil => simp [Along]
  | cons e es ih => simp only [List.cons_append, Along, replay_cons, ih, and_assoc]

end ColivingSpec.Lib

/-!
## What a run does not read

A step over a state of which a view shows a part, and which reads no more than that part. Two runs
from states of one view show the same at their ends, so that a step which changes nothing in view
may be left out of a run.
-/

namespace ColivingSpec.Lib

variable {σ τ ι ε α : Type}

/-- What a step shows depends on what is shown before it. -/
def ReadsView (view : σ → τ) (step : σ → ι → Except ε σ) : Prop :=
  ∀ s s' i, view s = view s' → (step s i).map view = (step s' i).map view

/-- Results of one view are alike for what follows, if that reads the view. -/
theorem bind_eq_of_map_eq {view : σ → τ} {f : σ → Except ε α}
    (hf : ∀ s s', view s = view s' → f s = f s') {x y : Except ε σ} (h : x.map view = y.map view) :
    x.bind f = y.bind f := by
  cases x with
  | error e =>
    cases y with
    | error e' =>
      cases h
      rfl
    | ok s' => cases h
  | ok s =>
    cases y with
    | error e' => cases h
    | ok s' => exact hf s s' (Except.ok.inj h)

namespace ReadsView

variable {view : σ → τ} {step : σ → ι → Except ε σ}

/-- Runs from states of one view. -/
theorem foldlM (h : ReadsView view step) (l : List ι) : ∀ {s s' : σ}, view s = view s' →
    (l.foldlM step s).map view = (l.foldlM step s').map view := by
  induction l with
  | nil => exact fun hview ↦ congrArg Except.ok hview
  | cons i l ih =>
    intro s s' hview
    have hbind : ∀ z : Except ε σ,
        (z.bind (l.foldlM step)).map view = z.bind fun s ↦ (l.foldlM step s).map view := by
      intro z
      cases z with
      | error e => rfl
      | ok s => rfl
    change ((step s i).bind (l.foldlM step)).map view = ((step s' i).bind (l.foldlM step)).map view
    rw [hbind, hbind]
    exact bind_eq_of_map_eq (fun s s' ↦ ih) (h s s' i hview)

/-- A step that changes nothing in view may be left out. -/
theorem erase (h : ReadsView view step) {before : List ι} {i : ι} {s mid mid' : σ}
    (hbefore : before.foldlM step s = .ok mid) (hstep : step mid i = .ok mid')
    (hview : view mid' = view mid) (after : List ι) :
    ((before ++ i :: after).foldlM step s).map view =
      ((before ++ after).foldlM step s).map view := by
  rw [List.foldlM_append, List.foldlM_append, hbefore]
  change ((step mid i).bind (after.foldlM step)).map view = (after.foldlM step mid).map view
  rw [hstep]
  exact h.foldlM after hview

end ReadsView

end ColivingSpec.Lib
