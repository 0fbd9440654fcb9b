import ColivingSpec.Libs.ServiceTimings
import Mathlib.Tactic.Linarith

/-!
# When services are ordered consistently

The comparator decides by a key as long as at most one service failed and latencies of one rank are
all near each other, or all further apart than a negative delta allows to tell. A much faster
service is compared at random when it is asked for first.
-/

namespace ColivingSpec

open Lib

namespace Services

variable {V : Type} [LinearOrder V] {parse : String → Option V} {config : SortConfig}
variable {a b : Option String} {v w : V}

/-! ### Versions -/

theorem gt_eq (ha : parsed parse a = .ok v) (hb : parsed parse b = .ok w) :
    gt parse a b = .ok (decide (w < v)) := by
  rw [gt, ha, ok_bind, hb]
  rfl

theorem lt_eq (ha : parsed parse a = .ok v) (hb : parsed parse b = .ok w) :
    lt parse a b = .ok (decide (v < w)) := by
  rw [lt, ha, ok_bind, hb]
  rfl

/-- `semver.gt` returns only on two versions. -/
theorem succeeds_gt (h : Succeeds (gt parse a b)) :
    (∃ v, parsed parse a = .ok v) ∧ ∃ w, parsed parse b = .ok w := by
  obtain ⟨answer, h⟩ := h
  obtain ⟨v, hv, h⟩ := bind_eq_ok.mp h
  obtain ⟨w, hw, -⟩ := bind_eq_ok.mp h
  exact ⟨⟨v, hv⟩, ⟨w, hw⟩⟩

theorem descending_eq (ha : parsed parse a = .ok v) (hb : parsed parse b = .ok w) :
    descending parse a b = .ok (if w < v then some (-1) else if v < w then some 1 else none) := by
  rw [descending, gt_eq ha hb, lt_eq ha hb, ok_bind, ok_bind]
  by_cases hwv : w < v
  · simp [hwv]
  · by_cases hvw : v < w
    · simp [hwv, hvw]
    · simp [hwv, hvw]

variable {x y : WithBot V} {δ : ℚ}

/-- Higher ranks come first, and equal ones do not decide. -/
theorem compareVersions_eq (ha : rank parse config a = .ok x) (hb : rank parse config b = .ok y) :
    compareVersions parse config a b =
      .ok (if y < x then some (-1) else if x < y then some 1 else none) := by
  unfold rank at ha hb
  unfold compareVersions
  cases hsort : config.sortByVersion with
  | true =>
    simp only [hsort, if_true, bind_eq_ok] at ha hb ⊢
    obtain ⟨v, hv, hx⟩ := ha
    obtain ⟨w, hw, hy⟩ := hb
    cases hx
    cases hy
    rw [descending_eq hv hw]
    simp only [WithBot.coe_lt_coe]
  | false =>
    simp only [hsort, Bool.false_eq_true, if_false] at ha hb ⊢
    cases hcurrent : config.currentVersion.filter fun version ↦ version ≠ "" with
    | none =>
      simp only [hcurrent] at ha hb ⊢
      cases ha
      cases hb
      simp
    | some currentVersion =>
      simp only [hcurrent, bind_eq_ok] at ha hb
      obtain ⟨v, hv, c, hc, hx⟩ := ha
      obtain ⟨w, hw, c', hc', hy⟩ := hb
      cases hc.symm.trans hc'
      cases hx
      cases hy
      simp only [WithBot.coe_lt_coe]
      rw [gt_eq hc hv, gt_eq hc hw, descending_eq hv hw]
      by_cases hvc : v < c
      · by_cases hwc : w < c
        · simp [hvc, hwc, min_eq_left hvc.le, min_eq_left hwc.le]
        · simp [hvc, hwc, min_eq_left hvc.le, min_eq_right (not_lt.mp hwc), hvc.not_gt]
      · by_cases hwc : w < c
        · simp [hvc, hwc, min_eq_right (not_lt.mp hvc), min_eq_left hwc.le]
        · simp [hvc, hwc, min_eq_right (not_lt.mp hvc), min_eq_right (not_lt.mp hwc)]

/-- Versions are compared only when both have a rank. -/
theorem rank_of_compareVersions (h : Succeeds (compareVersions parse config a b)) :
    (∃ x : WithBot V, rank parse config a = .ok x) ∧
      ∃ y : WithBot V, rank parse config b = .ok y := by
  unfold compareVersions at h
  unfold rank
  cases hsort : config.sortByVersion with
  | true =>
    simp only [hsort, if_true] at h ⊢
    obtain ⟨answer, h⟩ := h
    obtain ⟨_, hgt, -⟩ := bind_eq_ok.mp h
    obtain ⟨⟨v, hv⟩, w, hw⟩ := succeeds_gt ⟨_, hgt⟩
    rw [hv, hw]
    exact ⟨⟨_, rfl⟩, _, rfl⟩
  | false =>
    simp only [hsort, Bool.false_eq_true, if_false] at h ⊢
    cases hcurrent : config.currentVersion.filter fun version ↦ version ≠ "" with
    | none => exact ⟨⟨_, rfl⟩, _, rfl⟩
    | some currentVersion =>
      simp only [hcurrent] at h ⊢
      obtain ⟨answer, h⟩ := h
      obtain ⟨both, hboth, h⟩ := bind_eq_ok.mp h
      obtain ⟨behind, hbehind, hboth⟩ := bind_eq_ok.mp hboth
      obtain ⟨⟨c, hc⟩, v, hv⟩ := succeeds_gt ⟨_, hbehind⟩
      have hother : Succeeds (gt parse (some currentVersion) b) := by
        cases behind with
        | true => exact ⟨both, hboth⟩
        | false =>
          cases hboth
          rw [hbehind] at h
          obtain ⟨again, hagain, h⟩ := bind_eq_ok.mp h
          cases hagain
          obtain ⟨answer', hother, -⟩ := bind_eq_ok.mp h
          exact ⟨answer', hother⟩
      obtain ⟨-, w, hw⟩ := succeeds_gt hother
      rw [hc, hv, hw]
      exact ⟨⟨_, rfl⟩, _, rfl⟩

/-! ### Entries -/

variable {s t : Timing} {response other : Response}

/-- Of two services that answered, the one with the higher rank comes first. -/
theorem compareTimings_of_ranks (hs : s.response = some response) (ht : t.response = some other)
    (hx : rank parse config response.version = .ok x) (hy : rank parse config other.version = .ok y)
    (random : Random) :
    compareTimings parse config s t random =
      .ok (if y < x then -1 else if x < y then 1 else compareMillis config s t random) := by
  unfold compareTimings
  rw [hs, ht]
  dsimp only
  rw [compareVersions_eq hx hy, ok_bind]
  by_cases hyx : y < x
  · rw [if_pos hyx, if_pos hyx]
    rfl
  · rw [if_neg hyx, if_neg hyx]
    by_cases hxy : x < y
    · rw [if_pos hxy, if_pos hxy]
      rfl
    · rw [if_neg hxy, if_neg hxy]
      rfl

/-- What decides: whether a service failed, its rank, and its latency where that tells. -/
def key (parse : String → Option V) (config : SortConfig) (t : Timing) :
    Bool ×ₗ (WithBot V)ᵒᵈ ×ₗ ℚ :=
  toLex (t.response.isNone, toLex (OrderDual.toDual (match t.response with
    | some response => (rank parse config response.version).toOption.getD ⊥
    | none => ⊥),
    if config.equivalencyDelta.any (0 < ·) then 0 else t.millis.getD 0))

/-- The key of a service that failed is above that of one that answered. -/
theorem key_lt_of_failed (hs : s.response = some response) (ht : t.response = none) :
    key parse config s < key parse config t := by
  apply Prod.Lex.toLex_lt_toLex.mpr
  left
  rw [hs, ht]
  exact Bool.false_lt_true

/-- The keys of two services that answered compare by ranks and then by latencies that tell. -/
theorem key_lt_iff (hs : s.response = some response) (ht : t.response = some other)
    (hx : rank parse config response.version = .ok x) (hy : rank parse config other.version = .ok y) :
    key parse config s < key parse config t ↔
      y < x ∨ x = y ∧ (¬ config.equivalencyDelta.any (0 < ·) = true ∧
        s.millis.getD 0 < t.millis.getD 0) := by
  unfold key
  rw [Prod.Lex.toLex_lt_toLex, hs, ht]
  dsimp only
  rw [Prod.Lex.toLex_lt_toLex, hx, hy]
  by_cases hdelta : config.equivalencyDelta.any (0 < ·) = true
  · simp [hdelta, Except.toOption]
  · simp [hdelta, Except.toOption]

theorem key_eq_iff (hs : s.response = some response) (ht : t.response = some other)
    (hx : rank parse config response.version = .ok x) (hy : rank parse config other.version = .ok y) :
    key parse config s = key parse config t ↔
      x = y ∧ (config.equivalencyDelta.any (0 < ·) = true ∨
        s.millis.getD 0 = t.millis.getD 0) := by
  unfold key
  rw [toLex_inj, hs, ht]
  dsimp only
  rw [Prod.mk.injEq, toLex_inj, hx, hy, Prod.mk.injEq]
  by_cases hdelta : config.equivalencyDelta.any (0 < ·) = true
  · simp [hdelta, Except.toOption]
  · simp [hdelta, Except.toOption]

/-! ### Latencies -/

/-- Under a positive delta, latencies that fit are compared at random. -/
theorem compareMillis_random (hdelta : config.equivalencyDelta = some δ)
    (hlt : |s.millis.getD 0 - t.millis.getD 0| < δ) (random : Random) :
    compareMillis config s t random = 1 - 2 * random.value := by
  unfold compareMillis
  rw [hdelta]
  exact if_pos ((le_abs_self _).trans_lt hlt)

/-- Otherwise latencies that fit are compared by their difference. -/
theorem compareMillis_difference
    (h : ∀ δ, config.equivalencyDelta = some δ → |s.millis.getD 0 - t.millis.getD 0| ≤ -δ)
    (random : Random) :
    compareMillis config s t random = s.millis.getD 0 - t.millis.getD 0 := by
  unfold compareMillis
  cases hdelta : config.equivalencyDelta with
  | none => rfl
  | some δ =>
    have hle := abs_le.mp (h δ hdelta)
    exact if_neg (by linarith [hle.1])

theorem not_any_pos (h : ¬ config.equivalencyDelta.any (0 < ·) = true)
    (hdelta : config.equivalencyDelta = some δ) : δ ≤ 0 := by
  rw [hdelta] at h
  simpa using h

theorem exists_of_any_pos (h : config.equivalencyDelta.any (0 < ·) = true) :
    ∃ δ, config.equivalencyDelta = some δ ∧ 0 < δ := by
  cases hdelta : config.equivalencyDelta with
  | none => simp [hdelta] at h
  | some δ =>
    rw [hdelta] at h
    exact ⟨δ, rfl, of_decide_eq_true h⟩

/-- What `Math.random` returns at one quarter and at three quarters. -/
def quarter : Random := ⟨1 / 4, by norm_num, by norm_num⟩

def threeQuarters : Random := ⟨3 / 4, by norm_num, by norm_num⟩

/-- What is drawn may have either sign. -/
theorem undecided_of_random
    (h : ∀ random, compareTimings parse config s t random = .ok (1 - 2 * random.value)) :
    Undecided (compareTimings parse config) s t := by
  refine .inr ⟨⟨threeQuarters, _, h threeQuarters, ?_⟩, ⟨quarter, _, h quarter, ?_⟩,
    fun random ↦ ⟨_, h random⟩⟩
  · norm_num [threeQuarters]
  · norm_num [quarter]

theorem SameRank.symm (h : SameRank parse config response other) :
    SameRank parse config other response := by
  obtain ⟨v, hv, hv'⟩ := h
  exact ⟨v, hv', hv⟩

theorem Fits.symm (h : Fits parse config s t) : Fits parse config t s := by
  unfold Fits at h ⊢
  cases hs : s.response with
  | none =>
    cases ht : t.response with
    | none => simp [hs, ht] at h
    | some other => trivial
  | some response =>
    cases ht : t.response with
    | none => trivial
    | some other =>
      simp only [hs, ht] at h ⊢
      refine ⟨h.2.1, h.1, fun hrank δ hdelta ↦ ?_⟩
      rw [abs_sub_comm]
      exact h.2.2 hrank.symm δ hdelta

/-- A key that is below another decides. -/
theorem Fits.decided (h : Fits parse config s t) (hkey : key parse config s < key parse config t) :
    Before (compareTimings parse config) s t ∧ After (compareTimings parse config) t s := by
  cases hs : s.response with
  | none =>
    cases ht : t.response with
    | none => simp [Fits, hs, ht] at h
    | some other => exact absurd hkey (key_lt_of_failed ht hs).not_gt
  | some response =>
    cases ht : t.response with
    | none =>
      constructor
      · exact fun random ↦ ⟨-1, by rw [compareTimings, hs, ht], by norm_num⟩
      · exact fun random ↦ ⟨1, by rw [compareTimings, ht], by norm_num⟩
    | some other =>
      simp only [Fits, hs, ht] at h
      obtain ⟨⟨x, hx⟩, ⟨y, hy⟩, hnear⟩ := h
      rcases (key_lt_iff hs ht hx hy).mp hkey with hlt | ⟨rfl, hdelta, hmillis⟩
      · constructor
        · intro random
          rw [compareTimings_of_ranks hs ht hx hy, if_pos hlt]
          exact ⟨-1, rfl, by norm_num⟩
        · intro random
          rw [compareTimings_of_ranks ht hs hy hx, if_neg hlt.not_gt, if_pos hlt]
          exact ⟨1, rfl, by norm_num⟩
      · have hle : ∀ δ, config.equivalencyDelta = some δ →
            |s.millis.getD 0 - t.millis.getD 0| ≤ -δ := by
          intro δ hδ
          have hnonpos := not_any_pos hdelta hδ
          rcases hnear ⟨x, hx, hy⟩ δ hδ with hlt | hle
          · linarith
          · exact hle
        have hle' : ∀ δ, config.equivalencyDelta = some δ →
            |t.millis.getD 0 - s.millis.getD 0| ≤ -δ := by
          intro δ hδ
          rw [abs_sub_comm]
          exact hle δ hδ
        constructor
        · intro random
          rw [compareTimings_of_ranks hs ht hx hy, if_neg (lt_irrefl x), if_neg (lt_irrefl x),
            compareMillis_difference hle]
          exact ⟨_, rfl, by linarith⟩
        · intro random
          rw [compareTimings_of_ranks ht hs hy hx, if_neg (lt_irrefl x), if_neg (lt_irrefl x),
            compareMillis_difference hle']
          exact ⟨_, rfl, by linarith⟩

/-- One key leaves two services undecided, and they are equivalent. -/
theorem Fits.undecided (h : Fits parse config s t)
    (hkey : key parse config s = key parse config t) :
    Undecided (compareTimings parse config) s t ∧ Equivalent parse config s t := by
  cases hs : s.response with
  | none =>
    cases ht : t.response with
    | none => simp [Fits, hs, ht] at h
    | some other => exact absurd hkey (key_lt_of_failed ht hs).ne'
  | some response =>
    cases ht : t.response with
    | none => exact absurd hkey (key_lt_of_failed hs ht).ne
    | some other =>
      simp only [Fits, hs, ht] at h
      obtain ⟨⟨x, hx⟩, ⟨y, hy⟩, hnear⟩ := h
      obtain ⟨rfl, htells⟩ := (key_eq_iff hs ht hx hy).mp hkey
      have hrank : SameRank parse config response other := ⟨x, hx, hy⟩
      by_cases hdelta : config.equivalencyDelta.any (0 < ·) = true
      · obtain ⟨δ, hδ, hpos⟩ := exists_of_any_pos hdelta
        have hlt : |s.millis.getD 0 - t.millis.getD 0| < δ := by
          rcases hnear hrank δ hδ with hlt | hle
          · exact hlt
          · linarith
        refine ⟨undecided_of_random fun random ↦ ?_, response, other, hs, ht, hrank,
          .inr ⟨δ, hδ, hlt⟩⟩
        rw [compareTimings_of_ranks hs ht hx hy, if_neg (lt_irrefl x), if_neg (lt_irrefl x),
          compareMillis_random hδ hlt]
      · have heq := htells.resolve_left hdelta
        refine ⟨.inl fun random ↦ ?_, response, other, hs, ht, hrank, .inl heq⟩
        rw [compareTimings_of_ranks hs ht hx hy, if_neg (lt_irrefl x), if_neg (lt_irrefl x),
          compareMillis_difference, heq, sub_self]
        intro δ hδ
        rw [heq, sub_self, abs_zero]
        linarith [not_any_pos hdelta hδ]

/-- A service that is to precede another has the lower key. -/
theorem Fits.key_lt_of_precedes (h : Fits parse config s t)
    (hprecedes : Precedes parse config s t) :
    key parse config s < key parse config t := by
  obtain ⟨response, hs, hall⟩ := hprecedes
  cases ht : t.response with
  | none => exact key_lt_of_failed hs ht
  | some other =>
    simp only [Fits, hs, ht] at h
    obtain ⟨-, -, hnear⟩ := h
    rcases hall other ht with ⟨v, w, hv, hw, hlt⟩ | ⟨⟨v, hv, hv'⟩, hfaster, hdelta⟩
    · exact (key_lt_iff hs ht hv hw).mpr (.inl hlt)
    · refine (key_lt_iff hs ht hv hv').mpr (.inr ⟨rfl, fun hany ↦ ?_, hfaster⟩)
      obtain ⟨δ, hδ, hpos⟩ := exists_of_any_pos hany
      have hfar := hdelta δ hδ
      have hle := neg_abs_le (s.millis.getD 0 - t.millis.getD 0)
      rcases hnear ⟨v, hv, hv'⟩ δ hδ with hlt | hle'
      · linarith
      · linarith [abs_nonneg (s.millis.getD 0 - t.millis.getD 0)]

/-! ### What a consistent answer tells -/

/-- A comparison that one service wins at random and the other by its latency. -/
theorem undecided_and_decided (hs : s.response = some response) (ht : t.response = some other)
    (hrank : SameRank parse config response other) (hdelta : config.equivalencyDelta = some δ)
    (hlt : s.millis.getD 0 - t.millis.getD 0 < δ) (hge : δ ≤ t.millis.getD 0 - s.millis.getD 0) :
    Undecided (compareTimings parse config) s t ∧
      (Before (compareTimings parse config) t s ∨ After (compareTimings parse config) t s) := by
  obtain ⟨x, hx, hy⟩ := hrank
  have hdrawn : ∀ random, compareMillis config s t random = 1 - 2 * random.value := by
    intro random
    unfold compareMillis
    rw [hdelta]
    exact if_pos hlt
  have htold : ∀ random,
      compareMillis config t s random = t.millis.getD 0 - s.millis.getD 0 := by
    intro random
    unfold compareMillis
    rw [hdelta]
    exact if_neg hge.not_gt
  constructor
  · apply undecided_of_random
    intro random
    rw [compareTimings_of_ranks hs ht hx hy, if_neg (lt_irrefl x), if_neg (lt_irrefl x), hdrawn]
  · have hanswer : ∀ random, compareTimings parse config t s random =
        .ok (t.millis.getD 0 - s.millis.getD 0) := by
      intro random
      rw [compareTimings_of_ranks ht hs hy hx, if_neg (lt_irrefl x), if_neg (lt_irrefl x), htold]
    rcases lt_trichotomy (t.millis.getD 0 - s.millis.getD 0) 0 with hneg | hzero | hpos
    · exact .inl fun random ↦ ⟨_, hanswer random, hneg⟩
    · linarith
    · exact .inr fun random ↦ ⟨_, hanswer random, hpos⟩

/-- Two services are compared consistently only when they fit. -/
theorem fits_of_consistent
    (h : Before (compareTimings parse config) s t ∧ After (compareTimings parse config) t s ∨
      After (compareTimings parse config) s t ∧ Before (compareTimings parse config) t s ∨
        Undecided (compareTimings parse config) s t ∧
          Undecided (compareTimings parse config) t s) : Fits parse config s t := by
  have hsucceeds : Succeeds (compareTimings parse config s t quarter) := by
    rcases h with hdecided | hdecided | hundecided
    · obtain ⟨c, hc, -⟩ := hdecided.1 quarter
      exact ⟨c, hc⟩
    · obtain ⟨c, hc, -⟩ := hdecided.1 quarter
      exact ⟨c, hc⟩
    · rcases hundecided.1 with hzero | ⟨-, -, hall⟩
      · exact ⟨0, hzero quarter⟩
      · exact hall quarter
  unfold Fits
  cases hs : s.response with
  | none =>
    cases ht : t.response with
    | some other => trivial
    | none =>
      have hst : After (compareTimings parse config) s t :=
        fun random ↦ ⟨1, by rw [compareTimings, hs], by norm_num⟩
      have hts : After (compareTimings parse config) t s :=
        fun random ↦ ⟨1, by rw [compareTimings, ht], by norm_num⟩
      rcases h with hdecided | hdecided | hundecided
      · exact hdecided.1.not_after hst
      · exact hdecided.2.not_after hts
      · exact hst.not_undecided hundecided.1
  | some response =>
    cases ht : t.response with
    | none => trivial
    | some other =>
      have hversions : Succeeds (compareVersions parse config response.version other.version) := by
        unfold compareTimings at hsucceeds
        rw [hs, ht] at hsucceeds
        obtain ⟨c, hc⟩ := hsucceeds
        obtain ⟨answer, hanswer, -⟩ := bind_eq_ok.mp hc
        exact ⟨answer, hanswer⟩
      obtain ⟨hx, hy⟩ := rank_of_compareVersions hversions
      refine ⟨hx, hy, fun hrank δ hdelta ↦ ?_⟩
      by_contra hfar
      obtain ⟨hge, hgt⟩ := not_or.mp hfar
      rw [abs_lt, not_and_or] at hge
      rw [abs_le, not_and_or] at hgt
      -- one of the two orders is drawn and the other is told by the difference
      rcases lt_or_ge (s.millis.getD 0 - t.millis.getD 0) δ with hlt | hle
      · have hother : δ ≤ t.millis.getD 0 - s.millis.getD 0 := by
          rcases hge with hge | hge
          · linarith
          · exact absurd hlt hge
        obtain ⟨hundecided, hdecided⟩ := undecided_and_decided hs ht hrank hdelta hlt hother
        rcases h with hcase | hcase | hcase
        · exact hcase.1.not_undecided hundecided
        · exact hcase.1.not_undecided hundecided
        · rcases hdecided with hbefore | hafter
          · exact hbefore.not_undecided hcase.2
          · exact hafter.not_undecided hcase.2
      · have hother : t.millis.getD 0 - s.millis.getD 0 < δ := by
          rcases hgt with hgt | hgt
          · linarith
          · linarith
        obtain ⟨hundecided, hdecided⟩ := undecided_and_decided ht hs hrank.symm hdelta hother hle
        rcases h with hcase | hcase | hcase
        · exact hcase.2.not_undecided hundecided
        · exact hcase.2.not_undecided hundecided
        · rcases hdecided with hbefore | hafter
          · exact hbefore.not_undecided hcase.1
          · exact hafter.not_undecided hcase.1

/-- A list in which any two services fit is ordered by their keys. -/
theorem orders_of_fits {timings : List Timing}
    (h : ∀ i j : Fin timings.length, i ≠ j → Fits parse config (timings.get i) (timings.get j)) :
    Orders parse config timings := by
  have hweak : WeakOrder (compareAt parse config timings) := by
    apply WeakOrder.of_key fun i ↦ key parse config (timings.get i)
    · exact fun hne hlt ↦ (h _ _ hne).decided hlt
    · exact fun hne heq ↦ ((h _ _ hne).undecided heq).1
  constructor
  · exact hweak
  · intro i j hne hundecided
    rcases lt_trichotomy (key parse config (timings.get i)) (key parse config (timings.get j)) with
      hlt | heq | hgt
    · exact absurd hundecided ((h i j hne).decided hlt).1.not_undecided
    · exact ((h i j hne).undecided heq).2
    · exact absurd hundecided ((h j i hne.symm).decided hgt).2.not_undecided
  · intro order harranges
    have hpairs := hweak.pairwise_of_isChain harranges.nodup harranges.compared
    rw [List.pairwise_map]
    apply (hpairs.and harranges.nodup).imp
    intro i j ⟨hnot, hne⟩ hprecedes
    have hfits := h j i hne.symm
    exact hnot (hfits.decided (hfits.key_lt_of_precedes hprecedes)).1

end Services

open Services in
/-- The comparator orders a list of timings consistently, and any sort by it lists the services as
they are to be, just when any two entries of the list fit. -/
theorem sortServiceTimings_orders_iff {V : Type} [LinearOrder V] (parse : String → Option V)
    (config : SortConfig) (timings : List Timing) :
    Orders parse config timings ↔ timings.Pairwise (Fits parse config) := by
  constructor
  · intro h
    rw [List.pairwise_iff_getElem]
    intro i j hi hj hlt
    have hne : (⟨i, hi⟩ : Fin timings.length) ≠ ⟨j, hj⟩ := by
      rw [ne_eq, Fin.mk.injEq]
      omega
    exact fits_of_consistent (h.weakOrder.consistent hne)
  · intro h
    rw [List.pairwise_iff_getElem] at h
    apply orders_of_fits
    intro i j hne
    rcases Nat.lt_or_gt_of_ne (Fin.val_ne_of_ne hne) with hlt | hgt
    · exact h i j i.isLt j.isLt hlt
    · exact (h j i j.isLt i.isLt hgt).symm

namespace Services

/-- Two services of one version, of which the second one answered much faster. -/
def slowAndFast : List Timing :=
  [⟨some ⟨some "1.2.3"⟩, some 100⟩, ⟨some ⟨some "1.2.3"⟩, some 1⟩]

/-- Sorting by version, with latencies near each other below 50 ms. -/
def fiftyMillis : SortConfig := ⟨true, none, some 50⟩

end Services

open Services in
/-- The two services are in no order: asked for the faster one first, the comparator draws its
answer. -/
theorem sortServiceTimings_not_orders :
    ¬ Orders (fun _ ↦ some (0 : ℕ)) fiftyMillis slowAndFast := by
  intro h
  have hne : (⟨0, by decide⟩ : Fin slowAndFast.length) ≠ ⟨1, by decide⟩ := by decide
  have hfits := fits_of_consistent (h.weakOrder.consistent hne)
  obtain ⟨⟨v, hv⟩, -, hnear⟩ := hfits
  rcases hnear ⟨v, hv, hv⟩ 50 rfl with hlt | hle
  · norm_num [slowAndFast] at hlt
  · norm_num [slowAndFast] at hle

end ColivingSpec
