import ColivingSpec.Libs.ContentNodeSelection
import Mathlib.Data.List.Perm.Subperm

/-!
# Which nodes are healthy

A node that reports no percentage of its own is judged by the last one that was reported before it,
not by the configured one. Apart from that each node is judged by its own response, and what is
selected among the healthy nodes is right whatever the order they are sorted in.
-/

namespace ColivingSpec

open Lib List

namespace NodeSelection

variable {majorMinor : String → Option (ℕ × ℕ)} {setting : Setting}
variable {response : HealthResponse} {current configured : ℚ}

/-- The response can be judged at all. -/
def Judgeable (majorMinor : String → Option (ℕ × ℕ)) (setting : Setting)
    (response : HealthResponse) (data : HealthData) (v w : ℕ × ℕ) : Prop :=
  response.data = some data ∧ parsed majorMinor setting.currentVersion = .ok v ∧
    parsed majorMinor data.version = .ok w

theorem hasSameMajorAndMinorVersion_eq {a b : Option String} {v w : ℕ × ℕ}
    (ha : parsed majorMinor a = .ok v) (hb : parsed majorMinor b = .ok w) :
    hasSameMajorAndMinorVersion majorMinor a b = .ok (decide (v = w)) := by
  rw [hasSameMajorAndMinorVersion, ha, ok_bind, hb, ok_bind]
  apply congrArg Except.ok
  simp [Prod.ext_iff]

theorem verdict_eq {data : HealthData} {v w : ℕ × ℕ}
    (h : Judgeable majorMinor setting response data v w) (current : ℚ) :
    verdict majorMinor setting response current =
      .ok (response.status = 200 && v = w && hasEnoughStorageSpace (data.threshold current)
        data.storagePathSize data.storagePathUsed, data.threshold current) := by
  obtain ⟨hdata, hv, hw⟩ := h
  rw [verdict, hdata]
  show (hasSameMajorAndMinorVersion majorMinor setting.currentVersion data.version >>= _) = _
  rw [hasSameMajorAndMinorVersion_eq hv hw]
  rfl

/-- A response for which nothing is thrown can be judged. -/
theorem judgeable_of_verdict {result : Bool × ℚ}
    (h : verdict majorMinor setting response current = .ok result) :
    ∃ data v w, Judgeable majorMinor setting response data v w := by
  obtain ⟨data, hdata, h⟩ := bind_eq_ok.mp h
  obtain ⟨same, hsame, -⟩ := bind_eq_ok.mp h
  obtain ⟨v, hv, hsame⟩ := bind_eq_ok.mp hsame
  obtain ⟨w, hw, -⟩ := bind_eq_ok.mp hsame
  cases hresponse : response.data with
  | none => simp [hresponse] at hdata
  | some data' =>
    rw [hresponse] at hdata
    cases hdata
    exact ⟨_, v, w, hresponse, hv, hw⟩

/-- A response that is judged alike has one verdict under both percentages. -/
theorem judgedAlike_iff :
    JudgedAlike majorMinor setting configured current response ↔
      ∃ pass percent percent', verdict majorMinor setting response current = .ok (pass, percent) ∧
        verdict majorMinor setting response configured = .ok (pass, percent') := by
  constructor
  · rintro ⟨data, v, w, hdata, hv, hw, halike⟩
    have hjudgeable : Judgeable majorMinor setting response data v w := ⟨hdata, hv, hw⟩
    refine ⟨_, _, data.threshold configured, verdict_eq hjudgeable current, ?_⟩
    rw [verdict_eq hjudgeable configured]
    by_cases hup : response.status = 200
    · by_cases hsame : v = w
      · rw [halike hup hsame]
      · simp [hsame]
    · simp [hup]
  · rintro ⟨pass, percent, percent', hcurrent, hconfigured⟩
    obtain ⟨data, v, w, hjudgeable⟩ := judgeable_of_verdict hcurrent
    refine ⟨data, v, w, hjudgeable.1, hjudgeable.2.1, hjudgeable.2.2, fun hup hsame ↦ ?_⟩
    rw [verdict_eq hjudgeable] at hcurrent hconfigured
    cases hcurrent
    rw [Except.ok.injEq, Prod.mk.injEq] at hconfigured
    simpa [hup, hsame] using hconfigured.1.symm

/-! ### One endpoint after the other -/

variable {selector selector' : Selector} {endpoint : String} {pass : Bool}

/-- An endpoint is marked by the verdict on its response under the kept percentage, and a response
that is judged leaves its own percentage if it has one. -/
theorem checkHealth_eq_ok
    (h : checkHealth majorMinor setting selector endpoint = .ok (pass, selector')) :
    (pass = true ↔ Passes majorMinor setting selector.maxStorageUsedPercent endpoint) ∧
      selector'.maxStorageUsedPercent =
        carried setting selector.maxStorageUsedPercent [endpoint] ∧
      selector'.unhealthy =
        if pass then selector.unhealthy else selector.unhealthy ++ [endpoint] := by
  obtain ⟨⟨pass', percent⟩, hverdict, hok⟩ := bind_eq_ok.mp h
  cases hok
  unfold Passes carried
  unfold verdictOf at hverdict
  cases hhealth : setting.health endpoint with
  | none =>
    rw [hhealth] at hverdict
    cases hverdict
    simp [hhealth]
  | some response =>
    rw [hhealth] at hverdict
    obtain ⟨data, v, w, hjudgeable⟩ := judgeable_of_verdict hverdict
    have hpercent : percent = data.threshold selector.maxStorageUsedPercent := by
      have heq := (verdict_eq hjudgeable selector.maxStorageUsedPercent).symm.trans hverdict
      cases heq
      rfl
    refine ⟨⟨?_, ?_⟩, ?_, rfl⟩
    · rintro rfl
      exact ⟨response, percent, rfl, hverdict⟩
    · rintro ⟨response', percent', hresponse, hpasses⟩
      cases hresponse
      cases hverdict.symm.trans hpasses
      rfl
    · simp [hhealth, hjudgeable.1, hpercent]

variable (selector) in
/-- An endpoint can be checked when its response, if it has one, can be judged. -/
theorem succeeds_checkHealth (h : ∀ response, setting.health endpoint = some response →
    ∃ data v w, Judgeable majorMinor setting response data v w) :
    Succeeds (checkHealth majorMinor setting selector endpoint) := by
  unfold checkHealth verdictOf
  cases hhealth : setting.health endpoint with
  | none => exact ⟨_, rfl⟩
  | some response =>
    obtain ⟨data, v, w, hjudgeable⟩ := h response hhealth
    dsimp only
    rw [verdict_eq hjudgeable, ok_bind]
    exact ⟨_, rfl⟩

/-- A response of a checked endpoint has been judged. -/
theorem judgeable_of_checkHealth (h : Succeeds (checkHealth majorMinor setting selector endpoint))
    (hhealth : setting.health endpoint = some response) :
    ∃ data v w, Judgeable majorMinor setting response data v w := by
  obtain ⟨result, h⟩ := h
  obtain ⟨judged, hverdict, -⟩ := bind_eq_ok.mp h
  rw [verdictOf, hhealth] at hverdict
  exact judgeable_of_verdict hverdict

variable {endpoints healthy : List String} {service : String} {performSyncCheck : Bool}
  {services : List String}

/-- The responses of a list of endpoints can all be judged just when nothing is thrown. -/
theorem succeeds_filterHealthy_iff :
    Succeeds (filterHealthy majorMinor setting selector endpoints) ↔
      ∀ endpoint ∈ endpoints, ∀ response, setting.health endpoint = some response →
        ∃ data v w, Judgeable majorMinor setting response data v w := by
  induction endpoints generalizing selector with
  | nil => exact iff_of_true ⟨_, rfl⟩ (by simp)
  | cons endpoint rest ih =>
    rw [forall_mem_cons]
    constructor
    · rintro ⟨result, h⟩
      obtain ⟨⟨pass, selector'⟩, hcheck, h⟩ := bind_eq_ok.mp h
      obtain ⟨result', hrest, -⟩ := bind_eq_ok.mp h
      exact ⟨fun response ↦ judgeable_of_checkHealth ⟨_, hcheck⟩, ih.mp ⟨result', hrest⟩⟩
    · rintro ⟨hfirst, hrest⟩
      obtain ⟨⟨pass, selector'⟩, hcheck⟩ := succeeds_checkHealth selector hfirst
      obtain ⟨result, hresult⟩ := (@ih selector').mpr hrest
      rw [filterHealthy, hcheck, ok_bind]
      dsimp only
      rw [hresult]
      exact ⟨_, rfl⟩

/-- The healthy ones are among the endpoints, in their order. -/
theorem sublist_of_filterHealthy
    (h : filterHealthy majorMinor setting selector endpoints = .ok (healthy, selector')) :
    healthy.Sublist endpoints := by
  induction endpoints generalizing selector healthy with
  | nil =>
    cases h
    exact Sublist.refl _
  | cons endpoint rest ih =>
    obtain ⟨⟨pass, _⟩, -, h⟩ := bind_eq_ok.mp h
    obtain ⟨⟨healthy', _⟩, hrest, hok⟩ := bind_eq_ok.mp h
    cases hok
    cases pass with
    | true => exact (ih hrest).cons_cons endpoint
    | false => exact (ih hrest).cons endpoint

/-- The unhealthy ones are those from before and the endpoints that are not healthy. -/
theorem mem_unhealthy_of_filterHealthy
    (h : filterHealthy majorMinor setting selector endpoints = .ok (healthy, selector'))
    (hnodup : endpoints.Nodup) (other : String) :
    other ∈ selector'.unhealthy ↔
      other ∈ selector.unhealthy ∨ other ∈ endpoints ∧ other ∉ healthy := by
  induction endpoints generalizing selector healthy with
  | nil =>
    cases h
    simp
  | cons endpoint rest ih =>
    obtain ⟨⟨pass, selector''⟩, hcheck, h⟩ := bind_eq_ok.mp h
    obtain ⟨⟨healthy', _⟩, hrest, hok⟩ := bind_eq_ok.mp h
    cases hok
    obtain ⟨hnew, hnodup⟩ := nodup_cons.mp hnodup
    have hsub := (sublist_of_filterHealthy hrest).subset
    rw [ih hrest hnodup, (checkHealth_eq_ok hcheck).2.2]
    cases pass with
    | true =>
      simp only [if_true, mem_cons, not_or]
      constructor
      · rintro (hold | ⟨hmem, hnot⟩)
        · exact .inl hold
        · exact .inr ⟨.inr hmem, fun heq ↦ hnew (heq ▸ hmem), hnot⟩
      · rintro (hold | ⟨heq | hmem, hne, hnot⟩)
        · exact .inl hold
        · exact absurd heq hne
        · exact .inr ⟨hmem, hnot⟩
    | false =>
      simp only [Bool.false_eq_true, if_false, mem_append, mem_cons, not_mem_nil, or_false]
      constructor
      · rintro ((hold | rfl) | ⟨hmem, hnot⟩)
        · exact .inl hold
        · exact .inr ⟨.inl rfl, fun hmem ↦ hnew (hsub hmem)⟩
        · exact .inr ⟨.inr hmem, hnot⟩
      · rintro (hold | ⟨rfl | hmem, hnot⟩)
        · exact .inl (.inl hold)
        · exact .inl (.inr rfl)
        · exact .inr ⟨hmem, hnot⟩

/-- An endpoint is healthy when it passes under the percentage kept after those before it. -/
theorem mem_of_filterHealthy {before after : List String}
    (h : filterHealthy majorMinor setting selector endpoints = .ok (healthy, selector'))
    (hnodup : endpoints.Nodup) (hsplit : endpoints = before ++ endpoint :: after) :
    endpoint ∈ healthy ↔
      Passes majorMinor setting (carried setting selector.maxStorageUsedPercent before)
        endpoint := by
  induction endpoints generalizing selector healthy before with
  | nil => simp at hsplit
  | cons first rest ih =>
    obtain ⟨⟨pass, selector''⟩, hcheck, h⟩ := bind_eq_ok.mp h
    obtain ⟨⟨healthy', _⟩, hrest, hok⟩ := bind_eq_ok.mp h
    cases hok
    obtain ⟨hpass, hkept, -⟩ := checkHealth_eq_ok hcheck
    obtain ⟨hnew, hnodup⟩ := nodup_cons.mp hnodup
    cases before with
    | nil =>
      cases hsplit
      have hnot : endpoint ∉ healthy' :=
        fun hmem ↦ hnew ((sublist_of_filterHealthy hrest).subset hmem)
      show endpoint ∈ (if pass = true then endpoint :: healthy' else healthy') ↔
        Passes majorMinor setting selector.maxStorageUsedPercent endpoint
      rw [← hpass]
      cases pass with
      | true => simp
      | false => simpa using hnot
    | cons _ before =>
      cases hsplit
      have hne : endpoint ≠ first := by
        rintro rfl
        exact hnew (by simp)
      have hmem : endpoint ∈ (if pass = true then first :: healthy' else healthy') ↔
          endpoint ∈ healthy' := by
        cases pass with
        | true => simp [hne]
        | false => simp
      rw [hmem, ih hrest hnodup rfl, hkept]
      rfl

/-! ### The selection among the healthy nodes -/

theorem sliceTo_sublist {α : Type} (last : ℤ) (l : List α) : (sliceTo last l).Sublist l := by
  unfold sliceTo
  split
  · exact take_sublist _ l
  · exact take_sublist _ l

theorem length_sliceTo_le {α : Type} {last : ℤ} (h : 0 ≤ last) (l : List α) :
    ((sliceTo last l).length : ℤ) ≤ last := by
  rw [sliceTo, if_pos h, length_take]
  omega

/-- The secondaries are distinct backups. -/
theorem getSecondaries_subperm {backupsList : List String} :
    (getSecondaries setting backupsList).Subperm backupsList := by
  unfold getSecondaries
  split
  · exact (sliceTo_sublist _ _).subperm.trans (setting.backups.perm backupsList).subperm
  · exact (sliceTo_sublist _ _).subperm

/-- The checked services are distinct, and allowed. -/
theorem allowedServices_sublist : (allowedServices setting).Sublist setting.services := by
  unfold allowedServices
  cases setting.whitelist <;> cases setting.blacklist <;> dsimp only [Option.elim]
  · exact Sublist.refl _
  · exact filter_sublist
  · exact filter_sublist
  · exact filter_sublist.trans filter_sublist

theorem allowed_of_mem (h : service ∈ allowedServices setting) :
    Allowed setting service := by
  refine ⟨allowedServices_sublist.subset h, fun whitelist hwhitelist ↦ ?_,
    fun blacklist hblacklist ↦ ?_⟩
  · rw [allowedServices, hwhitelist] at h
    cases hblacklist : setting.blacklist with
    | none =>
      rw [hblacklist] at h
      simpa using (mem_filter.mp h).2
    | some blacklist =>
      rw [hblacklist] at h
      simpa using (mem_filter.mp (mem_filter.mp h).1).2
  · rw [allowedServices, hblacklist] at h
    simpa using (mem_filter.mp h).2

theorem checkedServices_sublist :
    (checkedServices setting performSyncCheck).Sublist (allowedServices setting) := by
  unfold checkedServices
  split
  · exact filter_sublist
  · exact Sublist.refl _

theorem nodup_checkedServices :
    (checkedServices setting performSyncCheck).Nodup :=
  setting.nodup.sublist (checkedServices_sublist.trans allowedServices_sublist)

/-- The services that fail the sync check. -/
def unsyncedServices (setting : Setting) (performSyncCheck : Bool) : List String :=
  if performSyncCheck then
    (allowedServices setting).filter fun service ↦ !synced setting service else []

theorem not_mem_unsyncedServices (h : service ∈ checkedServices setting performSyncCheck) :
    service ∉ unsyncedServices setting performSyncCheck := by
  cases performSyncCheck with
  | false => exact not_mem_nil
  | true =>
    intro hmem
    have hsynced := (mem_filter.mp h).2
    have hnot := (mem_filter.mp hmem).2
    rw [hsynced] at hnot
    cases hnot

/-- The primary that is selected among healthy services. -/
def primaryOf (setting : Setting) (services : List String) : Option String :=
  if setting.preferHigherPatchForPrimary then (setting.healthy.sort services).head?
  else services.head?

theorem mem_of_primaryOf {primary : String} (h : primaryOf setting services = some primary) :
    primary ∈ services := by
  unfold primaryOf at h
  split at h
  · exact (setting.healthy.perm services).mem_iff.mp (mem_of_head? h)
  · exact mem_of_head? h

/-- What `select` returns, in terms of the healthy services. -/
theorem select_eq_ok_iff {selection : Selection} :
    select majorMinor setting performSyncCheck current = .ok (selection, selector') ↔
      ∃ services, filterHealthy majorMinor setting
          ⟨current, unsyncedServices setting performSyncCheck⟩
          (setting.responses.sort (checkedServices setting performSyncCheck)) =
            .ok (services, selector') ∧
        selection = ⟨primaryOf setting services, getSecondaries setting
          (services.filter fun service ↦ some service ≠ primaryOf setting services), services⟩ := by
  unfold select performHealthChecks
  rw [bind_eq_ok]
  constructor
  · rintro ⟨⟨services, selector⟩, hservices, hok⟩
    cases hok
    exact ⟨services, hservices, rfl⟩
  · rintro ⟨services, hservices, rfl⟩
    exact ⟨(services, selector'), hservices, rfl⟩

/-- Among distinct healthy services the primary and the secondaries are distinct. -/
theorem nodup_selected (h : services.Nodup) :
    ((primaryOf setting services).toList ++ getSecondaries setting
      (services.filter fun service ↦ some service ≠ primaryOf setting services)).Nodup := by
  have hsub := @getSecondaries_subperm setting
    (services.filter fun service ↦ some service ≠ primaryOf setting services)
  have hsecondaries : (getSecondaries setting
      (services.filter fun service ↦ some service ≠ primaryOf setting services)).Nodup := by
    obtain ⟨l, hperm, hsublist⟩ := hsub
    exact hperm.nodup_iff.mp ((h.filter _).sublist hsublist)
  rw [nodup_append]
  refine ⟨?_, hsecondaries, ?_⟩
  · cases primaryOf setting services with
    | none => exact nodup_nil
    | some primary => exact nodup_singleton primary
  · rintro primary hprimary secondary hsecondary rfl
    have hmem := (mem_filter.mp (hsub.subset hsecondary)).2
    rw [Option.mem_toList] at hprimary
    rw [hprimary] at hmem
    simp at hmem

/-- The primary and the secondaries are healthy. -/
theorem mem_of_selected (h : service ∈ (primaryOf setting services).toList ++ getSecondaries setting
      (services.filter fun service ↦ some service ≠ primaryOf setting services)) :
    service ∈ services := by
  rcases mem_append.mp h with hprimary | hsecondary
  · exact mem_of_primaryOf (Option.mem_toList.mp hprimary)
  · exact (mem_filter.mp (getSecondaries_subperm.subset hsecondary)).1

theorem passes_iff {percent : ℚ} (hhealth : setting.health endpoint = some response)
    (hverdict : verdict majorMinor setting response current = .ok (pass, percent)) :
    Passes majorMinor setting current endpoint ↔ pass = true := by
  constructor
  · rintro ⟨response', percent', hresponse, hpasses⟩
    cases hhealth.symm.trans hresponse
    cases hverdict.symm.trans hpasses
    rfl
  · rintro rfl
    exact ⟨response, percent, hhealth, hverdict⟩

end NodeSelection

open NodeSelection in
/-- A selection marks each node by its own response under the configured percentage, and selects
distinct, healthy and allowed nodes, just when at least one node is wanted and each response can be
judged, alike under the configured percentage and under the one kept from the responses before. -/
theorem select_right_iff (majorMinor : String → Option (ℕ × ℕ)) (setting : Setting)
    (performSyncCheck : Bool) (configured current : ℚ) :
    (∃ selection selector,
      select majorMinor setting performSyncCheck current = .ok (selection, selector) ∧
        Right majorMinor setting configured performSyncCheck selection selector) ↔
      1 ≤ setting.numberOfNodes ∧ ∀ before endpoint after,
        setting.responses.sort (checkedServices setting performSyncCheck) =
          before ++ endpoint :: after →
        ∀ response, setting.health endpoint = some response →
          JudgedAlike majorMinor setting configured (carried setting current before) response := by
  have hperm := setting.responses.perm (checkedServices setting performSyncCheck)
  have hnodup := hperm.nodup_iff.mpr nodup_checkedServices
  constructor
  · rintro ⟨selection, selector, hselect, hright⟩
    obtain ⟨services, hfilter, rfl⟩ := select_eq_ok_iff.mp hselect
    have hlength := hright.length_le
    refine ⟨by omega, fun before endpoint after hsplit response hhealth ↦ ?_⟩
    have hmem : endpoint ∈ checkedServices setting performSyncCheck := by
      rw [← hperm.mem_iff, hsplit]
      simp
    obtain ⟨data, v, w, hjudgeable⟩ := succeeds_filterHealthy_iff.mp ⟨_, hfilter⟩ endpoint
      (hperm.mem_iff.mpr hmem) response hhealth
    have hcarried := mem_of_filterHealthy hfilter hnodup hsplit
    rw [hright.healthy endpoint hmem, passes_iff hhealth (verdict_eq hjudgeable _),
      passes_iff hhealth (verdict_eq hjudgeable _), ← Bool.eq_iff_iff] at hcarried
    rw [judgedAlike_iff]
    refine ⟨_, _, data.threshold configured, verdict_eq hjudgeable _, ?_⟩
    rw [verdict_eq hjudgeable, hcarried]
  · rintro ⟨hnodes, halike⟩
    have hall : ∀ endpoint ∈ checkedServices setting performSyncCheck, ∃ before after,
        setting.responses.sort (checkedServices setting performSyncCheck) =
          before ++ endpoint :: after := by
      intro endpoint hmem
      exact List.append_of_mem (hperm.mem_iff.mpr hmem)
    have hsucceeds : Succeeds (filterHealthy majorMinor setting
        ⟨current, unsyncedServices setting performSyncCheck⟩
        (setting.responses.sort (checkedServices setting performSyncCheck))) := by
      rw [succeeds_filterHealthy_iff]
      intro endpoint hmem response hhealth
      obtain ⟨before, after, hsplit⟩ := hall endpoint (hperm.mem_iff.mp hmem)
      obtain ⟨data, v, w, hdata, hv, hw, -⟩ := halike before endpoint after hsplit response hhealth
      exact ⟨data, v, w, hdata, hv, hw⟩
    obtain ⟨⟨services, selector⟩, hfilter⟩ := hsucceeds
    have hhealthy : ∀ endpoint ∈ checkedServices setting performSyncCheck,
        (endpoint ∈ services ↔ NodeSelection.Passes majorMinor setting configured endpoint) := by
      intro endpoint hmem
      obtain ⟨before, after, hsplit⟩ := hall endpoint hmem
      rw [mem_of_filterHealthy hfilter hnodup hsplit]
      cases hhealth : setting.health endpoint with
      | none => simp [NodeSelection.Passes, hhealth]
      | some response =>
        obtain ⟨pass, percent, percent', hcurrent, hconfigured⟩ :=
          judgedAlike_iff.mp (halike before endpoint after hsplit response hhealth)
        rw [passes_iff hhealth hcurrent, passes_iff hhealth hconfigured]
    have hsub := sublist_of_filterHealthy hfilter
    refine ⟨_, selector, select_eq_ok_iff.mpr ⟨services, hfilter, rfl⟩, hhealthy, ?_, ?_, ?_, ?_⟩
    · intro endpoint hmem
      rw [mem_unhealthy_of_filterHealthy hfilter hnodup, ← hhealthy endpoint hmem]
      have hnot := not_mem_unsyncedServices hmem
      simp [hnot, hperm.mem_iff, hmem]
    · exact nodup_selected (hnodup.sublist hsub)
    · intro service hservice
      have hmem := mem_of_selected hservice
      have hchecked := hperm.mem_iff.mp (hsub.subset hmem)
      exact ⟨hmem, allowed_of_mem (checkedServices_sublist.subset hchecked)⟩
    · show ((getSecondaries setting _).length : ℤ) ≤ _
      unfold getSecondaries
      split
      · exact length_sliceTo_le (by omega) _
      · exact length_sliceTo_le (by omega) _

namespace NodeSelection

/-- Two registered nodes that are up to date, of which the first one reports that half of its
storage may be used and the second one, with 90 per cent used, reports nothing. -/
def leakingSetting : Setting where
  currentVersion := some "0.3.65"
  whitelist := none
  blacklist := none
  numberOfNodes := 3
  preferHigherPatchForPrimary := true
  preferHigherPatchForSecondaries := true
  services := ["https://cn1.example", "https://cn2.example"]
  nodup := by decide
  syncStatus _ := some (false, true)
  health endpoint := some ⟨200, some (if endpoint = "https://cn1.example"
    then ⟨some "0.3.65", some 100, some 10, some 50⟩
    else ⟨some "0.3.65", some 100, some 90, none⟩)⟩
  responses := ⟨id, fun l ↦ List.Perm.refl l⟩
  healthy := ⟨id, fun l ↦ List.Perm.refl l⟩
  backups := ⟨id, fun l ↦ List.Perm.refl l⟩

end NodeSelection

open NodeSelection in
/-- Configured with 95 per cent, the second node passes by its own response and is not marked
healthy. -/
theorem select_not_right :
    ¬ ∃ selection selector,
      select (fun _ ↦ some (0, 3)) leakingSetting true 95 = .ok (selection, selector) ∧
        Right (fun _ ↦ some (0, 3)) leakingSetting 95 true selection selector := by
  rintro ⟨selection, selector, hselect, hright⟩
  have hpasses :
      NodeSelection.Passes (fun _ ↦ some (0, 3)) leakingSetting 95 "https://cn2.example" :=
    ⟨_, 95, rfl, by decide +kernel⟩
  have hmem := (hright.healthy "https://cn2.example" (by decide +kernel)).mpr hpasses
  have hservices : selection.services = ["https://cn1.example"] := by
    have hselected : ((select (fun _ ↦ some (0, 3)) leakingSetting true 95).toOption.map
        fun r ↦ r.1.services) = some ["https://cn1.example"] := by
      decide +kernel
    rw [hselect] at hselected
    exact Option.some.inj hselected
  rw [hservices] at hmem
  simp at hmem

end ColivingSpec
