import ColivingSpec.Discovery.ChallengeRows

/-!
# Streaks of listens

A listen counts for a streak when it comes at least a day after the last one that did; two days
after, it starts the streak anew. A row remembers its last listen and the length of the streak, so
one listen leaves the row that several leave only in a few cases, which are given here by the dates
alone.
-/

namespace ColivingSpec.Discovery

namespace Challenges

variable (last : Option ℤ) (created_at : ℤ) (dates : List ℤ)

/-- Whether a listen counts, by the last one that did. -/
def counts : Bool :=
  last.all fun date ↦ decide (created_at - date ≥ day)

/-- The listens that count. -/
def counted : Option ℤ → List ℤ → List ℤ
  | _, [] => []
  | last, created_at :: rest =>
    if counts last created_at then created_at :: counted (some created_at) rest
    else counted last rest

/-- The row after some listens. -/
def listens (streak : ChallengeListenStreak) : ChallengeListenStreak :=
  dates.foldl (fun streak created_at ↦ listen created_at streak) streak

/-- One listen stands for the others: none of them counts and it does not either, or it is the last
one that counts, which is the only one or starts the streak anew. -/
def StandsFor : Prop :=
  match (counted last dates).reverse with
  | [] => counts last created_at = false
  | [date] => created_at = date
  | date :: before :: _ => created_at = date ∧ date - before ≥ 2 * day

/-! ### One listen -/

variable {streak : ChallengeListenStreak} (created_at : ℤ) {created_at : ℤ}

theorem listen_of_not_counts (h : counts streak.last_listen_date created_at = false) :
    listen created_at streak = streak := by
  unfold listen
  cases hlast : streak.last_listen_date with
  | none =>
    rw [hlast] at h
    cases h
  | some date =>
    rw [hlast] at h
    dsimp only
    rw [if_neg (of_decide_eq_false h)]

/-- A listen that counts is remembered, and the streak goes on or starts anew. -/
theorem listen_of_counts (h : counts streak.last_listen_date created_at = true) :
    listen created_at streak = ⟨some created_at,
      if streak.last_listen_date.all fun date ↦ decide (created_at - date ≥ 2 * day) then 1
      else streak.listen_streak + 1⟩ := by
  unfold listen
  cases hlast : streak.last_listen_date with
  | none => rfl
  | some date =>
    rw [hlast] at h
    dsimp only [Option.all_some]
    rw [if_pos (of_decide_eq_true h)]
    by_cases htwo : created_at - date ≥ 2 * day
    · rw [if_pos htwo, if_pos (decide_eq_true htwo)]
    · rw [if_neg htwo, if_neg (by simpa using htwo)]

/-- A streak is not negative, and not 0 after a listen that counts. -/
theorem listen_streak_nonneg (hpos : 0 ≤ streak.listen_streak) :
    0 ≤ (listen created_at streak).listen_streak := by
  cases h : counts streak.last_listen_date created_at with
  | false =>
    rw [listen_of_not_counts h]
    exact hpos
  | true =>
    rw [listen_of_counts h]
    dsimp only
    split <;> omega

/-- A listen never counts twice. -/
theorem not_counts_self : counts (some created_at) created_at = false := by
  have hsame : ¬ created_at - created_at ≥ day := by
    unfold day
    omega
  exact decide_eq_false hsame

/-! ### Several listens -/

theorem listens_concat (dates : List ℤ) (created_at : ℤ) (streak : ChallengeListenStreak) :
    listens (dates ++ [created_at]) streak = listen created_at (listens dates streak) :=
  List.foldl_concat ..

theorem counted_concat : ∀ (dates : List ℤ) (streak : ChallengeListenStreak),
    counted streak.last_listen_date (dates ++ [created_at]) =
      counted streak.last_listen_date dates ++
        if counts (listens dates streak).last_listen_date created_at then [created_at] else [] := by
  intro dates
  induction dates with
  | nil =>
    intro streak
    rfl
  | cons date rest ih =>
    intro streak
    have hnext := ih (listen date streak)
    rw [List.cons_append]
    unfold counted
    cases h : counts streak.last_listen_date date with
    | false =>
      rw [listen_of_not_counts h] at hnext
      rw [if_neg Bool.false_ne_true, if_neg Bool.false_ne_true, hnext]
      unfold listens
      rw [List.foldl_cons, listen_of_not_counts h]
    | true =>
      have hlast : (listen date streak).last_listen_date = some date := by
        rw [listen_of_counts h]
      rw [hlast] at hnext
      rw [if_pos rfl, if_pos rfl, hnext]
      rfl

/-- The row after some listens, by those that count. -/
def RowOf (streak : ChallengeListenStreak) (row : ChallengeListenStreak) : List ℤ → Prop
  | [] => row = streak
  | [date] => counts streak.last_listen_date date = true ∧ row = listen date streak
  | date :: before :: _ =>
    date - before ≥ day ∧ (∀ first, streak.last_listen_date = some first → before - first ≥ day) ∧
      ∃ listen_streak, row = ⟨some date, listen_streak⟩ ∧ 1 ≤ listen_streak ∧
        (listen_streak = 1 ↔ date - before ≥ 2 * day)

theorem RowOf.listen {row : ChallengeListenStreak} (hpos : 0 ≤ streak.listen_streak)
    {dates : List ℤ} (h : RowOf streak row dates)
    (hcounts : counts row.last_listen_date created_at = true) :
    RowOf streak (listen created_at row) (created_at :: dates) := by
  -- a second listen follows a row that remembers the one before it, with a streak of one or more
  have hnext : ∀ {date listen_streak}, row = ⟨some date, listen_streak⟩ → 1 ≤ listen_streak →
      created_at - date ≥ day ∧
        ∃ listen_streak, Challenges.listen created_at row = ⟨some created_at, listen_streak⟩ ∧
          1 ≤ listen_streak ∧ (listen_streak = 1 ↔ created_at - date ≥ 2 * day) := by
    rintro date listen_streak rfl hone
    refine ⟨of_decide_eq_true hcounts, _, listen_of_counts hcounts, ?_⟩
    rw [Option.all_some]
    by_cases htwo : created_at - date ≥ 2 * day
    · rw [if_pos (decide_eq_true htwo)]
      simp [htwo]
    · rw [if_neg (by simpa using htwo)]
      dsimp only
      constructor
      · omega
      · constructor
        · intro heq
          omega
        · intro hge
          exact absurd hge htwo
  match dates, h with
  | [], h =>
    subst h
    exact ⟨hcounts, rfl⟩
  | [date], ⟨hfirst, hrow⟩ =>
    rw [listen_of_counts hfirst] at hrow
    obtain ⟨hday, hstreak⟩ := hnext hrow (by split <;> omega)
    refine ⟨hday, ?_, hstreak⟩
    intro first hlast
    rw [hlast] at hfirst
    exact of_decide_eq_true hfirst
  | date :: before :: _, ⟨hday, hfirst, listen_streak, hrow, hone, _⟩ =>
    obtain ⟨hday', hstreak⟩ := hnext hrow hone
    refine ⟨hday', ?_, hstreak⟩
    intro first hlast
    have hbefore := hfirst first hlast
    unfold day at hday hbefore ⊢
    omega

theorem rowOf_listens (hpos : 0 ≤ streak.listen_streak) (dates : List ℤ) :
    RowOf streak (listens dates streak) (counted streak.last_listen_date dates).reverse := by
  induction dates using List.reverseRecOn with
  | nil => rfl
  | append_singleton dates created_at ih =>
    rw [listens_concat, counted_concat]
    cases h : counts (listens dates streak).last_listen_date created_at with
    | false =>
      rw [if_neg Bool.false_ne_true, List.append_nil, listen_of_not_counts h]
      exact ih
    | true =>
      rw [if_pos rfl, List.reverse_concat]
      exact ih.listen hpos h

/-- One listen leaves the row that some listens leave exactly where it stands for them. -/
theorem listens_eq_listen_iff (hpos : 0 ≤ streak.listen_streak) (dates : List ℤ) (created_at : ℤ) :
    listens dates streak = listen created_at streak ↔
      StandsFor streak.last_listen_date created_at dates := by
  have hrow := rowOf_listens hpos dates
  -- the date the row remembers is that of a listen that counts
  have hdate : ∀ {date}, counts streak.last_listen_date date = true →
      ∀ {row : ChallengeListenStreak}, row.last_listen_date = some date →
        row = listen created_at streak → created_at = date := by
    intro date hcounts row hlast heq
    cases h : counts streak.last_listen_date created_at with
    | false =>
      rw [heq, listen_of_not_counts h] at hlast
      rw [hlast, not_counts_self] at hcounts
      cases hcounts
    | true =>
      rw [heq, listen_of_counts h] at hlast
      exact Option.some.inj hlast
  unfold StandsFor
  generalize (counted streak.last_listen_date dates).reverse = reversed at hrow ⊢
  generalize listens dates streak = row at hrow ⊢
  match reversed, hrow with
  | [], hrow =>
    rw [show row = streak from hrow]
    constructor
    · intro heq
      rw [← Bool.not_eq_true]
      intro hcounts
      have hlast : streak.last_listen_date = some created_at := by
        rw [heq, listen_of_counts hcounts]
      rw [hlast, not_counts_self] at hcounts
      cases hcounts
    · intro hnot
      rw [listen_of_not_counts hnot]
  | [date], ⟨hcounts, hrow⟩ =>
    constructor
    · intro heq
      exact hdate hcounts (by rw [hrow, listen_of_counts hcounts]) heq
    · rintro rfl
      exact hrow
  | date :: before :: _, ⟨hday, hfirst, listen_streak, hrow, hone, htwo⟩ =>
    -- the last listen comes more than two days after the row that was there before them
    have hlong : ∀ first, streak.last_listen_date = some first → date - first ≥ 2 * day := by
      intro first hlast
      have hbefore := hfirst first hlast
      omega
    have hall : (streak.last_listen_date.all fun first ↦ decide (date - first ≥ 2 * day)) =
        true := by
      cases hlast : streak.last_listen_date with
      | none => rfl
      | some first => exact decide_eq_true (hlong first hlast)
    have hcounts : counts streak.last_listen_date date = true := by
      cases hlast : streak.last_listen_date with
      | none => rfl
      | some first =>
        have hfar := hlong first hlast
        refine decide_eq_true ?_
        unfold day at hfar ⊢
        omega
    have hanew : listen date streak = ⟨some date, 1⟩ := by
      rw [listen_of_counts hcounts, if_pos hall]
    constructor
    · intro heq
      obtain rfl := hdate hcounts (by rw [hrow]) heq
      rw [hanew, hrow] at heq
      exact ⟨rfl, htwo.mp (congrArg ChallengeListenStreak.listen_streak heq)⟩
    · rintro ⟨rfl, hfar⟩
      rw [hanew, hrow, htwo.mpr hfar]

end Challenges

end ColivingSpec.Discovery
