import Mathlib.Data.List.Nodup

/-!
# Keys set if absent

Owners take a key by setting it where it is absent, and give it back by sending a deletion
that is carried out later or lost. Setting may also succeed without its owner being told. A
key has at most one owner, and none while its deletion is on the way.
-/

namespace ColivingSpec.Lib

open Function

/-- The keys that are set, the deletions on the way, and who owns what. -/
structure LockTable (ι κ : Type) where
  locked : κ → Bool
  deletions : List κ
  holds : ι → Option κ

namespace LockTable

variable {ι κ : Type} [DecidableEq ι] [DecidableEq κ]

/-- What can happen to a table. -/
inductive Step (t : LockTable ι κ) : LockTable ι κ → Prop where
  | skip : Step t t
  | take {i : ι} {k : κ} (hfree : t.locked k = false) : Step t
      { t with
        locked := Function.update t.locked k true
        holds := Function.update t.holds i (some k) }
  | leak (k : κ) : Step t { t with locked := Function.update t.locked k true }
  | giveBack {i : ι} {k : κ} (hholds : t.holds i = some k) : Step t
      { t with
        deletions := t.deletions ++ [k]
        holds := Function.update t.holds i none }
  | delete {k : κ} (hsent : k ∈ t.deletions) (applied : Bool) : Step t
      { t with
        deletions := t.deletions.erase k
        locked := if applied then Function.update t.locked k false else t.locked }

/-- A key has at most one owner. -/
def Exclusive (t : LockTable ι κ) : Prop :=
  ∀ i j k, t.holds i = some k → t.holds j = some k → i = j

/-- What keeps owners apart: a key that is owned, or about to be deleted, is set, and it is not
both. -/
structure Guarded (t : LockTable ι κ) : Prop where
  held : ∀ i k, t.holds i = some k → t.locked k = true
  kept : ∀ i k, t.holds i = some k → k ∉ t.deletions
  pending : ∀ k ∈ t.deletions, t.locked k = true
  nodup : t.deletions.Nodup
  exclusive : t.Exclusive

omit [DecidableEq ι] [DecidableEq κ] in
/-- Nobody owns anything. -/
theorem guarded_of_unowned {t : LockTable ι κ} (hdeletions : t.deletions = [])
    (hholds : ∀ i, t.holds i = none) : t.Guarded where
  held i k h := by simp [hholds] at h
  kept i k h := by simp [hholds] at h
  pending k h := by simp [hdeletions] at h
  nodup := by simp [hdeletions]
  exclusive i j k h := by simp [hholds] at h

theorem Step.guarded {t t' : LockTable ι κ} (h : Step t t') (ht : t.Guarded) : t'.Guarded := by
  cases h with
  | skip => exact ht
  | @take i k hfree =>
    have hunowned : ∀ j, t.holds j ≠ some k := fun j hj ↦ by
      rw [ht.held j k hj] at hfree
      cases hfree
    have hunsent : k ∉ t.deletions := fun hmem ↦ by
      rw [ht.pending k hmem] at hfree
      cases hfree
    have howner : ∀ j x, update t.holds i (some k) j = some x →
        j = i ∧ x = k ∨ j ≠ i ∧ x ≠ k ∧ t.holds j = some x := by
      intro j x hj
      by_cases hji : j = i
      · subst hji
        rw [update_self, Option.some.injEq] at hj
        exact .inl ⟨rfl, hj.symm⟩
      · rw [update_of_ne hji] at hj
        exact .inr ⟨hji, fun hx ↦ hunowned j (hx ▸ hj), hj⟩
    refine ⟨fun j x hj ↦ ?_, fun j x hj ↦ ?_, fun x hx ↦ ?_, ht.nodup, fun j l x hj hl ↦ ?_⟩
    · rcases howner j x hj with ⟨-, rfl⟩ | ⟨-, hne, hold⟩
      · exact update_self ..
      · exact (update_of_ne hne ..).trans (ht.held j x hold)
    · rcases howner j x hj with ⟨-, rfl⟩ | ⟨-, -, hold⟩
      · exact hunsent
      · exact ht.kept j x hold
    · have hne : x ≠ k := fun heq ↦ hunsent (heq ▸ hx)
      exact (update_of_ne hne ..).trans (ht.pending x hx)
    · rcases howner j x hj with ⟨rfl, rfl⟩ | ⟨-, hne, hold⟩
      · rcases howner l x hl with ⟨rfl, -⟩ | ⟨-, hne, -⟩
        · rfl
        · exact absurd rfl hne
      · rcases howner l x hl with ⟨-, rfl⟩ | ⟨-, -, hold'⟩
        · exact absurd rfl hne
        · exact ht.exclusive j l x hold hold'
  | leak k =>
    have hset : ∀ x, t.locked x = true → update t.locked k true x = true := by
      intro x hx
      by_cases hxk : x = k
      · rw [hxk, update_self]
      · rw [update_of_ne hxk, hx]
    exact ⟨fun i x hx ↦ hset x (ht.held i x hx), ht.kept, fun x hx ↦ hset x (ht.pending x hx),
      ht.nodup, ht.exclusive⟩
  | @giveBack i k hholds =>
    have howner : ∀ j x, update t.holds i none j = some x → j ≠ i ∧ t.holds j = some x := by
      intro j x hj
      by_cases hji : j = i
      · simp [hji] at hj
      · rw [update_of_ne hji] at hj
        exact ⟨hji, hj⟩
    refine ⟨fun j x hj ↦ ht.held j x (howner j x hj).2, fun j x hj hmem ↦ ?_, fun x hx ↦ ?_, ?_,
      fun j l x hj hl ↦ ht.exclusive j l x (howner j x hj).2 (howner l x hl).2⟩
    · obtain ⟨hji, hold⟩ := howner j x hj
      rcases List.mem_append.mp hmem with hmem | hmem
      · exact ht.kept j x hold hmem
      · rw [List.mem_singleton.mp hmem] at hold
        exact hji (ht.exclusive j i k hold hholds)
    · rcases List.mem_append.mp hx with hx | hx
      · exact ht.pending x hx
      · rw [List.mem_singleton.mp hx]
        exact ht.held i k hholds
    · refine List.nodup_append.mpr ⟨ht.nodup, List.nodup_singleton k, fun x hx y hy ↦ ?_⟩
      rw [List.mem_singleton.mp hy]
      exact fun heq ↦ ht.kept i k hholds (heq ▸ hx)
  | @delete k hsent applied =>
    have hset : ∀ x, x ≠ k → t.locked x = true →
        (if applied then update t.locked k false else t.locked) x = true := by
      intro x hne hx
      cases applied with
      | true =>
        rw [if_pos rfl, update_of_ne hne]
        exact hx
      | false => exact hx
    refine ⟨fun i x hx ↦ hset x ?_ (ht.held i x hx), fun i x hx hmem ↦ ?_, fun x hx ↦ ?_,
      ht.nodup.erase k, ht.exclusive⟩
    · rintro rfl
      exact ht.kept i x hx hsent
    · exact ht.kept i x hx (List.mem_of_mem_erase hmem)
    · rw [ht.nodup.mem_erase_iff] at hx
      exact hset x hx.1 (ht.pending x hx.2)

end LockTable

end ColivingSpec.Lib
