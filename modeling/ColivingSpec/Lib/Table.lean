import ColivingSpec.Lib.Checked

/-!
# Tables with keys and references

A table of a store: a list of rows, a relation between rows that have a unique key in common, and
for each row whether what it refers to is in the store. Rows are inserted one after another, and
the insertion as a whole succeeds exactly when no two rows have a key in common and all of them
refer to rows of the store.
-/

namespace ColivingSpec.Lib

open List

/-- A table with rows `ρ` in a store `σ`. -/
structure Table (σ ρ : Type) where
  rows : σ → List ρ
  put : σ → List ρ → σ
  /-- The rows have a unique key in common. -/
  clash : ρ → ρ → Bool
  /-- The rows that the row refers to are in the store. -/
  resolves : σ → ρ → Bool
  rows_put : ∀ s l, rows (put s l) = l
  put_rows : ∀ s, put s (rows s) = s
  put_put : ∀ s l l', put (put s l) l' = put s l'
  resolves_put : ∀ s l row, resolves (put s l) row = resolves s row

namespace Table

variable {σ ρ : Type} (t : Table σ ρ) {s s' : σ} {row : ρ} {new : List ρ}

/-- Insert one row. -/
def insert (s : σ) (row : ρ) : Except String σ := do
  require (∀ other ∈ t.rows s, t.clash other row = false)
    "duplicate key value violates unique constraint"
  require (t.resolves s row) "insert or update on table violates foreign key constraint"
  return t.put s (t.rows s ++ [row])

/-- Insert rows in turn. -/
def bulkCreate (s : σ) : List ρ → Except String σ
  | [] => .ok s
  | row :: rest => do
    let s' ← t.insert s row
    bulkCreate s' rest

/-- The rows have no unique key in common, with each other or with a row of the table, and what
they refer to is in the store. -/
structure Accepts (s : σ) (new : List ρ) : Prop where
  fresh : ∀ other ∈ t.rows s, ∀ row ∈ new, t.clash other row = false
  distinct : new.Pairwise fun row row' ↦ t.clash row row' = false
  resolved : ∀ row ∈ new, t.resolves s row = true

/-- The rows that are there meet the keys and references. -/
structure Valid (s : σ) : Prop where
  distinct : (t.rows s).Pairwise fun row row' ↦ t.clash row row' = false
  resolved : ∀ row ∈ t.rows s, t.resolves s row = true

variable {t}

theorem accepts_nil : t.Accepts s [] :=
  ⟨fun _ _ _ h ↦ absurd h not_mem_nil, List.Pairwise.nil, fun _ h ↦ absurd h not_mem_nil⟩

theorem insert_eq_ok : t.insert s row = .ok s' ↔
    (∀ other ∈ t.rows s, t.clash other row = false) ∧ t.resolves s row = true ∧
      t.put s (t.rows s ++ [row]) = s' := by
  rw [insert, require_bind_eq_ok, require_bind_eq_ok, pure_eq_ok]

/-- Accepting rows is accepting the first and then the others. -/
theorem accepts_cons : t.Accepts s (row :: new) ↔
    (∀ other ∈ t.rows s, t.clash other row = false) ∧ t.resolves s row = true ∧
      t.Accepts (t.put s (t.rows s ++ [row])) new := by
  constructor
  · intro h
    obtain ⟨hrow, hnew⟩ := pairwise_cons.mp h.distinct
    refine ⟨fun other hother ↦ h.fresh other hother row mem_cons_self,
      h.resolved row mem_cons_self, ?_, hnew, ?_⟩
    · intro other hother r hr
      rw [t.rows_put] at hother
      rcases mem_append.mp hother with hold | heq
      · exact h.fresh other hold r (mem_cons_of_mem _ hr)
      · rw [mem_singleton.mp heq]
        exact hrow r hr
    · intro r hr
      rw [t.resolves_put]
      exact h.resolved r (mem_cons_of_mem _ hr)
  · rintro ⟨hfresh, hresolves, h⟩
    have hold : ∀ other ∈ t.rows s, other ∈ t.rows (t.put s (t.rows s ++ [row])) := by
      intro other hother
      rw [t.rows_put]
      exact mem_append_left _ hother
    have hlast : row ∈ t.rows (t.put s (t.rows s ++ [row])) := by
      rw [t.rows_put]
      exact mem_append_right _ (mem_singleton_self row)
    constructor
    · intro other hother r hr
      rcases mem_cons.mp hr with rfl | hr
      · exact hfresh other hother
      · exact h.fresh other (hold other hother) r hr
    · exact pairwise_cons.mpr ⟨fun r hr ↦ h.fresh row hlast r hr, h.distinct⟩
    · intro r hr
      rcases mem_cons.mp hr with rfl | hr
      · exact hresolves
      · have := h.resolved r hr
        rwa [t.resolves_put] at this

/-- Rows are inserted exactly when they are accepted, after those that are there. -/
theorem bulkCreate_eq_ok :
    t.bulkCreate s new = .ok s' ↔ t.Accepts s new ∧ t.put s (t.rows s ++ new) = s' := by
  induction new generalizing s with
  | nil =>
    rw [bulkCreate, append_nil, t.put_rows]
    simp [accepts_nil]
  | cons row new ih =>
    rw [bulkCreate, bind_eq_ok, accepts_cons]
    constructor
    · rintro ⟨mid, hmid, hrest⟩
      obtain ⟨hfresh, hresolves, rfl⟩ := insert_eq_ok.mp hmid
      obtain ⟨haccepts, heq⟩ := ih.mp hrest
      rw [t.put_put, t.rows_put, append_assoc] at heq
      exact ⟨⟨hfresh, hresolves, haccepts⟩, heq⟩
    · rintro ⟨⟨hfresh, hresolves, haccepts⟩, heq⟩
      refine ⟨_, insert_eq_ok.mpr ⟨hfresh, hresolves, rfl⟩, ih.mpr ⟨haccepts, ?_⟩⟩
      rw [t.put_put, t.rows_put, append_assoc]
      exact heq

/-- Rows that are accepted have no key in common with those that are there, nor with each other. -/
theorem Accepts.pairwise_append (h : t.Accepts s new)
    (hrows : (t.rows s).Pairwise fun row row' ↦ t.clash row row' = false) :
    (t.rows s ++ new).Pairwise fun row row' ↦ t.clash row row' = false :=
  List.pairwise_append.mpr ⟨hrows, h.distinct, h.fresh⟩

end Table

end ColivingSpec.Lib
