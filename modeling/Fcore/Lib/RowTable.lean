import Mathlib.Algebra.Group.Nat.Defs
import Mathlib.Data.List.Nodup

/-!
# Tables with row numbers

A table without a key of its own numbers its rows. Numbers increase, so the rows
stand in the order in which they were inserted, and that is the order of a
selection by row number.
-/

namespace Fcore

/-- Rows with increasing numbers, and the last number given out. -/
structure RowTable (α : Type*) where
  rows : List (ℕ × α)
  last : ℕ
  ordered : rows.Pairwise fun r r' => r.1 < r'.1
  bounded : ∀ r ∈ rows, r.1 ≤ last
  deriving DecidableEq

namespace RowTable

variable {α : Type*} {t : RowTable α}

def empty : RowTable α := ⟨[], 0, .nil, by simp⟩

def next (t : RowTable α) (a : α) : ℕ × α := (t.last + 1, a)

def insert (a : α) (t : RowTable α) : RowTable α where
  rows := t.rows ++ [t.next a]
  last := t.last + 1
  ordered := by
    refine List.pairwise_append.mpr ⟨t.ordered, List.pairwise_singleton _ _, ?_⟩
    intro r hr r' hr'
    rw [List.mem_singleton.mp hr']
    exact Nat.lt_succ_of_le (t.bounded r hr)
  bounded := by
    intro r hr
    rcases List.mem_append.mp hr with hr | hr
    · exact Nat.le_succ_of_le (t.bounded r hr)
    · rw [List.mem_singleton.mp hr]
      exact Nat.le_refl _

/-- Keep the rows that satisfy a condition. -/
def filterRows (p : ℕ × α → Bool) (t : RowTable α) : RowTable α where
  rows := t.rows.filter p
  last := t.last
  ordered := t.ordered.sublist List.filter_sublist
  bounded := fun r hr => t.bounded r (List.mem_of_mem_filter hr)

def select (p : α → Bool) (t : RowTable α) : List (ℕ × α) := t.rows.filter fun r => p r.2

def count (p : α → Bool) (t : RowTable α) : ℕ := (t.select p).length

def deleteWhere (p : α → Bool) (t : RowTable α) : RowTable α := t.filterRows fun r => !p r.2

def insertAll (as : List α) (t : RowTable α) : RowTable α := as.foldl (fun t a => t.insert a) t

/-- Delete rows one number after the other. -/
def deleteRows (ids : List ℕ) (t : RowTable α) : RowTable α :=
  ids.foldl (fun t id => t.filterRows fun r => r.1 ≠ id) t

@[ext] theorem ext {t' : RowTable α} (hrows : t.rows = t'.rows) (hlast : t.last = t'.last) :
    t = t' := by
  cases t
  cases hrows
  cases hlast
  rfl

@[simp] theorem rows_insert (a : α) (t : RowTable α) :
    (t.insert a).rows = t.rows ++ [t.next a] := rfl

@[simp] theorem rows_filterRows (p : ℕ × α → Bool) (t : RowTable α) :
    (t.filterRows p).rows = t.rows.filter p := rfl

@[simp] theorem rows_deleteWhere (p : α → Bool) (t : RowTable α) :
    (t.deleteWhere p).rows = t.rows.filter fun r => !p r.2 := rfl

theorem mem_select {p : α → Bool} {r : ℕ × α} :
    r ∈ t.select p ↔ r ∈ t.rows ∧ p r.2 = true := List.mem_filter

theorem deleteWhere_eq_self {p : α → Bool} (h : t.select p = []) : t.deleteWhere p = t := by
  apply ext
  · rw [rows_deleteWhere, List.filter_eq_self]
    intro r hr
    have hnot := List.filter_eq_nil_iff.mp h r hr
    simpa using hnot
  · rfl

theorem count_insert (p : α → Bool) (a : α) (t : RowTable α) :
    (t.insert a).count p = t.count p + if p a then 1 else 0 := by
  simp only [count, select, rows_insert, List.filter_append, List.length_append, next]
  cases hp : p a <;> simp [hp]

theorem insertAll_append (as bs : List α) (t : RowTable α) :
    t.insertAll (as ++ bs) = (t.insertAll as).insertAll bs := List.foldl_append

theorem insertAll_concat (as : List α) (a : α) (t : RowTable α) :
    t.insertAll (as ++ [a]) = (t.insertAll as).insert a := insertAll_append as [a] t

theorem values_insertAll (as : List α) (t : RowTable α) :
    (t.insertAll as).rows.map Prod.snd = t.rows.map Prod.snd ++ as := by
  induction as generalizing t with
  | nil => simp [insertAll]
  | cons a as ih =>
    rw [insertAll, List.foldl_cons, ← insertAll, ih]
    simp [next]

theorem count_insertAll (p : α → Bool) (as : List α) (t : RowTable α) :
    (t.insertAll as).count p = t.count p + as.countP p := by
  induction as generalizing t with
  | nil => simp [insertAll]
  | cons a as ih =>
    rw [insertAll, List.foldl_cons, ← insertAll, ih, count_insert, List.countP_cons, add_assoc,
      add_comm (as.countP p)]

theorem insertAll_eq_self_iff (as : List α) (t : RowTable α) : t.insertAll as = t ↔ as = [] := by
  constructor
  · intro h
    have hvalues := values_insertAll as t
    rw [h] at hvalues
    exact List.append_right_eq_self.mp hvalues.symm
  · rintro rfl
    rfl

theorem eq_of_fst_eq {r r' : ℕ × α} (hr : r ∈ t.rows) (hr' : r' ∈ t.rows) (h : r.1 = r'.1) :
    r = r' := by
  have hnodup : (t.rows.map Prod.fst).Nodup :=
    List.pairwise_map.mpr (t.ordered.imp fun hlt => Nat.ne_of_lt hlt)
  exact List.inj_on_of_nodup_map hnodup hr hr' h

theorem deleteRows_eq (ids : List ℕ) (t : RowTable α) :
    t.deleteRows ids = t.filterRows fun r => r.1 ∉ ids := by
  unfold deleteRows
  induction ids generalizing t with
  | nil =>
    apply ext
    · simp
    · rfl
  | cons id ids ih =>
    rw [List.foldl_cons, ih]
    apply ext
    · simp only [rows_filterRows, List.filter_filter, List.mem_cons, not_or, Bool.decide_and,
        decide_not, Bool.and_comm]
    · rfl

theorem deleteRows_select (p : α → Bool) (t : RowTable α) :
    t.deleteRows ((t.select p).map Prod.fst) = t.deleteWhere p := by
  rw [deleteRows_eq]
  apply ext
  · apply List.filter_congr
    intro r hr
    have hmem : r.1 ∈ (t.select p).map Prod.fst ↔ p r.2 = true := by
      constructor
      · intro h
        obtain ⟨r', hr', heq⟩ := List.mem_map.mp h
        obtain ⟨hrow, hp⟩ := mem_select.mp hr'
        rwa [← eq_of_fst_eq hrow hr heq]
      · intro hp
        exact List.mem_map_of_mem (mem_select.mpr ⟨hr, hp⟩)
    simp [hmem]
  · rfl

end RowTable

end Fcore
