import Mathlib.Data.List.AList

/-!
# Keyed tables

A table is an association list without repeated keys, so it serves both for a
hash map in memory and for an SQL table with a primary key. The order of the
rows is part of the value: a scan visits them in that order, and a result that
holds for every table holds for every iteration order.

Mathlib's `AList` has lookup, insertion and erasure. The two bulk operations
added here are `mapRows`, which is an `UPDATE` over all rows, and `filterRows`,
which is a `DELETE` or a `SELECT` by condition. Both are characterised by
`lookup` alone, so no proof about a program looks at the list underneath.
-/

namespace Fcore

abbrev Table (κ : Type*) (ν : Type*) := AList (fun _ : κ => ν)

end Fcore

namespace AList

open Fcore

variable {κ ν μ : Type*}

/-- Rewrite every row, keeping its key. -/
def mapRows (g : κ → ν → μ) (s : Table κ ν) : Table κ μ where
  entries := s.entries.map fun e => ⟨e.1, g e.1 e.2⟩
  nodupKeys := by
    have hkeys : (s.entries.map fun e => (⟨e.1, g e.1 e.2⟩ : Σ _ : κ, μ)).keys =
        s.entries.keys := by
      simp [List.keys, Function.comp_def]
    rw [List.NodupKeys, hkeys]
    exact s.nodupKeys

/-- Keep the rows that satisfy a condition. -/
def filterRows (p : κ → ν → Bool) (s : Table κ ν) : Table κ ν where
  entries := s.entries.filter fun e => p e.1 e.2
  nodupKeys := s.nodupKeys.sublist List.filter_sublist

theorem entries_mapRows (g : κ → ν → μ) (s : Table κ ν) :
    (s.mapRows g).entries = s.entries.map fun e => ⟨e.1, g e.1 e.2⟩ := rfl

theorem entries_filterRows (p : κ → ν → Bool) (s : Table κ ν) :
    (s.filterRows p).entries = s.entries.filter fun e => p e.1 e.2 := rfl

variable [DecidableEq κ]

def modify (a : κ) (f : ν → ν) (s : Table κ ν) : Table κ ν :=
  s.mapRows fun k v => if k = a then f v else v

/-- Insert a value, if there is one. -/
def insertSome (a : κ) (value : Option ν) (s : Table κ ν) : Table κ ν :=
  match value with
  | some v => AList.insert a v s
  | none => s

variable {a : κ} {s : Table κ ν}

theorem mem_entries_iff {b : ν} : (⟨a, b⟩ : Σ _ : κ, ν) ∈ s.entries ↔ s.lookup a = some b :=
  mem_lookup_iff.symm

theorem lookup_of_mem_entries {e : Σ _ : κ, ν} (h : e ∈ s.entries) : s.lookup e.1 = some e.2 :=
  mem_entries_iff.mp h

theorem lookup_eq_of_mem_iff {o : Option ν}
    (h : ∀ b, (⟨a, b⟩ : Σ _ : κ, ν) ∈ s.entries ↔ o = some b) : s.lookup a = o := by
  apply Option.ext
  intro b
  rw [← mem_entries_iff, h]

@[simp] theorem lookup_mapRows (g : κ → ν → μ) (a : κ) (s : Table κ ν) :
    (s.mapRows g).lookup a = (s.lookup a).map (g a) := by
  apply lookup_eq_of_mem_iff
  intro b
  simp only [entries_mapRows, List.mem_map, Option.map_eq_some_iff]
  constructor
  · rintro ⟨⟨k, v⟩, hmem, heq⟩
    cases heq
    exact ⟨v, mem_entries_iff.mp hmem, rfl⟩
  · rintro ⟨v, hv, rfl⟩
    exact ⟨⟨a, v⟩, mem_entries_iff.mpr hv, rfl⟩

@[simp] theorem lookup_filterRows (p : κ → ν → Bool) (a : κ) (s : Table κ ν) :
    (s.filterRows p).lookup a = (s.lookup a).filter (p a) := by
  apply lookup_eq_of_mem_iff
  intro b
  rw [entries_filterRows, List.mem_filter, mem_entries_iff, Option.filter_eq_some_iff]

theorem lookup_modify (a b : κ) (f : ν → ν) (s : Table κ ν) :
    (s.modify a f).lookup b = (s.lookup b).map fun v => if b = a then f v else v :=
  lookup_mapRows _ _ _

@[simp] theorem lookup_modify_self (a : κ) (f : ν → ν) (s : Table κ ν) :
    (s.modify a f).lookup a = (s.lookup a).map f := by
  simp [lookup_modify]

@[simp] theorem lookup_modify_ne {b : κ} (h : b ≠ a) (f : ν → ν) (s : Table κ ν) :
    (s.modify a f).lookup b = s.lookup b := by
  simp [lookup_modify, h]

theorem lookup_insert_eq_ite (a b : κ) (v : ν) (s : Table κ ν) :
    (AList.insert a v s).lookup b = if b = a then some v else s.lookup b := by
  by_cases h : b = a
  · subst h
    simp
  · simp [h]

/-- What a table has after an insertion is what was inserted, or an old row. -/
theorem lookup_insert_cases {b : κ} {v w : ν} (h : (AList.insert a v s).lookup b = some w) :
    b = a ∧ v = w ∨ s.lookup b = some w := by
  rw [lookup_insert_eq_ite] at h
  split at h
  · exact .inl ⟨‹_›, Option.some.inj h⟩
  · exact .inr h

theorem eq_of_lookup_single {b : κ} {v w : ν}
    (h : (AList.insert a v (∅ : Table κ ν)).lookup b = some w) : b = a ∧ v = w := by
  rcases lookup_insert_cases h with hrow | hnone
  · exact hrow
  · cases hnone

theorem mem_foldl_insert {es : List (κ × ν)} :
    a ∈ es.foldl (fun s e => AList.insert e.1 e.2 s) s ↔ (∃ e ∈ es, e.1 = a) ∨ a ∈ s := by
  induction es generalizing s with
  | nil => simp
  | cons e es ih =>
    rw [List.foldl_cons, ih, mem_insert, List.exists_mem_cons_iff, eq_comm (a := a), or_assoc]
    exact or_left_comm

/-- Rows inserted one after the other, each of which is what a map has under its key. -/
theorem lookup_foldl_insert_of_agree {α : Type*} {k : α → κ} {v : α → ν} {o : κ → Option ν}
    {es : List α} (h : ∀ e ∈ es, o (k e) = some (v e)) (a : κ) (s : Table κ ν) :
    (es.foldl (fun s e => AList.insert (k e) (v e) s) s).lookup a =
      if ∃ e ∈ es, k e = a then o a else s.lookup a := by
  induction es generalizing s with
  | nil => simp
  | cons e es ih =>
    obtain ⟨he, hes⟩ := List.forall_mem_cons.mp h
    simp only [List.foldl_cons, ih hes, lookup_insert_eq_ite, List.exists_mem_cons_iff]
    by_cases hlater : ∃ e ∈ es, k e = a
    · rw [if_pos hlater, if_pos (.inr hlater)]
    · by_cases hkey : k e = a
      · rw [if_neg hlater, if_pos hkey.symm, if_pos (.inl hkey), ← hkey, he]
      · rw [if_neg hlater, if_neg (Ne.symm hkey), if_neg (not_or.mpr ⟨hkey, hlater⟩)]

/-- Rows with distinct keys, inserted one after the other. -/
theorem lookup_foldl_insert {α : Type*} {k : α → κ} {v : α → ν} {es : List α}
    (h : (es.map k).Nodup) (a : κ) (s : Table κ ν) :
    (es.foldl (fun s e => AList.insert (k e) (v e) s) s).lookup a =
      ((es.find? fun e => k e = a).map v).or (s.lookup a) := by
  induction es generalizing s with
  | nil => simp
  | cons e es ih =>
    rw [List.map_cons, List.nodup_cons] at h
    rw [List.foldl_cons, ih h.2]
    by_cases ha : k e = a
    · subst ha
      have hnone : (es.find? fun e' => k e' = k e) = none := by simpa using h.1
      simp [hnone]
    · simp [ha, Ne.symm ha]

theorem find?_entries (a : κ) (s : Table κ ν) :
    (s.entries.find? fun e => e.1 = a) = (s.lookup a).map fun v => ⟨a, v⟩ := by
  cases hfind : s.entries.find? fun e => e.1 = a with
  | none =>
    cases hlookup : s.lookup a with
    | none => rfl
    | some v =>
      have hnot := List.find?_eq_none.mp hfind ⟨a, v⟩ (mem_entries_iff.mpr hlookup)
      exact absurd (decide_eq_true rfl) hnot
  | some e =>
    obtain ⟨b, v⟩ := e
    obtain rfl : b = a := by simpa using List.find?_some hfind
    rw [lookup_of_mem_entries (List.mem_of_find?_eq_some hfind)]
    rfl

theorem lookup_erase_eq_ite (a b : κ) (s : Table κ ν) :
    (AList.erase a s).lookup b = if b = a then none else s.lookup b := by
  by_cases h : b = a
  · subst h
    simp
  · simp [h]

/-- Set a row, or delete it. -/
def assign (a : κ) (value : Option ν) (s : Table κ ν) : Table κ ν :=
  match value with
  | some v => s.insert a v
  | none => s.erase a

@[simp] theorem lookup_assign (a b : κ) (value : Option ν) (s : Table κ ν) :
    (s.assign a value).lookup b = if b = a then value else s.lookup b := by
  cases value with
  | none => exact lookup_erase_eq_ite a b s
  | some v => exact lookup_insert_eq_ite a b v s

theorem lookup_insertSome (a b : κ) (value : Option ν) (s : Table κ ν) :
    (s.insertSome a value).lookup b = if b = a then value.or (s.lookup b) else s.lookup b := by
  cases value with
  | none => simp [insertSome]
  | some v => rw [insertSome, lookup_insert_eq_ite, Option.some_or]

end AList
