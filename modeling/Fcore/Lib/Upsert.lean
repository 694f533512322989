import Fcore.Lib.Table
import Mathlib.Data.Finset.Card

/-!
# Upserts

An upsert inserts a row, or merges it into the row that has its key. After a run of upserts of
new rows there are as many more as the rows have keys.
-/

namespace AList

open Fcore

variable {κ ν : Type*} [DecidableEq κ] {a : κ} {s : Table κ ν}

/-- Insert a row, or merge it into the one that has its key. -/
def upsert (merge : ν → ν → ν) (a : κ) (v : ν) (s : Table κ ν) : Table κ ν :=
  AList.insert a ((s.lookup a).elim v fun old => merge old v) s

theorem mem_foldl_upsert {α : Type*} {merge : ν → ν → ν} {k : α → κ} {v : α → ν} {es : List α} :
    a ∈ es.foldl (fun s e => s.upsert merge (k e) (v e)) s ↔ (∃ e ∈ es, k e = a) ∨ a ∈ s := by
  induction es generalizing s with
  | nil => simp
  | cons e es ih =>
    rw [List.foldl_cons, ih, upsert, mem_insert, List.exists_mem_cons_iff, eq_comm (a := a),
      or_assoc]
    exact or_left_comm

/-- Of new rows, as many are stored as they have keys. -/
theorem length_foldl_upsert {α : Type*} {merge : ν → ν → ν} {k : α → κ} {v : α → ν} {es : List α}
    (h : ∀ e ∈ es, k e ∉ s) :
    (es.foldl (fun s e => s.upsert merge (k e) (v e)) s).entries.length =
      s.entries.length + (es.map k).toFinset.card := by
  have hcard : ∀ t : Table κ ν, t.entries.length = t.keys.toFinset.card := by
    intro t
    rw [List.toFinset_card_of_nodup t.keys_nodup]
    exact (List.length_map _).symm
  have hkeys : (es.foldl (fun s e => s.upsert merge (k e) (v e)) s).keys.toFinset =
      s.keys.toFinset ∪ (es.map k).toFinset := by
    ext a
    simp [← mem_keys, mem_foldl_upsert, or_comm]
  rw [hcard, hcard, hkeys]
  refine Finset.card_union_of_disjoint (Finset.disjoint_left.mpr ?_)
  simp only [List.mem_toFinset, List.mem_map, ← mem_keys]
  rintro a ha ⟨e, he, rfl⟩
  exact h e he ha

end AList
