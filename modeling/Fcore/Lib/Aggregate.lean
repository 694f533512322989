import Fcore.Lib.Table
import Mathlib.Algebra.BigOperators.Group.List.Basic
import Mathlib.Algebra.Order.BigOperators.Group.List
import Mathlib.Data.List.Dedup

/-!
# Aggregates

Sums over the rows of a table and over a list of selected rows, as an SQL query
with `SUM` computes them. Grouping by a key splits a sum without changing it,
replacing a row changes a sum by the difference, and selecting more rows of
non-negative values does not lower it.
-/

namespace AList

open Fcore

variable {κ ν M : Type*} [DecidableEq κ] [AddCommMonoid M]

def total (f : ν → M) (s : Table κ ν) : M := (s.entries.map fun e => f e.2).sum

def rowSum (f : κ → ν → M) (s : Table κ ν) : M := (s.entries.map fun e => f e.1 e.2).sum

omit [DecidableEq κ] in
@[simp] theorem total_empty (f : ν → M) : (∅ : Table κ ν).total f = 0 := rfl

theorem sum_kerase_add (f : κ → ν → M) (a : κ) (l : List (Σ _ : κ, ν)) :
    ((l.kerase a).map fun e => f e.1 e.2).sum + ((l.dlookup a).map (f a)).getD 0 =
      (l.map fun e => f e.1 e.2).sum := by
  induction l with
  | nil => simp
  | cons e l ih =>
    by_cases h : a = e.1
    · subst h
      rw [List.kerase_cons_eq rfl, List.dlookup_cons_eq, add_comm]
      rfl
    · rw [List.kerase_cons_ne h, List.dlookup_cons_ne _ _ h, List.map_cons, List.sum_cons,
        List.map_cons, List.sum_cons, add_assoc, ih]

theorem rowSum_insert (f : κ → ν → M) (a : κ) (b : ν) (s : Table κ ν) :
    (AList.insert a b s).rowSum f + ((s.lookup a).map (f a)).getD 0 = s.rowSum f + f a b := by
  rw [rowSum, entries_insert, List.map_cons, List.sum_cons, add_assoc, AList.lookup,
    sum_kerase_add, add_comm, rowSum]

theorem total_insert (f : ν → M) (a : κ) (b : ν) (s : Table κ ν) :
    (AList.insert a b s).total f + ((s.lookup a).map f).getD 0 = s.total f + f b :=
  rowSum_insert (fun _ => f) a b s

theorem total_erase (f : ν → M) (a : κ) (s : Table κ ν) :
    (AList.erase a s).total f + ((s.lookup a).map f).getD 0 = s.total f :=
  sum_kerase_add (fun _ => f) a s.entries

/-- A table filled with rows of different keys. -/
theorem total_foldl_insert (f : ν → M) {rows : List (κ × ν)} (hrows : (rows.map Prod.fst).Nodup)
    {s : Table κ ν} (hs : ∀ row ∈ rows, s.lookup row.1 = none) :
    (rows.foldl (fun s row => AList.insert row.1 row.2 s) s).total f =
      s.total f + (rows.map fun row => f row.2).sum := by
  induction rows generalizing s with
  | nil => simp
  | cons row rows ih =>
    obtain ⟨hnew, hrows⟩ := List.nodup_cons.mp hrows
    have hinsert := total_insert f row.1 row.2 s
    rw [hs row List.mem_cons_self, Option.map_none, Option.getD_none, add_zero] at hinsert
    rw [List.foldl_cons, ih hrows, hinsert, List.map_cons, List.sum_cons, add_assoc]
    intro row' hrow'
    rw [lookup_insert_eq_ite, if_neg]
    · exact hs row' (List.mem_cons_of_mem row hrow')
    · intro heq
      exact hnew (heq ▸ List.mem_map_of_mem hrow')

end AList

namespace Fcore

namespace Aggregate

variable {α κ M : Type*} [DecidableEq κ]

/-- The keys of a `GROUP BY`. -/
def groups (key : α → κ) (rows : List α) : List κ := (rows.map key).dedup

def group (key : α → κ) (rows : List α) (k : κ) : List α :=
  rows.filter fun row => decide (key row = k)

theorem sum_comm {β : Type*} [AddCommMonoid M] (f : α → β → M) (as : List α) (bs : List β) :
    (as.map fun a => (bs.map fun b => f a b).sum).sum =
      (bs.map fun b => (as.map fun a => f a b).sum).sum := by
  induction as with
  | nil => simp
  | cons a as ih => simp only [List.map_cons, List.sum_cons, ih, List.sum_map_add]

theorem sum_ite_eq [AddCommMonoid M] {ks : List κ} (hks : ks.Nodup) {k : κ} (hk : k ∈ ks) (x : M) :
    (ks.map fun k' => if k = k' then x else 0).sum = x := by
  induction ks with
  | nil => simp at hk
  | cons k' ks ih =>
    obtain ⟨hnot, hks⟩ := List.nodup_cons.mp hks
    rcases List.mem_cons.mp hk with rfl | hk
    · have hzero : (ks.map fun k' => if k = k' then x else 0).sum = 0 := by
        refine List.sum_eq_zero fun y hy => ?_
        obtain ⟨k', hk', rfl⟩ := List.mem_map.mp hy
        refine if_neg ?_
        rintro rfl
        exact hnot hk'
      simp [hzero]
    · have hne : k ≠ k' := fun heq => hnot (heq ▸ hk)
      simp [hne, ih hks hk]

theorem foldl_eq_add_sum [AddCommMonoid M] {σ : Type*} {step : σ → α → σ} (μ : σ → M)
    (amount : α → M) (h : ∀ s a, μ (step s a) = μ s + amount a) (as : List α) (s : σ) :
    μ (as.foldl step s) = μ s + (as.map amount).sum := by
  induction as generalizing s with
  | nil => simp
  | cons a as ih => rw [List.foldl_cons, ih, h, List.map_cons, List.sum_cons, add_assoc]

theorem foldl_eq_self {σ : Type*} {step : σ → α → σ} (μ : σ → M)
    (h : ∀ s a, μ (step s a) = μ s) (as : List α) (s : σ) : μ (as.foldl step s) = μ s := by
  induction as generalizing s with
  | nil => rfl
  | cons a as ih => rw [List.foldl_cons, ih, h]

theorem countP_or_of_disjoint {p q : α → Bool} {l : List α}
    (h : ∀ a ∈ l, p a = true → q a = false) :
    l.countP (fun a => p a || q a) = l.countP p + l.countP q := by
  induction l with
  | nil => rfl
  | cons a l ih =>
    have ih := ih fun b hb => h b (List.mem_cons_of_mem a hb)
    cases hp : p a <;> cases hq : q a <;> simp_all <;> omega

theorem sum_groups [AddCommMonoid M] (key : α → κ) (f : α → M) (rows : List α) :
    ((groups key rows).map fun k => ((group key rows k).map f).sum).sum = (rows.map f).sum := by
  have hsplit : ∀ (ks : List κ), ks.Nodup → ∀ rows : List α, (∀ row ∈ rows, key row ∈ ks) →
      (ks.map fun k => ((group key rows k).map f).sum).sum = (rows.map f).sum := by
    intro ks hks rows hrows
    induction rows with
    | nil => simp [group]
    | cons row rows ih =>
      have hcons : ∀ k, ((group key (row :: rows) k).map f).sum =
          (if key row = k then f row else 0) + ((group key rows k).map f).sum := by
        intro k
        by_cases h : key row = k <;> simp [group, h]
      simp only [hcons, List.sum_map_add, List.map_cons, List.sum_cons]
      rw [sum_ite_eq hks (hrows row (by simp)),
        ih fun r hr => hrows r (List.mem_cons_of_mem row hr)]
  refine hsplit _ (List.nodup_dedup _) rows fun row hrow => ?_
  exact List.mem_dedup.mpr (List.mem_map_of_mem hrow)

theorem sum_filter_add_sum_filter_not [AddCommMonoid M] (f : α → M) (p : α → Bool)
    (rows : List α) :
    ((rows.filter p).map f).sum + ((rows.filter fun row => !p row).map f).sum =
      (rows.map f).sum := by
  induction rows with
  | nil => simp
  | cons row rows ih =>
    rw [List.map_cons, List.sum_cons, ← ih]
    cases hp : p row with
    | true => simp [hp, add_assoc]
    | false => simp [hp, add_left_comm]

/-- A weaker condition selects at least as much. -/
theorem sum_filter_le [AddCommMonoid M] [PartialOrder M] [IsOrderedAddMonoid M] {f : α → M}
    {p q : α → Bool} {rows : List α} (hf : ∀ row ∈ rows, 0 ≤ f row)
    (hpq : ∀ row ∈ rows, p row → q row) :
    ((rows.filter p).map f).sum ≤ ((rows.filter q).map f).sum := by
  induction rows with
  | nil => simp
  | cons row rows ih =>
    have hrest := ih (fun r hr => hf r (List.mem_cons_of_mem row hr))
      fun r hr => hpq r (List.mem_cons_of_mem row hr)
    by_cases hp : p row
    · have hq := hpq row (by simp) hp
      simpa [hp, hq] using add_le_add_right hrest (f row)
    · by_cases hq : q row
      · simpa [hp, hq] using add_le_add (hf row (by simp)) hrest
      · simpa [hp, hq] using hrest

end Aggregate

end Fcore
