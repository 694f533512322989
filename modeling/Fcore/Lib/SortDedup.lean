import Mathlib.Data.List.Destutter
import Mathlib.Data.List.Sort

/-!
# Sorting and removing repetitions

`sortDedup` sorts a list by a key and keeps one element for each key. The sort is stable,
so the one that is kept is the first of its key in the list (`ByKey.find?_sortDedup`).
-/

namespace Fcore

section Destutter

variable {α : Type*} [DecidableEq α] {a x : α} {l : List α}

theorem mem_destutter'_ne : x ∈ l.destutter' (· ≠ ·) a ↔ x = a ∨ x ∈ l := by
  induction l generalizing a with
  | nil => simp
  | cons b l ih =>
    by_cases hab : a = b
    · subst hab
      rw [List.destutter'_cons_neg _ (not_not.mpr rfl), ih, List.mem_cons, or_self_left]
    · rw [List.destutter'_cons_pos _ hab, List.mem_cons, ih, List.mem_cons]

theorem mem_destutter_ne : x ∈ l.destutter (· ≠ ·) ↔ x ∈ l := by
  cases l with
  | nil => rfl
  | cons a l => rw [List.destutter_cons', mem_destutter'_ne, List.mem_cons]

theorem nodup_destutter'_ne : (l.destutter' (· ≠ ·) a).Nodup ↔
    ∀ x y, x ≠ y → ¬ [x, y, x].Sublist (a :: l) := by
  induction l generalizing a with
  | nil => simp
  | cons b l ih =>
    by_cases hab : a = b
    · subst hab
      rw [List.destutter'_cons_neg _ (not_not.mpr rfl), ih]
      refine forall₃_congr fun x y hxy => not_congr ⟨fun h => h.cons a, fun h => ?_⟩
      rcases List.sublist_cons_iff.mp h with h | ⟨r, hr, h⟩
      · exact h
      · cases hr
        rcases List.sublist_cons_iff.mp h with h | ⟨r, hr, -⟩
        · exact h.cons_cons a
        · cases hr
          exact absurd rfl hxy
    · rw [List.destutter'_cons_pos _ hab, List.nodup_cons, mem_destutter'_ne, ih]
      constructor
      · rintro ⟨hnot, hrest⟩ x y hxy h
        rcases List.sublist_cons_iff.mp h with h | ⟨r, hr, h⟩
        · exact hrest x y hxy h
        · cases hr
          rcases List.mem_cons.mp (h.subset (by simp : a ∈ [y, a])) with hx | hx
          · exact hnot (.inl hx)
          · exact hnot (.inr hx)
      · intro h
        refine ⟨?_, fun x y hxy hsub => h x y hxy (hsub.cons a)⟩
        rintro (rfl | ha)
        · exact hab rfl
        · exact h a b hab (((List.singleton_sublist.mpr ha).cons_cons b).cons_cons a)

/-- Removing repetitions next to each other removes all of them, unless something stands
between two equal elements. -/
theorem nodup_destutter_ne :
    (l.destutter (· ≠ ·)).Nodup ↔ ∀ x y, x ≠ y → ¬ [x, y, x].Sublist l := by
  cases l with
  | nil => simp
  | cons a l => rw [List.destutter_cons', nodup_destutter'_ne]

end Destutter

section SortDedup

variable {α κ : Type*} [LinearOrder κ] {le same : α → α → Prop} [DecidableRel le]
  [DecidableRel same]

variable (le same) in
def sortDedup (l : List α) : List α := (l.insertionSort le).destutter fun x y => ¬ same x y

structure ByKey (le same : α → α → Prop) (key : α → κ) : Prop where
  le_iff : ∀ x y, le x y ↔ key x ≤ key y
  same_iff : ∀ x y, same x y ↔ key x = key y

namespace ByKey

variable {key : α → κ} (h : ByKey le same key)

include h

omit [DecidableRel same] in
theorem find?_orderedInsert (k : κ) (x : α) (l : List α) :
    (l.orderedInsert le x).find? (fun y => key y = k) = (x :: l).find? fun y => key y = k := by
  induction l with
  | nil => rfl
  | cons y l ih =>
    by_cases hle : le x y
    · rw [List.orderedInsert_cons_of_le le l hle]
    · rw [List.orderedInsert_of_not_le le l hle, List.find?_cons, ih]
      have hne : key y ≠ key x := fun heq => hle ((h.le_iff x y).mpr heq.ge)
      by_cases hy : key y = k
      · simp [hy, show key x ≠ k from fun hx => hne (hy.trans hx.symm)]
      · simp [List.find?_cons, hy]

omit [DecidableRel same] in
theorem find?_insertionSort (k : κ) (l : List α) :
    (l.insertionSort le).find? (fun y => key y = k) = l.find? fun y => key y = k := by
  induction l with
  | nil => rfl
  | cons x l ih =>
    rw [List.insertionSort_cons, h.find?_orderedInsert, List.find?_cons, List.find?_cons, ih]

omit [DecidableRel le] in
theorem find?_destutter (k : κ) (l : List α) :
    (l.destutter fun x y => ¬ same x y).find? (fun y => key y = k) =
      l.find? fun y => key y = k := by
  cases l with
  | nil => rfl
  | cons x l =>
    rw [List.destutter_cons']
    induction l generalizing x with
    | nil => rfl
    | cons y l ih =>
      by_cases hxy : same x y
      · rw [List.destutter'_cons_neg _ (not_not.mpr hxy), ih, List.find?_cons,
          List.find?_cons, List.find?_cons, (h.same_iff x y).mp hxy]
        by_cases hy : key y = k <;> simp [hy]
      · rw [List.destutter'_cons_pos _ hxy, List.find?_cons, ih]
        simp only [List.find?_cons]

theorem pairwise_sortDedup (l : List α) :
    (sortDedup le same l).Pairwise fun x y => key x < key y := by
  have : Std.Total le := ⟨fun x y => by simpa only [h.le_iff] using le_total (key x) (key y)⟩
  have : IsTrans α le := ⟨fun x y z => by simpa only [h.le_iff] using le_trans⟩
  have hsorted : (sortDedup le same l).Pairwise le :=
    (List.pairwise_insertionSort le l).sublist (List.destutter_sublist _ _)
  have hchain : (sortDedup le same l).IsChain fun x y => key x < key y := by
    refine List.isChain_iff_getElem.mpr fun i hi => ?_
    have hle := List.isChain_iff_getElem.mp hsorted.isChain i hi
    have hne := List.isChain_iff_getElem.mp (List.isChain_destutter _ _) i hi
    exact lt_of_le_of_ne ((h.le_iff _ _).mp hle) fun heq => hne ((h.same_iff _ _).mpr heq)
  exact hchain.pairwise

omit [DecidableRel le] [DecidableRel same] h in
theorem mem_iff_find? {l : List α} (hl : l.Pairwise fun x y => key x < key y) (x : α) :
    x ∈ l ↔ l.find? (fun y => key y = key x) = some x := by
  refine ⟨fun hx => ?_, List.mem_of_find?_eq_some⟩
  induction hl with
  | nil => cases hx
  | @cons y l hy hl ih =>
    rcases List.mem_cons.mp hx with rfl | hx
    · simp
    · rw [List.find?_cons, ih hx]
      simp [(hy x hx).ne]

theorem find?_sortDedup (k : κ) (l : List α) :
    (sortDedup le same l).find? (fun y => key y = k) = l.find? fun y => key y = k :=
  (h.find?_destutter k _).trans (h.find?_insertionSort k l)

theorem mem_map_sortDedup {k : κ} {l : List α} :
    k ∈ (sortDedup le same l).map key ↔ k ∈ l.map key := by
  have hfound := congrArg Option.isSome (h.find?_sortDedup k l)
  rw [Bool.eq_iff_iff] at hfound
  simpa using hfound

end ByKey

theorem byKey_id : ByKey (fun x y : κ => x ≤ y) (fun x y => x = y) id :=
  ⟨fun _ _ => Iff.rfl, fun _ _ => Iff.rfl⟩

@[simp] theorem mem_sortDedup {l : List κ} {x : κ} :
    x ∈ sortDedup (· ≤ ·) (· = ·) l ↔ x ∈ l := by
  simpa using byKey_id.mem_map_sortDedup (k := x) (l := l)

end SortDedup

end Fcore
