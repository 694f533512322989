import Mathlib.Data.List.Sort

/-!
# The last of every run

A list is cut into runs of equal keys, and of every run the last element is kept. Where equal
keys stand together, a run is all there is of a key, and what is kept is the last element of each
key.
-/

namespace Fcore

section Runs

variable {α β : Type*} {key : α → β} {l : List α}

/-- Between two equal keys there is no other. -/
def Together (key : α → β) (l : List α) : Prop :=
  ∀ ⦃x y z⦄, [x, y, z].Sublist l → key x = key z → key y = key x

theorem Together.sublist {l' : List α} (h : Together key l) (hsub : l'.Sublist l) :
    Together key l' :=
  fun _ _ _ hxyz => h (hxyz.trans hsub)

variable [DecidableEq β]

def lastOfRuns (key : α → β) : List α → List α
  | [] => []
  | [x] => [x]
  | x :: y :: l =>
    if key x = key y then lastOfRuns key (y :: l) else x :: lastOfRuns key (y :: l)

theorem lastOfRuns_sublist (key : α → β) (l : List α) : (lastOfRuns key l).Sublist l := by
  fun_induction lastOfRuns key l with
  | case1 => exact .refl _
  | case2 x => exact .refl _
  | case3 x y l h ih => exact ih.cons x
  | case4 x y l h ih => exact ih.cons_cons x

theorem getLast?_lastOfRuns (key : α → β) (l : List α) :
    (lastOfRuns key l).getLast? = l.getLast? := by
  fun_induction lastOfRuns key l with
  | case1 => rfl
  | case2 x => rfl
  | case3 x y l h ih => rw [ih, List.getLast?_cons_cons]
  | case4 x y l h ih =>
    rw [List.getLast?_cons, ih, List.getLast?_cons_cons, List.getLast?_cons, Option.getD_some]

theorem map_head?_lastOfRuns (key : α → β) (l : List α) :
    (lastOfRuns key l).head?.map key = l.head?.map key := by
  fun_induction lastOfRuns key l with
  | case1 => rfl
  | case2 x => rfl
  | case3 x y l h ih => simpa [h] using ih
  | case4 x y l h ih => rfl

theorem lastOfRuns_idem (key : α → β) (l : List α) :
    lastOfRuns key (lastOfRuns key l) = lastOfRuns key l := by
  fun_induction lastOfRuns key l with
  | case1 => rfl
  | case2 x => rfl
  | case3 x y l h ih => exact ih
  | case4 x y l h ih =>
    -- what comes next has the key of `y`
    have hhead := map_head?_lastOfRuns key (y :: l)
    cases hruns : lastOfRuns key (y :: l) with
    | nil => rfl
    | cons z zs =>
      rw [hruns] at hhead ih
      have hne : key x ≠ key z := by
        intro hz
        rw [hz] at h
        exact h (by simpa using hhead)
      rw [lastOfRuns, if_neg hne, ih]

/-- The last element of each key is kept, and no other. -/
theorem filter_lastOfRuns (hl : Together key l) (b : β) :
    (lastOfRuns key l).filter (fun x => decide (key x = b)) =
      (l.filter fun x => decide (key x = b)).getLast?.toList := by
  fun_induction lastOfRuns key l with
  | case1 => rfl
  | case2 x => by_cases hx : key x = b <;> simp [hx]
  | case3 x y l h ih =>
    rw [ih (hl.sublist (List.sublist_cons_self _ _))]
    by_cases hy : key y = b
    · simp [h, hy, List.getLast?_cons_cons]
    · simp [h, hy]
  | case4 x y l h ih =>
    by_cases hx : key x = b
    · have hnone : ∀ z ∈ y :: l, key z ≠ b := by
        intro z hz hzb
        rcases List.mem_cons.mp hz with rfl | hz
        · exact h (hx.trans hzb.symm)
        · have hsub : [x, y, z].Sublist (x :: y :: l) := by simpa using hz
          exact h (hl hsub (hx.trans hzb.symm)).symm
      have hruns : (lastOfRuns key (y :: l)).filter (fun x => decide (key x = b)) = [] := by
        refine List.filter_eq_nil_iff.mpr fun z hz => ?_
        simpa using hnone z ((lastOfRuns_sublist key (y :: l)).mem hz)
      have hrest : (y :: l).filter (fun x => decide (key x = b)) = [] :=
        List.filter_eq_nil_iff.mpr fun z hz => by simpa using hnone z hz
      rw [List.filter_cons_of_pos (by simpa using hx), hruns,
        List.filter_cons_of_pos (by simpa using hx), hrest]
      rfl
    · rw [List.filter_cons_of_neg (by simpa using hx), List.filter_cons_of_neg (by simpa using hx)]
      exact ih (hl.sublist (List.sublist_cons_self _ _))

end Runs

end Fcore
