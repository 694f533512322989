import Mathlib.Data.List.Basic

/-!
# Runs

A run is a list of actions taken one after the other by a step function. The
states it visits are those of `List.scanl`, the start included. These rules carry
all the inductions over runs:

* `invariant_scanl`: what each permitted step preserves holds in every state
  visited, where a step is permitted by a condition on the state it starts from;
* `forall_scanl_iff`: the same as an equivalence, where a step keeps the property exactly
  when it is permitted;
* `invariant_end`: the same for the final state;
* `invariant_foldl`: the same for the final state, with every step permitted;
* `along_of_invariant`: what a permitted step from a state with the invariant
  achieves, every step of the run achieves;
* `rel_foldl`: what relates the two ends of every step, and is reflexive and
  transitive, relates the two ends of the run;
* `reach_of_invariant`: what one action brings about, where an invariant holds, and no
  action undoes holds in the final state; `reach_foldl` is the case without an invariant.
-/

namespace Fcore

namespace Run

variable {σ α : Type*} {step : σ → α → σ}

/-- Every action of a run meets a condition in the state it is taken in. -/
def Along (step : σ → α → σ) (ok : σ → α → Prop) : σ → List α → Prop
  | _, [] => True
  | s, a :: as => ok s a ∧ Along step ok (step s a) as

@[simp] theorem along_nil (ok : σ → α → Prop) (s : σ) : Along step ok s [] := trivial

variable {ok : σ → α → Prop} {s : σ} {a : α} {as : List α} {I : σ → Prop}

theorem along_cons : Along step ok s (a :: as) ↔ ok s a ∧ Along step ok (step s a) as := Iff.rfl

theorem along_true (s : σ) (as : List α) : Along step (fun _ _ => True) s as := by
  induction as generalizing s with
  | nil => trivial
  | cons a as ih => exact ⟨trivial, ih _⟩

theorem along_of_forall (h : ∀ a ∈ as, ∀ s, ok s a) (s : σ) : Along step ok s as := by
  induction as generalizing s with
  | nil => trivial
  | cons a as ih =>
    exact ⟨h a (by simp) s, ih (fun a' ha' => h a' (List.mem_cons_of_mem a ha')) _⟩

theorem along_append {bs : List α} :
    Along step ok s (as ++ bs) ↔ Along step ok s as ∧ Along step ok (as.foldl step s) bs := by
  induction as generalizing s with
  | nil => simp
  | cons a as ih => rw [List.cons_append, along_cons, along_cons, ih, and_assoc, List.foldl_cons]

theorem along_and {ok' : σ → α → Prop} (h : Along step ok s as) (h' : Along step ok' s as) :
    Along step (fun s a => ok s a ∧ ok' s a) s as := by
  induction as generalizing s with
  | nil => trivial
  | cons a as ih => exact ⟨⟨h.1, h'.1⟩, ih h.2 h'.2⟩

instance decidableAlong {ok : σ → α → Prop} [h : ∀ s a, Decidable (ok s a)] :
    ∀ (s : σ) (as : List α), Decidable (Along step ok s as)
  | _, [] => isTrue trivial
  | s, a :: as => @instDecidableAnd _ _ (h s a) (decidableAlong (step s a) as)

theorem invariant_scanl (hstep : ∀ s a, I s → ok s a → I (step s a)) (hs : I s)
    (hok : Along step ok s as) : ∀ s' ∈ as.scanl step s, I s' := by
  induction as generalizing s with
  | nil => simpa using hs
  | cons a as ih =>
    intro s' hmem
    rw [List.scanl_cons] at hmem
    rcases List.mem_cons.mp hmem with rfl | hmem
    · exact hs
    · exact ih (hstep s a hs hok.1) hok.2 s' hmem

/-- When a step keeps a property exactly if it is permitted, every state visited has the
property exactly if every step is. -/
theorem forall_scanl_iff {J : σ → Prop}
    (hstep : ∀ s, ∀ a ∈ as, J s → I s → J (step s a) ∧ (I (step s a) ↔ ok s a)) (hJ : J s)
    (hI : I s) : (∀ s' ∈ as.scanl step s, I s') ↔ Along step ok s as := by
  induction as generalizing s with
  | nil => simpa using hI
  | cons a as ih =>
    obtain ⟨hJ', hI'⟩ := hstep s a (by simp) hJ hI
    have hrest := fun s' a' ha' => hstep s' a' (List.mem_cons_of_mem a ha')
    rw [List.scanl_cons, along_cons, ← hI']
    constructor
    · intro h
      have hnext : I (step s a) := by
        apply h
        cases as with
        | nil => simp
        | cons a' as => simp [List.scanl_cons]
      refine ⟨hnext, (ih hrest hJ' hnext).mp fun s' hs' => h s' ?_⟩
      exact List.mem_cons_of_mem s hs'
    · rintro ⟨hnext, halong⟩ s' hs'
      rcases List.mem_cons.mp hs' with rfl | hs'
      · exact hI
      · exact (ih hrest hJ' hnext).mpr halong s' hs'

theorem foldl_mem_scanl (step : σ → α → σ) (s : σ) (as : List α) :
    as.foldl step s ∈ as.scanl step s := by
  induction as generalizing s with
  | nil => simp
  | cons a as ih =>
    rw [List.scanl_cons]
    exact List.mem_cons_of_mem s (ih (step s a))

theorem invariant_end (hstep : ∀ s a, I s → ok s a → I (step s a)) (hs : I s)
    (hok : Along step ok s as) : I (as.foldl step s) := by
  induction as generalizing s with
  | nil => exact hs
  | cons a as ih => exact ih (hstep s a hs hok.1) hok.2

theorem along_of_invariant {P : σ → α → Prop} (hstep : ∀ s a, I s → ok s a → I (step s a) ∧ P s a)
    (hs : I s) (hok : Along step ok s as) : Along step P s as := by
  induction as generalizing s with
  | nil => trivial
  | cons a as ih =>
    obtain ⟨hnext, ha⟩ := hstep s a hs hok.1
    exact ⟨ha, ih hnext hok.2⟩

/-- What relates the two ends of every step, and is transitive, relates the states visited
in their order. -/
theorem pairwise_scanl {R : σ → σ → Prop} (htrans : ∀ s₁ s₂ s₃, R s₁ s₂ → R s₂ s₃ → R s₁ s₃)
    (h : Along step (fun s a => R s (step s a)) s as) : (as.scanl step s).Pairwise R := by
  induction as generalizing s with
  | nil => simp
  | cons a as ih =>
    rw [List.scanl_cons, List.pairwise_cons]
    refine ⟨invariant_scanl (I := fun s' => R s s') ?_ h.1 h.2, ih h.2⟩
    intro s₁ a' hs₁ hstep
    exact htrans s s₁ _ hs₁ hstep

theorem invariant_foldl (hs : I s) (hstep : ∀ s, ∀ a ∈ as, I s → I (step s a)) :
    I (as.foldl step s) := by
  induction as generalizing s with
  | nil => exact hs
  | cons a as ih =>
    refine ih (hstep s a (by simp) hs) ?_
    intro s' a' ha' hs'
    exact hstep s' a' (List.mem_cons_of_mem a ha') hs'

theorem rel_foldl {R : σ → σ → Prop} (hrefl : ∀ s, R s s)
    (htrans : ∀ s₁ s₂ s₃, R s₁ s₂ → R s₂ s₃ → R s₁ s₃) (hstep : ∀ s, ∀ a ∈ as, R s (step s a))
    (s : σ) : R s (as.foldl step s) :=
  invariant_foldl (hrefl s) fun s' a ha hs' => htrans s s' _ hs' (hstep s' a ha)

/-- What one action of a run brings about, where an invariant holds, and no action undoes
holds at the end. -/
theorem reach_of_invariant {Q : σ → Prop} (ha : a ∈ as) (hs : I s)
    (hI : ∀ s, ∀ a' ∈ as, I s → I (step s a')) (hdo : ∀ s, I s → Q (step s a))
    (hkeep : ∀ s, ∀ a' ∈ as, Q s → Q (step s a')) : Q (as.foldl step s) := by
  obtain ⟨before, rest, rfl⟩ := List.append_of_mem ha
  rw [List.foldl_append, List.foldl_cons]
  have hbefore : I (before.foldl step s) :=
    invariant_foldl hs fun s' a' ha' => hI s' a' (List.mem_append_left _ ha')
  exact invariant_foldl (hdo _ hbefore) fun s' a' ha' =>
    hkeep s' a' (List.mem_append_right _ (List.mem_cons_of_mem a ha'))

/-- The same without an invariant. -/
theorem reach_foldl {Q : σ → Prop} (ha : a ∈ as) (hdo : ∀ s, Q (step s a))
    (hkeep : ∀ s a', Q s → Q (step s a')) (s : σ) : Q (as.foldl step s) :=
  reach_of_invariant (I := fun _ => True) ha trivial (fun _ _ _ _ => trivial) (fun s _ => hdo s)
    fun s' a' _ => hkeep s' a'

end Run

end Fcore
