import Fcore.Lib.Run

/-!
# Interleaved threads

Several threads share a state and take turns; one turn advances one thread from one
suspension point to the next. A thread is waiting, active or finished. When threads
start one after the other, each only while no other is active, what has to be shown
about an interleaving is what one thread does alone: from a state in which nobody is
active it leads, through states in which it is the active one, back to such a state.
`Protocol` lists these obligations and `Protocol.exclusive_step` is the rule.

Where threads exclude each other only over what they hold, `Pool.Apart` says that no two
hold the same, and `Pool.HeldApart` is the case of threads that hold one thing at most;
`Pool.HasThread` says that some thread has a property.
-/

namespace Fcore

inductive Phase where
  | waiting
  | active
  | finished
  deriving DecidableEq, Repr

structure Pool (σ τ : Type*) where
  shared : σ
  threads : List τ

namespace Pool

variable {σ τ ι : Type*}

/-- One turn: which thread moves, and what the outside contributes. -/
def step (advance : ι → τ → σ → σ × τ) (p : Pool σ τ) (turn : ℕ × ι) : Pool σ τ :=
  match p.threads[turn.1]? with
  | none => p
  | some t =>
    let r := advance turn.2 t p.shared
    ⟨r.1, p.threads.set turn.1 r.2⟩

section Step

variable {advance : ι → τ → σ → σ × τ} {p : Pool σ τ} {turn : ℕ × ι} {i : ℕ} {t : τ}

theorem step_none (h : p.threads[turn.1]? = none) : p.step advance turn = p := by
  rw [step, h]

theorem step_some (h : p.threads[turn.1]? = some t) :
    p.step advance turn = ⟨(advance turn.2 t p.shared).1,
      p.threads.set turn.1 (advance turn.2 t p.shared).2⟩ := by
  rw [step, h]

/-- What holds of a pool holds after a turn, if it holds after the move of the thread whose
turn it is. -/
theorem step_keeps {I : Pool σ τ → Prop} (h : I p)
    (hmove : ∀ t, p.threads[turn.1]? = some t →
      I ⟨(advance turn.2 t p.shared).1, p.threads.set turn.1 (advance turn.2 t p.shared).2⟩) :
    I (p.step advance turn) := by
  cases ht : p.threads[turn.1]? with
  | none => rwa [step_none ht]
  | some t =>
    rw [step_some ht]
    exact hmove t ht

theorem set_self (h : p.threads[i]? = some t) : p.threads.set i t = p.threads := by
  obtain ⟨hlt, rfl⟩ := List.getElem?_eq_some_iff.mp h
  exact List.set_getElem_self hlt

end Step

def noneActive (phase : τ → Phase) (p : Pool σ τ) : Bool :=
  p.threads.all fun t => decide (phase t ≠ .active)

/-- A turn is orderly: a thread starts only while nobody is active, and an active
thread moves only where it is allowed to. -/
def orderly (phase : τ → Phase) (allowed : ι → τ → σ → Bool) (p : Pool σ τ) (turn : ℕ × ι) :
    Bool :=
  match p.threads[turn.1]? with
  | none => true
  | some t =>
    match phase t with
    | .waiting => p.noneActive phase
    | .active => allowed turn.2 t p.shared
    | .finished => true

theorem noneActive_iff {phase : τ → Phase} {p : Pool σ τ} :
    p.noneActive phase = true ↔ ∀ (i : ℕ) t, p.threads[i]? = some t → phase t ≠ .active := by
  simp only [noneActive, List.all_eq_true, decide_eq_true_eq]
  constructor
  · intro h i t ht
    exact h t (List.mem_of_getElem? ht)
  · intro h t ht
    obtain ⟨i, hi⟩ := List.getElem?_of_mem ht
    exact h i t hi

theorem eq_or_of_getElem?_set {l : List τ} {i j : ℕ} {a b : τ} (h : (l.set i a)[j]? = some b) :
    j = i ∧ b = a ∨ j ≠ i ∧ l[j]? = some b := by
  by_cases hji : j = i
  · subst hji
    rw [List.getElem?_set_self'] at h
    obtain ⟨_, -, rfl⟩ := Option.map_eq_some_iff.mp h
    exact .inl ⟨rfl, rfl⟩
  · rw [List.getElem?_set_ne (Ne.symm hji)] at h
    exact .inr ⟨hji, h⟩

def HasThread (P : τ → Prop) (p : Pool σ τ) : Prop :=
  ∃ (i : ℕ) (t : τ), p.threads[i]? = some t ∧ P t

section HasThread

variable {P : τ → Prop} {p : Pool σ τ} {i : ℕ} {t u : τ}

theorem hasThread_set_self (ht : p.threads[i]? = some t) (hu : P u) (s : σ) :
    HasThread P ⟨s, p.threads.set i u⟩ := by
  refine ⟨i, u, ?_, hu⟩
  rw [List.getElem?_set_self', ht]
  rfl

theorem HasThread.set (h : p.HasThread P) (ht : p.threads[i]? = some t) (hu : P t → P u) (s : σ) :
    HasThread P ⟨s, p.threads.set i u⟩ := by
  obtain ⟨j, t', ht', hP⟩ := h
  by_cases hj : j = i
  · subst hj
    rw [ht] at ht'
    cases ht'
    exact hasThread_set_self ht (hu hP) s
  · exact ⟨j, t', by rwa [List.getElem?_set_ne (Ne.symm hj)], hP⟩

theorem HasThread.of_set {s : σ} (h : HasThread P ⟨s, p.threads.set i u⟩)
    (ht : p.threads[i]? = some t) (hu : P u → P t) : p.HasThread P := by
  obtain ⟨j, t', ht', hP⟩ := h
  rcases eq_or_of_getElem?_set ht' with ⟨-, rfl⟩ | ⟨-, hold⟩
  · exact ⟨i, t, ht, hu hP⟩
  · exact ⟨j, t', hold, hP⟩

theorem hasThread_set_iff (ht : p.threads[i]? = some t) (hu : P u ↔ P t) (s : σ) :
    HasThread P ⟨s, p.threads.set i u⟩ ↔ p.HasThread P :=
  ⟨fun h => h.of_set ht hu.mp, fun h => h.set ht hu.mpr s⟩

end HasThread

/-- No two threads hold the same thing, where a thread may hold several. -/
def Apart {κ : Type*} (holds : τ → κ → Prop) (p : Pool σ τ) : Prop :=
  ∀ (i j : ℕ) t t' k, i ≠ j → p.threads[i]? = some t → p.threads[j]? = some t' →
    holds t k → ¬ holds t' k

/-- A thread may keep what it holds, drop it, or take what nobody holds. -/
theorem Apart.set {κ : Type*} {holds : τ → κ → Prop} {p : Pool σ τ} (h : p.Apart holds)
    {i : ℕ} {t u : τ} (ht : p.threads[i]? = some t)
    (hu : ∀ k, holds u k → holds t k ∨
      ∀ (j : ℕ) t', p.threads[j]? = some t' → ¬ holds t' k) (s : σ) :
    Apart holds ⟨s, p.threads.set i u⟩ := by
  -- what the moved thread holds afterwards, no other thread holds
  have hothers : ∀ (j : ℕ) t' k, j ≠ i → p.threads[j]? = some t' → holds u k → ¬ holds t' k := by
    intro j t' k hj ht' hk
    rcases hu k hk with hheld | hnobody
    · exact h i j t t' k (Ne.symm hj) ht ht' hheld
    · exact hnobody j t' ht'
  intro j j' a a' k hne ha ha' hk
  rcases eq_or_of_getElem?_set ha with ⟨rfl, rfl⟩ | ⟨hj, hold⟩
  · rcases eq_or_of_getElem?_set ha' with ⟨rfl, -⟩ | ⟨hj', hold'⟩
    · exact absurd rfl hne
    · exact hothers j' a' k hj' hold' hk
  · rcases eq_or_of_getElem?_set ha' with ⟨rfl, rfl⟩ | ⟨hj', hold'⟩
    · intro hk'
      exact hothers j a k hj hold hk' hk
    · exact h j j' a a' k hne hold hold' hk

/-- No two threads hold the same thing. -/
def HeldApart {κ : Type*} (held : τ → Option κ) (p : Pool σ τ) : Prop :=
  ∀ (i j : ℕ) t t' k, i ≠ j → p.threads[i]? = some t → p.threads[j]? = some t' →
    held t = some k → held t' ≠ some k

theorem HeldApart.set {κ : Type*} {held : τ → Option κ} {p : Pool σ τ} (h : p.HeldApart held)
    {i : ℕ} {t u : τ} (ht : p.threads[i]? = some t)
    (hu : ∀ k, held u = some k → held t = some k ∨
      ∀ (j : ℕ) t', p.threads[j]? = some t' → held t' ≠ some k) (s : σ) :
    HeldApart held ⟨s, p.threads.set i u⟩ := by
  have hapart : p.Apart fun t k => held t = some k := h
  exact hapart.set ht hu s

end Pool

/-- What a thread has to do alone. `Idle` describes the shared state while nobody is
active, `Busy` while the given thread is. `Good` is kept by every thread. -/
structure Protocol {σ τ ι : Type*} (advance : ι → τ → σ → σ × τ) (phase : τ → Phase)
    (allowed : ι → τ → σ → Bool) (Good : τ → Prop) (Idle : σ → Prop) (Busy : τ → σ → Prop) :
    Prop where
  good : ∀ x t s, Good t → Good (advance x t s).2
  start : ∀ x t s, Good t → phase t = .waiting → Idle s →
    phase (advance x t s).2 ≠ .active ∧ Idle (advance x t s).1 ∨
      phase (advance x t s).2 = .active ∧ Busy (advance x t s).2 (advance x t s).1
  go : ∀ x t s, Good t → phase t = .active → Busy t s → allowed x t s = true →
    phase (advance x t s).2 ≠ .active ∧ Idle (advance x t s).1 ∨
      phase (advance x t s).2 = .active ∧ Busy (advance x t s).2 (advance x t s).1
  finished : ∀ x t s, phase t = .finished → advance x t s = (s, t)

namespace Protocol

variable {σ τ ι : Type*} {advance : ι → τ → σ → σ × τ} {phase : τ → Phase}
  {allowed : ι → τ → σ → Bool} {Good : τ → Prop} {Idle : σ → Prop} {Busy : τ → σ → Prop}

/-- At most one thread is active, and the shared state is as it leaves it. -/
structure Exclusive (phase : τ → Phase) (Good : τ → Prop) (Idle : σ → Prop) (Busy : τ → σ → Prop)
    (p : Pool σ τ) : Prop where
  good : ∀ (i : ℕ) t, p.threads[i]? = some t → Good t
  shared : (∀ (i : ℕ) t, p.threads[i]? = some t → phase t ≠ .active) ∧ Idle p.shared ∨
    ∃ (i : ℕ) (t : τ), p.threads[i]? = some t ∧ phase t = .active ∧ Busy t p.shared ∧
      ∀ (j : ℕ) t', j ≠ i → p.threads[j]? = some t' → phase t' ≠ .active

/-- The pool after a move of a thread, while no other thread is active. -/
theorem Exclusive.of_move {p : Pool σ τ} {i : ℕ} {t : τ} {r : σ × τ}
    (hgood : ∀ (j : ℕ) t, p.threads[j]? = some t → Good t) (hr : Good r.2)
    (ht : p.threads[i]? = some t)
    (hothers : ∀ (j : ℕ) t', j ≠ i → p.threads[j]? = some t' → phase t' ≠ .active)
    (hmove : phase r.2 ≠ .active ∧ Idle r.1 ∨ phase r.2 = .active ∧ Busy r.2 r.1) :
    Exclusive phase Good Idle Busy ⟨r.1, p.threads.set i r.2⟩ := by
  constructor
  · intro j t' ht'
    rcases Pool.eq_or_of_getElem?_set ht' with ⟨-, rfl⟩ | ⟨-, ht'⟩
    · exact hr
    · exact hgood j t' ht'
  · rcases hmove with ⟨hphase, hidle⟩ | ⟨hphase, hbusy⟩
    · refine .inl ⟨fun j t' ht' => ?_, hidle⟩
      rcases Pool.eq_or_of_getElem?_set ht' with ⟨-, rfl⟩ | ⟨hj, ht'⟩
      · exact hphase
      · exact hothers j t' hj ht'
    · refine .inr ⟨i, r.2, ?_, hphase, hbusy, fun j t' hj ht' => ?_⟩
      · rw [List.getElem?_set_self', ht]
        rfl
      · rcases Pool.eq_or_of_getElem?_set ht' with ⟨hji, -⟩ | ⟨-, ht'⟩
        · exact absurd hji hj
        · exact hothers j t' hj ht'

/-- An orderly turn keeps the threads apart. -/
theorem exclusive_step (h : Protocol advance phase allowed Good Idle Busy) {p : Pool σ τ}
    {turn : ℕ × ι} (hp : Exclusive phase Good Idle Busy p)
    (hturn : p.orderly phase allowed turn = true) :
    Exclusive phase Good Idle Busy (p.step advance turn) := by
  unfold Pool.orderly at hturn
  refine Pool.step_keeps hp fun t ht => ?_
  rw [ht] at hturn
  have hgood := hp.good turn.1 t ht
  cases hphase : phase t with
  | waiting =>
    have hnone : p.noneActive phase = true := by simpa [hphase] using hturn
    have hnone' := Pool.noneActive_iff.mp hnone
    rcases hp.shared with ⟨-, hidle⟩ | ⟨i, t', ht', hactive, -⟩
    · exact .of_move hp.good (h.good _ t _ hgood) ht (fun j t' _ => hnone' j t')
        (h.start _ t _ hgood hphase hidle)
    · exact absurd hactive (hnone' i t' ht')
  | active =>
    have hallowed : allowed turn.2 t p.shared = true := by simpa [hphase] using hturn
    rcases hp.shared with ⟨hnone, -⟩ | ⟨i, t', ht', hactive, hbusy, hothers⟩
    · exact absurd hphase (hnone turn.1 t ht)
    · obtain rfl : turn.1 = i := by
        by_contra hne
        exact hothers turn.1 t hne ht hphase
      rw [ht] at ht'
      cases ht'
      exact .of_move hp.good (h.good _ t _ hgood) ht hothers
        (h.go _ t _ hgood hphase hbusy hallowed)
  | finished =>
    rw [h.finished turn.2 t p.shared hphase]
    rw [Pool.set_self ht]
    exact hp

end Protocol

end Fcore
