import Mathlib.Data.List.Basic

/-!
# Waiters on a notification

Tasks wait for the notifications of a notifier. A notification goes to one of the tasks that
wait, whichever; when there is none the notifier keeps it for the next task that comes. The
tasks stand in a list, and the queue of a notifier is not stored but read from it: its
waiters are the tasks that wait for it.

A notification changes one task and leaves the others, and so does every step of a task.
`Replaced` is what such a change does to the list.
-/

namespace Fcore

/-- The future with which a task waits: not in the queue, in the queue, notified there, or
completed. -/
inductive Notified where
  | idle
  | waiting
  | notified
  | done
  deriving DecidableEq, Repr

namespace Notify

variable {τ : Type*}

def Replaced (a a' : τ) (l l' : List τ) : Prop :=
  ∃ before rest, l = before ++ a :: rest ∧ l' = before ++ a' :: rest

/-- Notify one waiting task: the chosen one, or the first when that does not wait. -/
def wakeOne (waits : τ → Bool) (notify : τ → τ) (choice : ℕ) (l : List τ) : Option (List τ) :=
  let i := if l[choice]?.any waits then some choice else l.findIdx? waits
  i.map fun i => l.modify i notify

section

variable {a a' b : τ} {l l' : List τ}

theorem Replaced.mem (h : Replaced a a' l l') : a ∈ l := by
  obtain ⟨before, rest, rfl, rfl⟩ := h
  simp

theorem Replaced.mem_new (h : Replaced a a' l l') : a' ∈ l' := by
  obtain ⟨before, rest, rfl, rfl⟩ := h
  simp

theorem Replaced.eq_or_mem_old (h : Replaced a a' l l') (hb : b ∈ l') : b = a' ∨ b ∈ l := by
  obtain ⟨before, rest, rfl, rfl⟩ := h
  simp only [List.mem_append, List.mem_cons] at hb ⊢
  tauto

theorem Replaced.eq_or_mem_new (h : Replaced a a' l l') (hb : b ∈ l) : b = a ∨ b ∈ l' := by
  obtain ⟨before, rest, rfl, rfl⟩ := h
  simp only [List.mem_append, List.mem_cons] at hb ⊢
  tauto

theorem replaced_set {i : ℕ} (h : l[i]? = some a) (a' : τ) : Replaced a a' l (l.set i a') := by
  obtain ⟨hi, rfl⟩ := List.getElem?_eq_some_iff.mp h
  obtain ⟨before, rest, hl, -, hset⟩ := @List.exists_of_set _ i a' l hi
  exact ⟨before, rest, hl, hset⟩

theorem replaced_modify {i : ℕ} (h : l[i]? = some a) (f : τ → τ) :
    Replaced a (f a) l (l.modify i f) := by
  rw [List.modify_eq_set_getElem?, h]
  exact replaced_set h (f a)

end

section

variable {waits : τ → Bool} {notify : τ → τ} {choice : ℕ} {l l' : List τ}

theorem wakeOne_eq_some (h : wakeOne waits notify choice l = some l') :
    ∃ a, waits a = true ∧ Replaced a (notify a) l l' := by
  simp only [wakeOne, Option.map_eq_some_iff] at h
  obtain ⟨i, hi, rfl⟩ := h
  split at hi
  · rename_i hchoice
    cases hi
    obtain ⟨a, ha, hwaits⟩ := Option.any_eq_true _ _ |>.mp hchoice
    exact ⟨a, hwaits, replaced_modify ha notify⟩
  · obtain ⟨hlt, hwaits, -⟩ := List.findIdx?_eq_some_iff_getElem.mp hi
    exact ⟨l[i], hwaits, replaced_modify (List.getElem?_eq_getElem hlt) notify⟩

theorem wakeOne_eq_none (h : wakeOne waits notify choice l = none) :
    ∀ a ∈ l, waits a = false := by
  simp only [wakeOne, Option.map_eq_none_iff] at h
  split at h
  · cases h
  · exact List.findIdx?_eq_none_iff.mp h

end

end Notify

end Fcore
