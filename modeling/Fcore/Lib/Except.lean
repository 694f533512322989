import Mathlib.Tactic.TypeStar

/-!
# Fallible steps

A chain of fallible steps succeeds exactly if each of its steps does.
-/

namespace Fcore

def okOr {ε α : Type*} (e : ε) : Option α → Except ε α
  | some a => .ok a
  | none => .error e

def mapErr {ε ε' α : Type*} (f : ε → ε') : Except ε α → Except ε' α
  | .ok a => .ok a
  | .error e => .error (f e)

@[simp] theorem okOr_eq_ok_iff {ε α : Type*} {e : ε} {value : Option α} {a : α} :
    okOr e value = .ok a ↔ value = some a := by
  cases value with
  | none => simp [okOr]
  | some b => simp [okOr]

@[simp] theorem mapErr_eq_ok_iff {ε ε' α : Type*} {f : ε → ε'} {x : Except ε α} {a : α} :
    mapErr f x = .ok a ↔ x = .ok a := by
  cases x with
  | error e => simp [mapErr]
  | ok b => simp [mapErr]

theorem bind_eq_ok_iff {ε α β : Type} {x : Except ε α} {f : α → Except ε β} {b : β} :
    (x >>= f) = .ok b ↔ ∃ a, x = .ok a ∧ f a = .ok b := by
  cases x with
  | error e => simp [bind, Except.bind]
  | ok a => simp [bind, Except.bind]

theorem exists_of_bind_ok {ε α β : Type} {x : Except ε α} {f : α → Except ε β} {b : β}
    (h : (x >>= f) = .ok b) : ∃ a, x = .ok a ∧ f a = .ok b :=
  bind_eq_ok_iff.mp h

end Fcore
