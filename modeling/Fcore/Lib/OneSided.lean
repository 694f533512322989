import Fcore.Lib.Table

/-!
# One-sided comparison of maps

A map is compared with another by reading its own fields there, where a missing field
counts as a default. This sees less than a comparison of the maps: a field that only the
other has, and a field with the default as its value that the other lacks. Both are
hidden fields. Maps with the same fields are those that agree one-sidedly and hide
nothing (`same_iff`), so without hidden fields the order of the two does not matter
(`agree_comm`).

The same for maps of maps, where the keys of the outer ones are compared on both sides.
-/

namespace Fcore.OneSided

variable {κ φ V : Type*} [DecidableEq κ] [DecidableEq φ]

section Fields

variable {d : V} {first second : Table φ V}

/-- Every field of the first is read from the second with its value. -/
def Reads (d : V) (first second : Table φ V) : Prop :=
  ∀ field value, first.lookup field = some value → (second.lookup field).getD d = value

/-- A difference in a field that the comparison does not see. -/
def Hidden (d : V) (first second : Table φ V) (field : φ) : Prop :=
  (first.lookup field = none ∧ (second.lookup field).isSome = true) ∨
    (first.lookup field = some d ∧ second.lookup field = none)

theorem lookup_eq_iff : (∀ field, first.lookup field = second.lookup field) ↔
    Reads d first second ∧ ∀ field, ¬ Hidden d first second field := by
  constructor
  · intro h
    refine ⟨fun field value hvalue => ?_, fun field hhidden => ?_⟩
    · rw [← h, hvalue, Option.getD_some]
    · rcases hhidden with ⟨hfirst, hsecond⟩ | ⟨hfirst, hsecond⟩
      · rw [← h, hfirst] at hsecond
        cases hsecond
      · rw [h, hsecond] at hfirst
        cases hfirst
  · rintro ⟨hreads, hhidden⟩ field
    cases hfirst : first.lookup field with
    | none =>
      cases hsecond : second.lookup field with
      | none => rfl
      | some value => exact absurd (.inl ⟨hfirst, by rw [hsecond]; rfl⟩) (hhidden field)
    | some value =>
      have hvalue := hreads field value hfirst
      cases hsecond : second.lookup field with
      | none =>
        rw [hsecond, Option.getD_none] at hvalue
        exact absurd (.inr ⟨hvalue ▸ hfirst, hsecond⟩) (hhidden field)
      | some value' =>
        rw [hsecond, Option.getD_some] at hvalue
        rw [hvalue]

end Fields

section Maps

variable {d : V} {a b : Table κ (Table φ V)}

/-- The keys are the same, and what the first has under a key is read from the second. -/
structure Agree (d : V) (a b : Table κ (Table φ V)) : Prop where
  keys : ∀ key, (a.lookup key).isSome = (b.lookup key).isSome
  reads : ∀ key first second, a.lookup key = some first → b.lookup key = some second →
    Reads d first second

/-- Both have the same fields under the same keys. -/
structure Same (a b : Table κ (Table φ V)) : Prop where
  keys : ∀ key, (a.lookup key).isSome = (b.lookup key).isSome
  fields : ∀ key first second, a.lookup key = some first → b.lookup key = some second →
    ∀ field, first.lookup field = second.lookup field

/-- A hidden field under a key that both have. -/
def Hides (d : V) (a b : Table κ (Table φ V)) (key : κ) (field : φ) : Prop :=
  ∃ first second, a.lookup key = some first ∧ b.lookup key = some second ∧
    Hidden d first second field

theorem Same.symm (h : Same a b) : Same b a :=
  ⟨fun key => (h.keys key).symm, fun key first second hfirst hsecond field =>
    (h.fields key second first hsecond hfirst field).symm⟩

theorem same_comm : Same a b ↔ Same b a := ⟨Same.symm, Same.symm⟩

theorem Same.bind_lookup (h : Same a b) (key : κ) (field : φ) :
    (a.lookup key).bind (fun fields => fields.lookup field) =
      (b.lookup key).bind fun fields => fields.lookup field := by
  have hkeys := h.keys key
  cases ha : a.lookup key with
  | none =>
    rw [ha, Option.isSome_none, eq_comm, Option.isSome_eq_false_iff, Option.isNone_iff_eq_none]
      at hkeys
    rw [hkeys]
  | some first =>
    rw [ha, Option.isSome_some, eq_comm, Option.isSome_iff_exists] at hkeys
    obtain ⟨second, hb⟩ := hkeys
    rw [hb]
    exact h.fields key first second ha hb field

theorem same_iff (d : V) : Same a b ↔ Agree d a b ∧ ∀ key field, ¬ Hides d a b key field := by
  constructor
  · intro h
    refine ⟨⟨h.keys, fun key first second hfirst hsecond => ?_⟩, ?_⟩
    · exact (lookup_eq_iff.mp (h.fields key first second hfirst hsecond)).1
    · rintro key field ⟨first, second, hfirst, hsecond, hhidden⟩
      exact (lookup_eq_iff.mp (h.fields key first second hfirst hsecond)).2 field hhidden
  · rintro ⟨hagree, hhides⟩
    refine ⟨hagree.keys, fun key first second hfirst hsecond => ?_⟩
    refine lookup_eq_iff.mpr ⟨hagree.reads key first second hfirst hsecond, ?_⟩
    exact fun field hhidden => hhides key field ⟨first, second, hfirst, hsecond, hhidden⟩

/-- Maps that hide nothing from each other agree in both orders or in none. -/
theorem agree_comm (hab : ∀ key field, ¬ Hides d a b key field)
    (hba : ∀ key field, ¬ Hides d b a key field) : Agree d a b ↔ Agree d b a :=
  calc Agree d a b ↔ Same a b := ((same_iff d).trans (and_iff_left hab)).symm
    _ ↔ Same b a := same_comm
    _ ↔ Agree d b a := (same_iff d).trans (and_iff_left hba)

end Maps

end Fcore.OneSided
