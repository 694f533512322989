import Mathlib.Data.List.Sort

/-!
# JSON values

Values with decidable equality. The fields of an object are kept in the order of their
names, so two objects with the same fields are the same value.
-/

namespace Fcore

mutual

inductive Json where
  | null
  | bool (b : Bool)
  | num (n : ℤ)
  | str (s : String)
  | arr (items : Json.Items)
  | obj (fields : Json.Fields)
  deriving DecidableEq, Repr

inductive Json.Items where
  | nil
  | cons (head : Json) (tail : Json.Items)
  deriving DecidableEq, Repr

inductive Json.Fields where
  | nil
  | cons (name : String) (value : Json) (tail : Json.Fields)
  deriving DecidableEq, Repr

end

namespace Json

def ofList (values : List Json) : Json := .arr (values.foldr .cons .nil)

def ofFields (fields : List (String × Json)) : Json :=
  .obj ((fields.insertionSort fun a b => a.1 ≤ b.1).foldr (fun field => .cons field.1 field.2) .nil)

def ofStrings (texts : List String) : Json := ofList (texts.map .str)

def ofU16 (n : UInt16) : Json := .num n.toNat

def ofU32 (n : UInt32) : Json := .num n.toNat

def ofOption {α : Type*} (f : α → Json) (value : Option α) : Json := (value.map f).getD .null

def Fields.get (name : String) : Fields → Option Json
  | .nil => none
  | .cons field value tail => if field = name then some value else tail.get name

def get (name : String) : Json → Option Json
  | .obj fields => fields.get name
  | _ => none

def asStr : Json → Option String
  | .str s => some s
  | _ => none

theorem length_of_ofFields_eq {fields fields' : List (String × Json)}
    (h : ofFields fields = ofFields fields') : fields.length = fields'.length := by
  have hinj : ∀ l l' : List (String × Json),
      l.foldr (fun field => Fields.cons field.1 field.2) .nil =
        l'.foldr (fun field => Fields.cons field.1 field.2) .nil → l.length = l'.length := by
    intro l
    induction l with
    | nil =>
      intro l' h
      cases l' with
      | nil => rfl
      | cons _ _ => cases h
    | cons field l ih =>
      intro l' h
      cases l' with
      | nil => cases h
      | cons field' l' =>
        simp only [List.foldr_cons, Fields.cons.injEq] at h
        simp only [List.length_cons, ih l' h.2.2]
  have hsorted := hinj _ _ (obj.inj h)
  rwa [List.length_insertionSort, List.length_insertionSort] at hsorted

end Json

end Fcore
