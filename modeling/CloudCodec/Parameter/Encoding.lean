/-
# Encoding arguments

The scalars of an argument are listed in order, each under its path: the names of the fields and
the numbers of the items that lead to it, with dots between them. The parameters of an object are
the scalars of its fields, each name put behind an optional scope.
-/
import CloudCodec.Parameter.Argument
import CloudCodec.Parameter.Set

namespace CloudCodec.Parameter

/-- A path with one more step. -/
def under (path step : String) : String := path ++ "." ++ step

/-- A name behind a scope, with one dot between them. An empty scope is none. -/
def qualify (scope : Option String) (name : String) : String :=
  match scope with
  | none => name
  | some s =>
    if s.isEmpty then name
    else if s.toList.getLast? = some '.' then s ++ name
    else under s name

theorem qualify_none (name : String) : qualify none name = name := rfl

theorem qualify_empty (name : String) : qualify (some "") name = name := rfl

/-- A scope with a final dot is put in front of the name as it is. -/
theorem qualify_of_dot {scope : String} (h : scope.toList.getLast? = some '.') (name : String) :
    qualify (some scope) name = scope ++ name := by
  have hempty : scope.isEmpty = false := by
    rw [Bool.eq_false_iff, ne_eq, String.isEmpty_iff]
    rintro rfl
    cases h
  rw [qualify]
  simp only [hempty, h, Bool.false_eq_true, if_false, if_true]

/-- Any other scope is put in front of it with a dot. -/
theorem qualify_of_ne_dot {scope : String} (hne : scope ≠ "")
    (h : scope.toList.getLast? ≠ some '.') (name : String) :
    qualify (some scope) name = scope ++ "." ++ name := by
  have hempty : scope.isEmpty = false := by simpa using hne
  rw [qualify]
  simp only [hempty, h, Bool.false_eq_true, if_false]
  rfl

mutual

/-- The scalars of an argument at a path, each with its own path. -/
def Argument.scalars (path : String) : Argument → List (String × String)
  | .scalar value => [(path, value.wire)]
  | .object fields => fieldScalars path fields
  | .list numbering items => itemScalars path numbering 0 items

/-- The scalars of fields of an object at a path. -/
def fieldScalars (path : String) : List (String × Argument) → List (String × String)
  | [] => []
  | (name, field) :: fields => field.scalars (under path name) ++ fieldScalars path fields

/-- The scalars of the items of a list at a path, the first of them at a position. -/
def itemScalars (path : String) (numbering : Numbering) (position : Nat) :
    List Argument → List (String × String)
  | [] => []
  | item :: items =>
    item.scalars (under path (Numeral.naturalText (numbering.index position)))
      ++ itemScalars path numbering (position + 1) items

end

/-- The parameters of an object. -/
def encodeObject (scope : Option String) (fields : Fields) : Except Error ParameterSet :=
  ParameterSet.addAll ∅ (fields.flatMap fun field => field.2.scalars (qualify scope field.1))

end CloudCodec.Parameter
