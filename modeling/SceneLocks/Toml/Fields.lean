import SceneLocks.Toml.Value

/-!
# Fields

Structures and scalars as TOML. A structure is a table whose unknown keys do not matter, or
an array of its fields in order; a date is a structure without any known field.
-/

namespace SceneLocks.Toml

open Number

/-- Items by position, as many as there are names. -/
def byPosition (names : List String) (items : List Toml) : List (Option Toml) :=
  names.zipIdx.map fun (_, i) => items[i]?

/-- The fields of a structure, in the order of their names. Missing ones are none; items
beyond the names do not matter. -/
def fields? (names : List String) : Toml → Option (List (Option Toml))
  | .table _ members => some (names.map fun name => members.lookup name)
  | .array items => some (byPosition names items)
  | .tables rows => some (byPosition names rows)
  | .dateTime => some (names.map fun _ => none)
  | _ => none

def string? : Toml → Option String
  | .string s => some s
  | _ => none

/-- A whole number that fits 32 bits. -/
def count? : Toml → Option UInt32
  | .integer n => if 0 ≤ n ∧ n < UInt32.size then some n.toNat.toUInt32 else none
  | _ => none

/-- A double; an integer stands for the nearest one. -/
def double? : Toml → Option Binary64
  | .float x => some x
  | .integer n => some (.ofInt n)
  | _ => none

/-- The value of a field, or a default if it is missing. -/
def orElse {α : Type} (default : α) (f : Toml → Option α) : Option Toml → Option α
  | none => some default
  | some v => f v

end SceneLocks.Toml
