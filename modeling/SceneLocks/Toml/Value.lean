import SceneLocks.Number.Binary64

/-!
# TOML values

Values, and tables under construction. A table remembers how it came to be, because that
decides how it may still grow: an inline table not at all, a table with a header by its
subtables, one made by a dotted key by dotted keys, and one that was only passed through by
a header's path may get a header later.
-/

namespace SceneLocks

/-- How a table came to be. -/
inductive Toml.Origin where
  | inline
  | header
  /-- On the path of a header. -/
  | passed
  /-- On the path of a dotted key. -/
  | dotted
deriving DecidableEq, Repr, Inhabited

/-- A TOML value. -/
inductive Toml where
  | string (s : String)
  | integer (n : Int)
  | float (x : Number.Binary64)
  | boolean (b : Bool)
  /-- Any date, time of day or both. -/
  | dateTime
  | array (items : List Toml)
  | table (origin : Toml.Origin) (members : List (String × Toml))
  /-- Tables with repeated headers, in order. -/
  | tables (rows : List Toml)
deriving Inhabited

namespace Toml

/-- A table under construction. -/
structure Table where
  origin : Origin := .header
  members : List (String × Toml) := []
deriving Inhabited

namespace Table

def value (t : Table) : Toml := .table t.origin t.members

def get? (t : Table) (key : String) : Option Toml := t.members.lookup key

def erase (t : Table) (key : String) : Table :=
  { t with members := t.members.filter (·.1 ≠ key) }

def set (t : Table) (key : String) (v : Toml) : Table :=
  { t with members := (t.erase key).members ++ [(key, v)] }

/-- Changes the table at a path, in the last row of every table with repeated headers.
Missing tables are made on the way. Dotted keys do not enter a table that has a header. -/
def modifyAt (dotted : Bool) : List String → (Table → Option Table) → Table → Option Table
  | [], f, t => f t
  | key :: path, f, t =>
    match t.get? key with
    | none =>
      (modifyAt dotted path f { origin := if dotted then .dotted else .passed }).map
        fun child => t.set key child.value
    | some (.table origin members) =>
      if origin = .inline ∨ (dotted ∧ origin = .header) then none
      else (modifyAt dotted path f ⟨origin, members⟩).map fun child => t.set key child.value
    | some (.tables rows) =>
      match rows.getLast? with
      | some (.table origin members) =>
        (modifyAt dotted path f ⟨origin, members⟩).map fun child =>
          t.set key (.tables (rows.dropLast ++ [child.value]))
      | _ => none
    | some _ => none

/-- The value at a path, in the last row of every table with repeated headers. -/
def find? : List String → String → Table → Option Toml
  | [], key, t => t.get? key
  | step :: path, key, t =>
    match t.get? step with
    | some (.table origin members) => find? path key ⟨origin, members⟩
    | some (.tables rows) =>
      match rows.getLast? with
      | some (.table origin members) => find? path key ⟨origin, members⟩
      | _ => none
    | _ => none

/-- Assigns a value to a new key. A dotted key only adds to tables made by dotted keys. -/
def assign (t : Table) (path : List String) (key : String) (v : Toml) : Option Table :=
  t.modifyAt true path fun inner =>
    if (path ≠ [] ∧ inner.origin ≠ .dotted) ∨ (inner.get? key).isSome then none
    else some (inner.set key v)

end Table

end Toml

end SceneLocks
