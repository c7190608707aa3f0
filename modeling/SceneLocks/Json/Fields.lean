import SceneLocks.Json.Basic

/-!
# Fields

Structures and enumerations as JSON. A structure is an object whose unknown members do not
matter, or an array of its fields in order; a constant is its name, alone or as the only
member of an object, with null for its content.
-/

namespace SceneLocks.Json

/-- The value of the only member of a name; none if it is missing, refused if it is
repeated. -/
def uniqueMember? (members : List (String × Json)) (name : String) : Option (Option Json) :=
  match members.filter (·.1 = name) with
  | [] => some none
  | [(_, value)] => some (some value)
  | _ => none

/-- The fields of a structure, in the order of their names. Missing ones are none; an array
has no more items than there are names. -/
def fields? (names : List String) : Json → Option (List (Option Json))
  | .array items =>
    if items.length ≤ names.length then
      some (items.map some ++ List.replicate (names.length - items.length) none)
    else none
  | .object members => names.mapM (uniqueMember? members)
  | _ => none

/-- The constant of a name among some. -/
def constant? {α : Type} (named : List (String × α)) : Json → Option α
  | .string s => named.lookup s
  | .object [(s, .null)] => named.lookup s
  | _ => none

/-- The value of a field, or a default if it is missing. -/
def orElse {α : Type} (default : α) (f : Json → Option α) : Option Json → Option α
  | none => some default
  | some j => f j

/-- Nothing for null. -/
def nullable {α : Type} (f : Json → Option α) : Json → Option (Option α)
  | .null => some none
  | j => (f j).map some

end SceneLocks.Json
