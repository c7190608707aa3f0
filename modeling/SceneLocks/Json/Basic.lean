import SceneLocks.Number.Decimal
import SceneLocks.Number.Stepwise

/-!
# JSON

Values as they are written: numbers keep their digits and objects the order and the
repetition of their members. Escapes can spell surrogates that do not pair up to a
character; what holds one is well-formed all the same, and can be passed over.
-/

namespace SceneLocks

/-- A JSON value. -/
inductive Json where
  | null
  | bool (b : Bool)
  /-- A number, as it is spelled. -/
  | number (spelling : String)
  | string (s : String)
  | array (items : List Json)
  | object (members : List (String × Json))
  /-- A string with an unpaired surrogate, or an object with such a name. -/
  | garbled
deriving Inhabited

namespace Json

open Number

def ofNat (n : Nat) : Json := .number (toString n)

/-- Null for nothing. -/
def ofOption {α : Type} (f : α → Json) : Option α → Json
  | none => .null
  | some a => f a

/-- An array of strings. -/
def strings (ss : List String) : Json := .array (ss.map .string)

def string? : Json → Option String
  | .string s => some s
  | _ => none

/-- A whole number that fits 32 bits; neither a sign nor a fraction is admitted. -/
def count? : Json → Option UInt32
  | .number spelling => readCount? spelling
  | _ => none

/-- A number of the double-precision range, read step by step. -/
def double? : Json → Option Binary64
  | .number spelling => (Spelling.read? spelling).bind Spelling.stepwise?
  | _ => none

/-- The first member of a name. -/
def member? (j : Json) (name : String) : Option Json :=
  match j with
  | .object members => members.lookup name
  | _ => none

end Json

end SceneLocks
