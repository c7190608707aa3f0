import SceneLocks.Json.Reader

/-!
# Universally unique identifiers

Sixteen bytes, as thirty-two hexadecimal digits in five groups. Reading also takes the
digits without hyphens, in braces, or as a name of the `uuid` space, in either case.
-/

namespace SceneLocks.Text

/-- An identifier, as the values of its hexadecimal digits. -/
structure Uuid where
  digits : List Nat
deriving DecidableEq, Repr, Inhabited

namespace Uuid

/-- Thirty-two digits without anything between them. -/
def readPlain? (cs : List Char) : Option Uuid :=
  if cs.length = 32 then (cs.mapM Json.hexDigit?).map Uuid.mk else none

/-- Five groups of digits with hyphens between them. -/
def readGrouped? (cs : List Char) : Option Uuid :=
  if [8, 13, 18, 23].all (fun i => cs[i]? == some '-') then
    readPlain? (cs.filter (· ≠ '-'))
  else none

/-- Reads an identifier. -/
def read? (s : String) : Option Uuid :=
  let cs := s.toList
  match cs.length with
  | 32 => readPlain? cs
  | 36 => readGrouped? cs
  | 38 =>
    if cs.head? = some '\x7b' ∧ cs.getLast? = some '\x7d' then readGrouped? cs.tail.dropLast
    else none
  | 45 =>
    if (cs.take 9).map Char.toLower = "urn:uuid:".toList then readGrouped? (cs.drop 9) else none
  | _ => none

/-- The groups of digits, in lower case. -/
def text (u : Uuid) : String :=
  let cs := u.digits.map Nat.digitChar
  let group (start length : Nat) := String.ofList ((cs.drop start).take length)
  "-".intercalate [group 0 8, group 8 4, group 12 4, group 16 4, group 20 12]

end Uuid

end SceneLocks.Text
