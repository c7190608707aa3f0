import SceneLocks.Json.Basic

/-!
# Printing JSON

Values on one line without blanks, or spread over lines with two blanks of indentation per
level. Only quotes, backslashes and control characters are escaped. A garbled value has no
text of its own and is shown as null.
-/

namespace SceneLocks.Json

open Number

/-- Two lower-case hexadecimal digits. -/
def hexByte (n : Nat) : List Char :=
  let ds := Nat.toDigits 16 n
  List.replicate (2 - ds.length) '0' ++ ds

/-- A character as it stands in a string. -/
def escape (c : Char) : List Char :=
  if c = '\x22' then ['\\', '\x22']
  else if c = '\\' then ['\\', '\\']
  else if c = '\x08' then ['\\', 'b']
  else if c = '\x0c' then ['\\', 'f']
  else if c = '\n' then ['\\', 'n']
  else if c = '\r' then ['\\', 'r']
  else if c = '\t' then ['\\', 't']
  else if c < ' ' then ['\\', 'u', '0', '0'] ++ hexByte c.toNat
  else [c]

/-- A string in quotes. -/
def quoted (s : String) : String :=
  String.ofList ('\x22' :: s.toList.flatMap escape ++ ['\x22'])

mutual

/-- A value on one line. -/
def compact : Json → String
  | .null | .garbled => "null"
  | .bool b => if b then "true" else "false"
  | .number spelling => spelling
  | .string s => quoted s
  | .array items => "[" ++ compactItems items ++ "]"
  | .object members => "\x7b" ++ compactMembers members ++ "\x7d"

/-- Items on one line. -/
def compactItems : List Json → String
  | [] => ""
  | [item] => compact item
  | item :: rest => compact item ++ "," ++ compactItems rest

/-- Members on one line. -/
def compactMembers : List (String × Json) → String
  | [] => ""
  | [(name, value)] => quoted name ++ ":" ++ compact value
  | (name, value) :: rest => quoted name ++ ":" ++ compact value ++ "," ++ compactMembers rest

end

/-- A new line at a level of indentation. -/
def newLine (level : Nat) : String :=
  String.ofList ('\n' :: List.replicate (2 * level) ' ')

mutual

/-- A value over several lines, starting at a level of indentation. -/
def pretty (level : Nat) : Json → String
  | .array [] => "[]"
  | .array items => "[" ++ prettyItems (level + 1) items ++ newLine level ++ "]"
  | .object [] => "\x7b\x7d"
  | .object members => "\x7b" ++ prettyMembers (level + 1) members ++ newLine level ++ "\x7d"
  | .null | .garbled => "null"
  | .bool b => if b then "true" else "false"
  | .number spelling => spelling
  | .string s => quoted s

/-- Items, each on its own lines. -/
def prettyItems (level : Nat) : List Json → String
  | [] => ""
  | [item] => newLine level ++ pretty level item
  | item :: rest => newLine level ++ pretty level item ++ "," ++ prettyItems level rest

/-- Members, each on its own lines. -/
def prettyMembers (level : Nat) : List (String × Json) → String
  | [] => ""
  | [(name, value)] => newLine level ++ quoted name ++ ": " ++ pretty level value
  | (name, value) :: rest =>
    newLine level ++ quoted name ++ ": " ++ pretty level value ++ "," ++
      prettyMembers level rest

end

/-- The shortest spelling of a double, with a fraction or an exponent: positional from
`10 ^ -5` up to below `10 ^ 16`. JSON has no infinity and no NaN. -/
def ofDouble : Binary64 → Json
  | .nan | .infinite _ => .null
  | .finite negative mantissa exponent =>
    let body :=
      if mantissa = 0 then "0.0"
      else
        let d := Decimal.shortest .even mantissa exponent
        if -5 < d.point ∧ d.point ≤ 16 then
          if 0 ≤ d.exponent then d.positional ++ ".0" else d.positional
        else d.scientific
    .number (if negative then "-" ++ body else body)

end SceneLocks.Json
