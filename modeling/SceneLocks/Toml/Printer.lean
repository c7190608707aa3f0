import SceneLocks.Number.Decimal
import SceneLocks.Toml.Value

/-!
# Printing TOML

Scalars and sections of scalars. A string gets the plainest quotes that need no escapes, if
there are any.
-/

namespace SceneLocks.Toml

open Number

/-! ## Strings -/

/-- The ways to quote a string. -/
inductive Quoting where
  | basic
  | literal
  | longBasic
  | longLiteral
deriving DecidableEq, Repr

/-- The length of the longest run of a character; the run that the text begins with goes on
from `current`. -/
def longestRun (c : Char) (current : Nat) : List Char → Nat
  | [] => current
  | d :: rest =>
    if d = c then longestRun c (current + 1) rest else max current (longestRun c 0 rest)

/-- Whether a character has to be escaped in strings of all kinds: an ASCII control character
other than the tab and the line feed. -/
def isControl (c : Char) : Bool := (c < ' ' && c ≠ '\t' && c ≠ '\n') || c = '\x7f'

/-- The first way that does without escapes: the shorter ones before the longer ones, and
double quotes before single ones. -/
def Quoting.choose (cs : List Char) : Quoting :=
  let escaped := cs.any isControl
  let slashed := cs.contains '\\'
  let broken := cs.contains '\n'
  let doubles := longestRun '\x22' 0 cs
  let singles := longestRun '\'' 0 cs
  if !escaped && !slashed && doubles == 0 && !broken then .basic
  else if !escaped && singles == 0 && !broken then .literal
  else if !escaped && !slashed && doubles ≤ 2 then .longBasic
  else if !escaped && singles ≤ 2 then .longLiteral
  else if broken then .longBasic
  else .basic

/-- The escape of a character other than the quote. -/
def escape (c : Char) : List Char :=
  if c = '\x08' then ['\\', 'b']
  else if c = '\t' then ['\\', 't']
  else if c = '\n' then ['\\', 'n']
  else if c = '\x0c' then ['\\', 'f']
  else if c = '\r' then ['\\', 'r']
  else if c = '\\' then ['\\', '\\']
  else
    let ds := (Nat.toDigits 16 c.toNat).map Char.toUpper
    ['\\', 'u'] ++ List.replicate (4 - ds.length) '0' ++ ds

/-- Whether a character is escaped between double quotes. A line break may stand in a string
of several lines. -/
def isEscaped (long : Bool) (c : Char) : Bool :=
  isControl c || c = '\t' || c = '\\' || (c = '\n' && !long)

/-- The text between double quotes. Quotes are escaped, but up to two in a row may stand in
a string of several lines; `run` counts those right before. -/
def basicBody (long : Bool) (run : Nat) : List Char → List Char
  | [] => []
  | c :: rest =>
    if c = '\x22' then
      if long ∧ run < 2 then '\x22' :: basicBody long (run + 1) rest
      else '\\' :: '\x22' :: basicBody long 0 rest
    else (if isEscaped long c then escape c else [c]) ++ basicBody long 0 rest

/-- A text between quotes. A string of several lines begins on a line of its own if it holds
a line break. -/
def Quoting.enclose (q : Quoting) (cs : List Char) : List Char :=
  let start := if cs.contains '\n' then ['\n'] else []
  match q with
  | .basic => ['\x22'] ++ basicBody false 0 cs ++ ['\x22']
  | .literal => ['\''] ++ cs ++ ['\'']
  | .longBasic =>
    List.replicate 3 '\x22' ++ start ++ basicBody true 0 cs ++ List.replicate 3 '\x22'
  | .longLiteral => List.replicate 3 '\'' ++ start ++ cs ++ List.replicate 3 '\''

/-- A string in quotes. -/
def quoted (s : String) : String :=
  String.ofList ((Quoting.choose s.toList).enclose s.toList)

/-! ## Numbers and sections -/

/-- A double with a point, unless it is infinite or NaN. -/
def floatText (x : Binary64) : String :=
  match x with
  | .nan => "nan"
  | .infinite _ => x.text
  | .finite .. => if x.isWhole then x.text ++ ".0" else x.text

/-- A header and the assignments under it, each on its own line. -/
def sectionText (name : String) (assignments : List (String × String)) : String :=
  "[" ++ name ++ "]\n" ++
    String.join (assignments.map fun (key, value) => key ++ " = " ++ value ++ "\n")

end SceneLocks.Toml
