import SceneLocks.Number.Binary64

/-!
# Reading numbers

Decimal fractions with an optional exponent, and unsigned 32-bit counts. The whole text has
to be the number; no blanks, no separators.
-/

namespace SceneLocks.Number

/-- The value of a run of decimal digits. -/
def digitsValue (ds : List Char) : Nat :=
  ds.foldl (fun n c => 10 * n + (c.toNat - '0'.toNat)) 0

/-- A leading sign, and what follows it. -/
def readSign : List Char → Bool × List Char
  | '-' :: rest => (true, rest)
  | '+' :: rest => (false, rest)
  | rest => (false, rest)

/-- The exponent part of a number: nothing, or a mark, an optional sign and digits. -/
def readExponent? : List Char → Option Int
  | [] => some 0
  | c :: rest =>
    if c = 'e' ∨ c = 'E' then
      let (negative, ds) := readSign rest
      if ds ≠ [] ∧ ds.all Char.isDigit then
        some (if negative then -(digitsValue ds : Int) else digitsValue ds)
      else none
    else none

/-- A decimal fraction as it is spelled: digits before and after the point, and a power of
ten. -/
structure Spelling where
  negative : Bool
  whole : List Char
  fraction : List Char
  exponent : Int
deriving DecidableEq, Repr

namespace Spelling

/-- Digits, an optional point with digits, an optional exponent; one digit at least. -/
def ofUnsigned? (negative : Bool) (cs : List Char) : Option Spelling :=
  let whole := cs.takeWhile Char.isDigit
  let (fraction, rest) :=
    match cs.dropWhile Char.isDigit with
    | '.' :: rest => (rest.takeWhile Char.isDigit, rest.dropWhile Char.isDigit)
    | rest => ([], rest)
  if whole = [] ∧ fraction = [] then none
  else (readExponent? rest).map fun exponent => { negative, whole, fraction, exponent }

/-- Reads the spelling of a decimal fraction. -/
def read? (s : String) : Option Spelling :=
  let (negative, cs) := readSign s.toList
  ofUnsigned? negative cs

/-- The double nearest to the number that is spelled. -/
def nearest (s : Spelling) : Binary64 :=
  .ofDecimal s.negative (digitsValue (s.whole ++ s.fraction)) (s.exponent - s.fraction.length)

end Spelling

/-- Reads a double: a decimal fraction, or a name for infinity or NaN in any case. -/
def Binary64.read? (s : String) : Option Binary64 :=
  let (negative, cs) := readSign s.toList
  let name := String.ofList (cs.map Char.toLower)
  if name = "inf" ∨ name = "infinity" then some (.infinite negative)
  else if name = "nan" then some .nan
  else (Spelling.ofUnsigned? negative cs).map Spelling.nearest

/-- Reads an unsigned 32-bit count; a plus sign may precede it. -/
def readCount? (s : String) : Option UInt32 :=
  let ds := match s.toList with
    | '+' :: rest => rest
    | cs => cs
  if ds ≠ [] ∧ ds.all Char.isDigit then
    let n := digitsValue ds
    if n < UInt32.size then some n.toUInt32 else none
  else none

end SceneLocks.Number
