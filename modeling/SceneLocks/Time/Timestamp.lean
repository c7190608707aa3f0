import SceneLocks.Number.Reader
import SceneLocks.Text.Classes
import SceneLocks.Time.Calendar

/-!
# Timestamps

The text of a moment: date, time of day, offset from universal time. Reading is lenient
about blanks, leading zeros and the spelling of the offset; writing always gives universal
time, with as many groups of three fraction digits as needed.
-/

namespace SceneLocks.Time

open Number Text

/-! ## Reading -/

namespace Timestamp

def skipBlank (cs : List Char) : List Char := cs.dropWhile isBlank

/-- A number of one up to `width` digits. -/
def readNumber? (width : Nat) (cs : List Char) : Option (Nat × List Char) :=
  match (cs.take width).takeWhile Char.isDigit with
  | [] => none
  | ds => some (digitsValue ds, cs.drop ds.length)

/-- A number in a range, after blanks. -/
def readField? (low high : Nat) (cs : List Char) : Option (Nat × List Char) :=
  match readNumber? 2 (skipBlank cs) with
  | some (n, rest) => if low ≤ n ∧ n ≤ high then some (n, rest) else none
  | none => none

/-- A separator, after blanks. -/
def skipMark? (mark : Char) (cs : List Char) : Option (List Char) :=
  match skipBlank cs with
  | c :: rest => if c = mark then some rest else none
  | [] => none

/-- Any number of digits after a sign; a year out of bounds for 32 bits is none. -/
def readSignedYear? (negative : Bool) (cs : List Char) : Option (Int × List Char) :=
  match readNumber? cs.length cs with
  | some (n, rest) =>
    let year : Int := if negative then -n else n
    if -2147483648 ≤ year ∧ year ≤ 2147483647 then some (year, rest) else none
  | none => none

/-- A year: four digits at most, or a sign and any number of digits. -/
def readYear? (cs : List Char) : Option (Int × List Char) :=
  match skipBlank cs with
  | '-' :: rest => readSignedYear? true rest
  | '+' :: rest => readSignedYear? false rest
  | cs => (readNumber? 4 cs).map fun (n, rest) => ((n : Int), rest)

/-- A fraction of a second, in nanoseconds; further digits are dropped. -/
def readFraction? : List Char → Option (Nat × List Char)
  | '.' :: rest =>
    match rest.takeWhile Char.isDigit with
    | [] => none
    | ds =>
      let kept := ds.take 9
      some (digitsValue kept * tenPow (9 - kept.length), rest.drop ds.length)
  | cs => some (0, cs)

/-- The sign of an offset; a proper minus sign is as good as a hyphen. -/
def readOffsetSign? : List Char → Option (Bool × List Char)
  | '+' :: rest => some (false, rest)
  | '-' :: rest => some (true, rest)
  | '\u2212' :: rest => some (true, rest)
  | _ => none

/-- Two digits. -/
def readPair? : List Char → Option (Nat × List Char)
  | a :: b :: rest =>
    if a.isDigit ∧ b.isDigit then some (digitsValue [a, b], rest) else none
  | _ => none

/-- An offset of hours and minutes, in minutes. -/
def readSignedOffset? (cs : List Char) : Option (Int × List Char) := do
  let (negative, cs) ← readOffsetSign? cs
  let (hours, cs) ← readPair? cs
  let (minutes, cs) ← readPair? (cs.dropWhile fun c => c = ':' || isBlank c)
  if 60 ≤ minutes ∨ 24 ≤ hours then none
  let offset : Int := hours * 60 + minutes
  some (if negative then -offset else offset, cs)

/-- An offset from universal time, or a name of universal time. -/
def readOffset? (cs : List Char) : Option (Int × List Char) :=
  match cs with
  | 'Z' :: rest => some (0, rest)
  | 'z' :: rest => some (0, rest)
  | cs =>
    if (cs.take 3).map Char.toUpper = ['U', 'T', 'C'] then some (0, cs.drop 3)
    else readSignedOffset? cs

/-- What separates a date from a time of day. -/
def skipJoint? : List Char → Option (List Char)
  | 'T' :: rest => some rest
  | 't' :: rest => some rest
  | ' ' :: rest => some rest
  | _ => none

end Timestamp

namespace Moment

open Timestamp

/-- Reads a timestamp. -/
def read? (s : String) : Option Moment := do
  let (year, cs) ← readYear? s.toList
  let cs ← skipMark? '-' cs
  let (month, cs) ← readField? 1 12 cs
  let cs ← skipMark? '-' cs
  let (day, cs) ← readField? 1 31 cs
  let cs ← skipJoint? cs
  let (hour, cs) ← readField? 0 23 cs
  let cs ← skipMark? ':' cs
  let (minute, cs) ← readField? 0 59 cs
  let cs ← skipMark? ':' cs
  let (second, cs) ← readField? 0 60 cs
  let (nanos, cs) ← readFraction? cs
  let (offset, cs) ← readOffset? (skipBlank cs)
  if skipBlank cs ≠ [] then none
  let date : Date := ⟨year, month, day⟩
  if !date.isValid || !date.inRange then none
  let moment := fromOffset ⟨date, hour, minute, second, nanos⟩ offset
  if moment.date.inRange then some moment else none

/-! ## Writing -/

/-- A number with at least so many digits. -/
def padded (width n : Nat) : String :=
  let ds := Nat.toDigits 10 n
  String.ofList (List.replicate (width - ds.length) '0' ++ ds)

/-- A year; one that does not have four digits gets a sign. -/
def yearText (year : Int) : String :=
  if 0 ≤ year ∧ year ≤ 9999 then padded 4 year.toNat
  else (if year < 0 then "-" else "+") ++ padded 4 year.natAbs

/-- The fraction of a second: nothing, or three, six or nine digits. -/
def fractionText (nanos : Nat) : String :=
  if nanos = 0 then ""
  else if nanos % 1000000 = 0 then "." ++ padded 3 (nanos / 1000000)
  else if nanos % 1000 = 0 then "." ++ padded 6 (nanos / 1000)
  else "." ++ padded 9 nanos

/-- The timestamp of a moment. -/
def text (m : Moment) : String :=
  yearText m.date.year ++ "-" ++ padded 2 m.date.month ++ "-" ++ padded 2 m.date.day ++ "T" ++
    padded 2 m.hour ++ ":" ++ padded 2 m.minute ++ ":" ++ padded 2 m.second ++
    fractionText m.nanos ++ "Z"

end Moment

end SceneLocks.Time
