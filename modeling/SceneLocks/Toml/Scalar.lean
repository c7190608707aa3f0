import SceneLocks.Number.Reader
import SceneLocks.Time.Calendar
import SceneLocks.Toml.Value

/-!
# TOML scalars

Numbers, dates, times and constants. Each is a single run of characters that can occur in
any of them, except that a blank may stand between a date and a time of day.
-/

namespace SceneLocks.Toml

open Number

/-! ## Numbers -/

/-- The digits of a group of digits: a low line may stand between two of them. -/
def digitGroup? (isDigit : Char → Bool) : List Char → Option (List Char)
  | [] => none
  | [c] => if isDigit c then some [c] else none
  | c :: '_' :: rest => if isDigit c then (digitGroup? isDigit rest).map (c :: ·) else none
  | c :: rest => if isDigit c then (digitGroup? isDigit rest).map (c :: ·) else none

/-- A decimal number without a zero in front. -/
def wholeDigits? (cs : List Char) : Option (List Char) :=
  match digitGroup? Char.isDigit cs with
  | some ['0'] => some ['0']
  | some ('0' :: _) => none
  | ds => ds

/-- The value of digits of a base up to sixteen. -/
def baseValue (base : Nat) (ds : List Char) : Nat :=
  ds.foldl (fun n c =>
    base * n + (if c.isDigit then c.toNat - '0'.toNat else c.toLower.toNat - 'a'.toNat + 10)) 0

def isHexDigit (c : Char) : Bool :=
  c.isDigit || ('a' ≤ c.toLower && c.toLower ≤ 'f')

/-- An integer that fits 64 bits with its sign. -/
def integer? (token : List Char) : Option Int :=
  let within (n : Int) : Option Int :=
    if -9223372036854775808 ≤ n ∧ n ≤ 9223372036854775807 then some n else none
  let based (base : Nat) (isDigit : Char → Bool) (cs : List Char) : Option Int :=
    (digitGroup? isDigit cs).bind fun ds => within (baseValue base ds)
  match token with
  | '0' :: 'x' :: cs => based 16 isHexDigit cs
  | '0' :: 'o' :: cs => based 8 (fun c => '0' ≤ c && c ≤ '7') cs
  | '0' :: 'b' :: cs => based 2 (fun c => c = '0' || c = '1') cs
  | _ =>
    let (negative, cs) := readSign token
    (wholeDigits? cs).bind fun ds =>
      within (if negative then -(digitsValue ds : Int) else digitsValue ds)

/-- The exponent of a float, after its mark. -/
def exponent? (cs : List Char) : Option Int :=
  let (negative, cs) := readSign cs
  (digitGroup? Char.isDigit cs).map fun ds =>
    if negative then -(digitsValue ds : Int) else digitsValue ds

def isExponentMark (c : Char) : Bool := c = 'e' || c = 'E'

/-- A float with a fraction, an exponent or both. -/
def decimalFloat? (negative : Bool) (cs : List Char) : Option Binary64 := do
  let body := cs.takeWhile (!isExponentMark ·)
  let exponent ← match cs.dropWhile (!isExponentMark ·) with
    | [] => some none
    | _ :: rest => (exponent? rest).map some
  let whole ← wholeDigits? (body.takeWhile (· ≠ '.'))
  let fraction ← match body.dropWhile (· ≠ '.') with
    | [] => some none
    | _ :: rest => (digitGroup? Char.isDigit rest).map some
  if exponent.isNone ∧ fraction.isNone then none
  let fraction := fraction.getD []
  some (.ofDecimal negative (digitsValue (whole ++ fraction)) (exponent.getD 0 - fraction.length))

/-- A float. One too large is refused if it is positive. -/
def float? (token : List Char) : Option Binary64 :=
  let (negative, cs) := readSign token
  if cs = ['i', 'n', 'f'] then some (.infinite negative)
  else if cs = ['n', 'a', 'n'] then some .nan
  else
    match decimalFloat? negative cs with
    | some (.infinite false) => none
    | x => x

/-! ## Dates and times -/

/-- A number of exactly so many digits. -/
def fixedNumber? (width : Nat) (cs : List Char) : Option (Nat × List Char) :=
  let ds := cs.take width
  if ds.length = width ∧ ds.all Char.isDigit then some (digitsValue ds, cs.drop width) else none

/-- A number of two digits in a range. -/
def pair? (low high : Nat) (cs : List Char) : Option (Nat × List Char) :=
  (fixedNumber? 2 cs).bind fun (n, rest) => if low ≤ n ∧ n ≤ high then some (n, rest) else none

/-- A given character. -/
def mark? (c : Char) : List Char → Option (List Char)
  | d :: rest => if d = c then some rest else none
  | [] => none

/-- What follows a day of the calendar. -/
def skipDate? (cs : List Char) : Option (List Char) := do
  let (year, cs) ← fixedNumber? 4 cs
  let cs ← mark? '-' cs
  let (month, cs) ← pair? 1 12 cs
  let cs ← mark? '-' cs
  let (day, cs) ← pair? 1 31 cs
  if Time.Date.isValid ⟨year, month, day⟩ then some cs else none

/-- What follows a time of day. -/
def skipTime? (cs : List Char) : Option (List Char) := do
  let (_, cs) ← pair? 0 23 cs
  let cs ← mark? ':' cs
  let (_, cs) ← pair? 0 59 cs
  let cs ← mark? ':' cs
  let (_, cs) ← pair? 0 60 cs
  match cs with
  | '.' :: rest =>
    if (rest.takeWhile Char.isDigit).isEmpty then none else some (rest.dropWhile Char.isDigit)
  | _ => some cs

/-- Whether the characters are an offset from universal time. -/
def isOffset : List Char → Bool
  | ['Z'] | ['z'] => true
  | sign :: cs =>
    (sign = '+' || sign = '-') &&
      ((pair? 0 23 cs).bind fun (_, cs) => (mark? ':' cs).bind (pair? 0 59 ·)).any (·.2.isEmpty)
  | [] => false

/-- Whether the characters are a time of day; an offset may follow it. -/
def isTimeWithOffset (cs : List Char) : Bool :=
  (skipTime? cs).any fun rest => rest.isEmpty || isOffset rest

/-- Whether the characters are a date and a time of day joined by a letter. -/
def isJoined (cs : List Char) : Bool :=
  (skipDate? cs).any fun
    | 'T' :: rest | 't' :: rest => isTimeWithOffset rest
    | _ => false

/-! ## Scalars -/

/-- The characters of unquoted scalars. -/
def isTokenChar (c : Char) : Bool :=
  c.isAlphanum || c = '+' || c = '-' || c = '_' || c = '.' || c = ':'

/-- A scalar that is one run of characters. -/
def ofToken? (token : List Char) : Option Toml :=
  if token = ['t', 'r', 'u', 'e'] then some (.boolean true)
  else if token = ['f', 'a', 'l', 's', 'e'] then some (.boolean false)
  else if isJoined token ∨ skipTime? token = some [] then some .dateTime
  else
    match float? token with
    | some x => some (.float x)
    | none => (integer? token).map .integer

/-- A scalar without quotes. -/
def readScalar? (cs : List Char) : Option (Toml × List Char) :=
  let token := cs.takeWhile isTokenChar
  let rest := cs.dropWhile isTokenChar
  if skipDate? token = some [] then
    match rest with
    | ' ' :: more =>
      if isTimeWithOffset (more.takeWhile isTokenChar) then
        some (.dateTime, more.dropWhile isTokenChar)
      else some (.dateTime, rest)
    | _ => some (.dateTime, rest)
  else (ofToken? token).map (·, rest)

end SceneLocks.Toml
