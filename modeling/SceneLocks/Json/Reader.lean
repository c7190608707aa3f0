import SceneLocks.Json.Basic

/-!
# Reading JSON

The grammar of the format by descent, on the characters still to be read. Every call takes
a character or hands on to one that does, so twice the length of the text bounds the depth
of the calls.
-/

namespace SceneLocks.Json

/-! ## Lexical parts -/

/-- The four blanks of the format. -/
def isSpace (c : Char) : Bool := c = ' ' || c = '\n' || c = '\t' || c = '\r'

def skipSpace (cs : List Char) : List Char := cs.dropWhile isSpace

/-- The value of a hexadecimal digit. -/
def hexDigit? (c : Char) : Option Nat :=
  if '0' ≤ c ∧ c ≤ '9' then some (c.toNat - '0'.toNat)
  else if 'a' ≤ c ∧ c ≤ 'f' then some (c.toNat - 'a'.toNat + 10)
  else if 'A' ≤ c ∧ c ≤ 'F' then some (c.toNat - 'A'.toNat + 10)
  else none

/-- Four hexadecimal digits. -/
def readUnit? : List Char → Option (Nat × List Char)
  | a :: b :: c :: d :: rest => do
    let a ← hexDigit? a
    let b ← hexDigit? b
    let c ← hexDigit? c
    let d ← hexDigit? d
    some (((a * 16 + b) * 16 + c) * 16 + d, rest)
  | _ => none

/-- The character of an escape with a code, after its mark. A high surrogate takes the low
one behind it along; a surrogate by itself is no character. -/
def readCode? (cs : List Char) : Option (Option Char × List Char) := do
  let (unit, rest) ← readUnit? cs
  if unit < 0xD800 ∨ 0xE000 ≤ unit then some (some (Char.ofNat unit), rest)
  else if 0xDC00 ≤ unit then some (none, rest)
  else
    match rest with
    | '\\' :: 'u' :: pair =>
      let (low, pair) ← readUnit? pair
      if 0xDC00 ≤ low ∧ low < 0xE000 then
        some (some (Char.ofNat (0x10000 + (unit - 0xD800) * 0x400 + (low - 0xDC00))), pair)
      else some (none, rest)
    | _ => some (none, rest)

/-- The character of an escape, after the backslash. -/
def readEscape? : List Char → Option (Option Char × List Char)
  | '\x22' :: rest => some ('\x22', rest)
  | '\\' :: rest => some ('\\', rest)
  | '/' :: rest => some ('/', rest)
  | 'b' :: rest => some ('\x08', rest)
  | 'f' :: rest => some ('\x0c', rest)
  | 'n' :: rest => some ('\n', rest)
  | 'r' :: rest => some ('\r', rest)
  | 't' :: rest => some ('\t', rest)
  | 'u' :: rest => readCode? rest
  | _ => none

/-- One more character in front, if all of them are characters. -/
def consChar : Option Char → Option (List Char) → Option (List Char)
  | some c, some cs => some (c :: cs)
  | _, _ => none

/-- The characters of a string up to its closing quote, most recent first. -/
def readChars? : Nat → Option (List Char) → List Char → Option (Option (List Char) × List Char)
  | 0, _, _ => none
  | _ + 1, _, [] => none
  | n + 1, done, c :: rest =>
    if c = '\x22' then some (done, rest)
    else if c = '\\' then
      (readEscape? rest).bind fun (c, rest) => readChars? n (consChar c done) rest
    else if c < ' ' then none
    else readChars? n (consChar c done) rest

/-- A string, after its opening quote; without a text if a surrogate in it is unpaired. -/
def readString? (cs : List Char) : Option (Option String × List Char) :=
  (readChars? (cs.length + 1) (some []) cs).map fun (done, rest) =>
    (done.map fun cs => String.ofList cs.reverse, rest)

/-- One digit at least. -/
def readDigits? (cs : List Char) : Option (List Char × List Char) :=
  match cs.takeWhile Char.isDigit with
  | [] => none
  | ds => some (ds, cs.dropWhile Char.isDigit)

/-- The whole part of a number: no zero in front. -/
def readWhole? : List Char → Option (List Char × List Char)
  | '0' :: c :: rest => if c.isDigit then none else some (['0'], c :: rest)
  | cs => readDigits? cs

/-- The fraction of a number, with its point; it may be missing. -/
def readFraction? : List Char → Option (List Char × List Char)
  | '.' :: rest => (readDigits? rest).map fun (ds, rest) => ('.' :: ds, rest)
  | cs => some ([], cs)

/-- The sign of an exponent; it may be missing. -/
def readExponentSign : List Char → List Char × List Char
  | '+' :: rest => (['+'], rest)
  | '-' :: rest => (['-'], rest)
  | cs => ([], cs)

/-- The exponent of a number, with its mark; it may be missing. -/
def readExponent? : List Char → Option (List Char × List Char)
  | c :: rest =>
    if c = 'e' ∨ c = 'E' then
      let (sign, rest) := readExponentSign rest
      (readDigits? rest).map fun (ds, rest) => ('e' :: sign ++ ds, rest)
    else some ([], c :: rest)
  | [] => some ([], [])

/-- The spelling of a number. -/
def readNumber? (cs : List Char) : Option (String × List Char) := do
  let (sign, cs) := match cs with
    | '-' :: rest => (['-'], rest)
    | cs => ([], cs)
  let (whole, cs) ← readWhole? cs
  let (fraction, cs) ← readFraction? cs
  let (exponent, cs) ← readExponent? cs
  some (String.ofList (sign ++ whole ++ fraction ++ exponent), cs)

/-! ## Values -/

/-- A string, if it has a text. -/
def ofText : Option String → Json
  | some s => .string s
  | none => .garbled

/-- An object, if all of its names have texts. -/
def ofMembers (members : List (Option String × Json)) : Json :=
  match members.mapM fun (name, value) => name.map (·, value) with
  | some members => .object members
  | none => .garbled

mutual

/-- A value, after blanks. -/
def readValue? : Nat → List Char → Option (Json × List Char)
  | 0, _ => none
  | n + 1, cs =>
    match skipSpace cs with
    | 'n' :: 'u' :: 'l' :: 'l' :: rest => some (.null, rest)
    | 't' :: 'r' :: 'u' :: 'e' :: rest => some (.bool true, rest)
    | 'f' :: 'a' :: 'l' :: 's' :: 'e' :: rest => some (.bool false, rest)
    | '\x22' :: rest => (readString? rest).map fun (s, rest) => (ofText s, rest)
    | '[' :: rest =>
      match skipSpace rest with
      | ']' :: rest => some (.array [], rest)
      | rest => (readItems? n rest).map fun (items, rest) => (.array items, rest)
    | '\x7b' :: rest =>
      match skipSpace rest with
      | '\x7d' :: rest => some (.object [], rest)
      | rest => (readMembers? n rest).map fun (members, rest) => (ofMembers members, rest)
    | cs => (readNumber? cs).map fun (spelling, rest) => (.number spelling, rest)

/-- One item at least, up to the closing bracket. -/
def readItems? : Nat → List Char → Option (List Json × List Char)
  | 0, _ => none
  | n + 1, cs => do
    let (item, rest) ← readValue? n cs
    match skipSpace rest with
    | ']' :: rest => some ([item], rest)
    | ',' :: rest =>
      let (items, rest) ← readItems? n rest
      some (item :: items, rest)
    | _ => none

/-- One member at least, up to the closing brace. -/
def readMembers? : Nat → List Char → Option (List (Option String × Json) × List Char)
  | 0, _ => none
  | n + 1, cs =>
    match skipSpace cs with
    | '\x22' :: rest => do
      let (name, rest) ← readString? rest
      match skipSpace rest with
      | ':' :: rest =>
        let (value, rest) ← readValue? n rest
        match skipSpace rest with
        | '\x7d' :: rest => some ([(name, value)], rest)
        | ',' :: rest =>
          let (members, rest) ← readMembers? n rest
          some ((name, value) :: members, rest)
        | _ => none
      | _ => none
    | _ => none

end

/-- Reads a whole text. -/
def read? (s : String) : Option Json :=
  let cs := s.toList
  (readValue? (2 * cs.length + 1) cs).bind fun (value, rest) =>
    if skipSpace rest = [] then some value else none

end SceneLocks.Json
