import SceneLocks.Json.Reader
import SceneLocks.Toml.Value

/-!
# TOML strings

The four kinds of quoted strings, and keys. A line break in a string is a line feed, however
it was written; other control characters than the tab have to be escaped.
-/

namespace SceneLocks.Toml

/-- The characters that comments and strings may hold, quotes and backslashes aside. -/
def isPlain (c : Char) : Bool := c = '\t' || (' ' ≤ c && c ≠ '\x7f')

/-- A line feed, alone or after a carriage return. -/
def newline? : List Char → Option (List Char)
  | '\n' :: rest => some rest
  | '\r' :: '\n' :: rest => some rest
  | _ => none

def isIndent (c : Char) : Bool := c = ' ' || c = '\t'

def skipIndent (cs : List Char) : List Char := cs.dropWhile isIndent

/-- Blanks and line breaks. -/
def skipLines : Nat → List Char → List Char
  | 0, cs => cs
  | n + 1, cs =>
    match newline? cs with
    | some rest => skipLines n rest
    | none =>
      match cs with
      | c :: rest => if isIndent c then skipLines n rest else cs
      | [] => []

/-! ## Escapes -/

/-- So many hexadecimal digits. -/
def hexNumber? : Nat → Nat → List Char → Option (Nat × List Char)
  | 0, value, cs => some (value, cs)
  | _ + 1, _, [] => none
  | n + 1, value, c :: rest =>
    (Json.hexDigit? c).bind fun d => hexNumber? n (16 * value + d) rest

/-- A character by its code. -/
def readCode? (width : Nat) (cs : List Char) : Option (Char × List Char) :=
  (hexNumber? width 0 cs).bind fun (n, rest) =>
    if n.isValidChar then some (Char.ofNat n, rest) else none

/-- The character of an escape, after the backslash. -/
def readEscape? : List Char → Option (Char × List Char)
  | 'b' :: rest => some ('\x08', rest)
  | 't' :: rest => some ('\t', rest)
  | 'n' :: rest => some ('\n', rest)
  | 'f' :: rest => some ('\x0c', rest)
  | 'r' :: rest => some ('\r', rest)
  | '\x22' :: rest => some ('\x22', rest)
  | '\\' :: rest => some ('\\', rest)
  | 'u' :: rest => readCode? 4 rest
  | 'U' :: rest => readCode? 8 rest
  | _ => none

/-- What follows an escaped line break, after the backslash: it takes all blanks and line
breaks along. -/
def skipEscapedLine? (cs : List Char) : Option (List Char) :=
  (newline? (skipIndent cs)).map fun rest => skipLines rest.length rest

/-! ## Strings -/

/-- The characters of a string up to its closing quote, most recent first. -/
def readLine? (quote : Char) (escapes : Bool) :
    Nat → List Char → List Char → Option (List Char × List Char)
  | 0, _, _ => none
  | _ + 1, _, [] => none
  | n + 1, done, c :: rest =>
    if c = quote then some (done, rest)
    else if escapes ∧ c = '\\' then
      (readEscape? rest).bind fun (c, rest) => readLine? quote escapes n (c :: done) rest
    else if isPlain c then readLine? quote escapes n (c :: done) rest
    else none

/-- The characters of a string of several lines up to its three closing quotes, most recent
first. Up to two quotes may stand right before those. -/
def readBlock? (quote : Char) (escapes : Bool) :
    Nat → List Char → List Char → Option (List Char × List Char)
  | 0, _, _ => none
  | _ + 1, _, [] => none
  | n + 1, done, c :: rest =>
    if c = quote then
      let run := (c :: rest).takeWhile (· = quote)
      if run.length < 3 then readBlock? quote escapes n (c :: done) rest
      else
        let extra := min (run.length - 3) 2
        some (List.replicate extra quote ++ done, (c :: rest).drop (extra + 3))
    else if escapes ∧ c = '\\' then
      match skipEscapedLine? rest with
      | some rest => readBlock? quote escapes n done rest
      | none =>
        (readEscape? rest).bind fun (c, rest) => readBlock? quote escapes n (c :: done) rest
    else
      match newline? (c :: rest) with
      | some rest => readBlock? quote escapes n ('\n' :: done) rest
      | none => if isPlain c then readBlock? quote escapes n (c :: done) rest else none

/-- A string of one line, after its opening quote. -/
def readShort? (quote : Char) (cs : List Char) : Option (String × List Char) :=
  (readLine? quote (quote = '\x22') (cs.length + 1) [] cs).map
    fun (done, rest) => (String.ofList done.reverse, rest)

/-- A string of several lines, after its opening quotes; a line break right behind them does
not count. -/
def readLong? (quote : Char) (cs : List Char) : Option (String × List Char) :=
  let cs := (newline? cs).getD cs
  (readBlock? quote (quote = '\x22') (cs.length + 1) [] cs).map
    fun (done, rest) => (String.ofList done.reverse, rest)

/-- A string of any kind, after its first quote. -/
def readString? (quote : Char) (cs : List Char) : Option (String × List Char) :=
  match cs with
  | a :: b :: rest => if a = quote ∧ b = quote then readLong? quote rest else readShort? quote cs
  | cs => readShort? quote cs

/-! ## Keys -/

/-- The characters of keys without quotes. -/
def isBare (c : Char) : Bool := c.isAlphanum || c = '_' || c = '-'

/-- One part of a key. -/
def readPart? : List Char → Option (String × List Char)
  | '\x22' :: rest => readShort? '\x22' rest
  | '\'' :: rest => readShort? '\'' rest
  | cs =>
    match cs.takeWhile isBare with
    | [] => none
    | name => some (String.ofList name, cs.dropWhile isBare)

/-- The parts of a key, with points and blanks between them. -/
def readParts? : Nat → List Char → Option (List String × List Char)
  | 0, _ => none
  | n + 1, cs => do
    let (part, rest) ← readPart? (skipIndent cs)
    match skipIndent rest with
    | '.' :: rest =>
      let (parts, rest) ← readParts? n rest
      some (part :: parts, rest)
    | rest => some ([part], rest)

/-- The deepest nesting that is read. -/
def depthLimit : Nat := 80

/-- A key: its path, and the last part. -/
def readKey? (cs : List Char) : Option (List String × String × List Char) := do
  let (parts, rest) ← readParts? (cs.length + 1) cs
  if depthLimit ≤ parts.length then none
  some (parts.dropLast, ← parts.getLast?, rest)

end SceneLocks.Toml
