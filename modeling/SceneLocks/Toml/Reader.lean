import SceneLocks.Toml.Scalar
import SceneLocks.Toml.Text

/-!
# Reading TOML

Values by descent, and documents line by line. A document is built up table by table: the
one of the current header is kept apart and goes into the document when the next header
comes.
-/

namespace SceneLocks.Toml

/-! ## Values -/

/-- What follows a comment, if there is one. -/
def skipComment : List Char → List Char
  | '#' :: rest => rest.dropWhile isPlain
  | cs => cs

/-- Blanks, line breaks and comments. -/
def skipFiller : Nat → List Char → List Char
  | 0, cs => cs
  | n + 1, cs =>
    match skipLines cs.length cs with
    | '#' :: rest => skipFiller n (skipComment ('#' :: rest))
    | cs => cs

mutual

/-- A value at some depth of nesting. -/
def readValue? : Nat → Nat → List Char → Option (Toml × List Char)
  | 0, _, _ => none
  | n + 1, depth, cs =>
    match cs with
    | '\x22' :: rest => (readString? '\x22' rest).map fun (s, rest) => (.string s, rest)
    | '\'' :: rest => (readString? '\'' rest).map fun (s, rest) => (.string s, rest)
    | '[' :: rest =>
      if depthLimit ≤ depth + 1 then none
      else (readItems? n (depth + 1) rest).map fun (items, rest) => (.array items, rest)
    | '\x7b' :: rest =>
      if depthLimit ≤ depth + 1 then none
      else
        match skipIndent rest with
        | '\x7d' :: rest => some (.table .inline [], rest)
        | rest =>
          (readPairs? n (depth + 1) { origin := .inline } rest).map
            fun (t, rest) => (t.value, rest)
    | cs => readScalar? cs

/-- Items up to the closing bracket; a comma may stand before it. -/
def readItems? : Nat → Nat → List Char → Option (List Toml × List Char)
  | 0, _, _ => none
  | n + 1, depth, cs =>
    match skipFiller cs.length cs with
    | ']' :: rest => some ([], rest)
    | cs => do
      let (item, rest) ← readValue? n depth cs
      match skipFiller rest.length rest with
      | ']' :: rest => some ([item], rest)
      | ',' :: rest =>
        let (items, rest) ← readItems? n depth rest
        some (item :: items, rest)
      | _ => none

/-- One assignment at least, up to the closing brace. -/
def readPairs? : Nat → Nat → Table → List Char → Option (Table × List Char)
  | 0, _, _, _ => none
  | n + 1, depth, t, cs => do
    let (path, key, rest) ← readKey? cs
    let rest ← mark? '=' rest
    let (value, rest) ← readValue? n depth (skipIndent rest)
    let t ← t.assign path key value
    match skipIndent rest with
    | '\x7d' :: rest => some (t, rest)
    | ',' :: rest => readPairs? n depth t rest
    | _ => none

end

/-! ## Documents -/

/-- A document whose last table is still growing. -/
structure Document where
  root : Table := {}
  current : Table := {}
  /-- The path of the current header; empty before the first one. -/
  path : List String := []
  /-- Whether the current header may be repeated. -/
  repeated : Bool := false
deriving Inhabited

namespace Document

/-- The document with its last table in place. -/
def close (d : Document) : Option Table :=
  match d.path.getLast? with
  | none => some d.current
  | some key =>
    d.root.modifyAt false d.path.dropLast fun parent =>
      match d.repeated, parent.get? key with
      | false, none => some (parent.set key d.current.value)
      | true, none => some (parent.set key (.tables [d.current.value]))
      | true, some (.tables rows) =>
        some (parent.set key (.tables (rows ++ [d.current.value])))
      | _, some _ => none

/-- Starts the table of a header. A table that was only passed through so far gets its
header now. -/
def startTable (d : Document) (path : List String) (key : String) : Option Document := do
  let root ← d.close
  match root.find? path key with
  | none => some { root, path := path ++ [key] }
  | some (.table .passed members) =>
    let root ← root.modifyAt false path fun parent => some (parent.erase key)
    some { root, current := { members }, path := path ++ [key] }
  | some _ => none

/-- Starts a row of a table with repeated headers. -/
def startRow (d : Document) (path : List String) (key : String) : Option Document := do
  let root ← d.close
  some { root, path := path ++ [key], repeated := true }

end Document

/-- The end of a line: blanks and a comment may come before it. -/
def endLine? (cs : List Char) : Option (List Char) :=
  match skipComment (skipIndent cs) with
  | [] => some []
  | cs => newline? cs

/-- A header, after its first bracket. -/
def readHeader? (d : Document) (cs : List Char) : Option (Document × List Char) := do
  match cs with
  | '[' :: cs =>
    let (path, key, cs) ← readKey? cs
    let cs ← (mark? ']' cs).bind (mark? ']')
    some (← d.startRow path key, ← endLine? cs)
  | cs =>
    let (path, key, cs) ← readKey? cs
    let cs ← mark? ']' cs
    some (← d.startTable path key, ← endLine? cs)

/-- An assignment on a line of its own. -/
def readAssignment? (d : Document) (cs : List Char) : Option (Document × List Char) := do
  let (path, key, cs) ← readKey? cs
  let cs ← mark? '=' cs
  let cs := skipIndent cs
  let (value, cs) ← readValue? (2 * cs.length + 1) 0 cs
  some ({ d with current := ← d.current.assign path key value }, ← endLine? cs)

/-- One line after the other. -/
def readDocument? : Nat → Document → List Char → Option Document
  | 0, _, _ => none
  | n + 1, d, cs =>
    match skipIndent cs with
    | [] => some d
    | '#' :: rest => (endLine? ('#' :: rest)).bind (readDocument? n d)
    | '[' :: rest => (readHeader? d rest).bind fun (d, rest) => readDocument? n d rest
    | cs =>
      match newline? cs with
      | some rest => readDocument? n d rest
      | none => (readAssignment? d cs).bind fun (d, rest) => readDocument? n d rest

/-- Reads a whole document; a byte order mark may come first. -/
def read? (s : String) : Option Table :=
  let cs := match s.toList with
    | '\ufeff' :: cs => cs
    | cs => cs
  (readDocument? (cs.length + 1) {} cs).bind (·.close)

end SceneLocks.Toml
