import SceneLocks.Text.Classes

/-!
# Files of variables

A file of variables assigns one per line. Quotes and escapes keep blanks and may span lines,
and a value may refer to other variables. A variable that is set already keeps its value,
and what follows the first line that cannot be read does not count.
-/

namespace SceneLocks.CommandLine.Dotenv

/-! ## Lines -/

/-- Where in a line the characters read so far end. -/
inductive Place where
  | plain
  | escape
  | single
  | singleEscape
  | double
  | doubleEscape
  /-- After a blank, where a comment may start. -/
  | blank
  | comment
deriving DecidableEq, Repr

/-- The place after an unquoted character. -/
def Place.ofChar (c : Char) : Place :=
  if c = '\\' then .escape
  else if c = '\x22' then .double
  else if c = '\'' then .single
  else .plain

/-- The place after one more character. -/
def Place.next (p : Place) (c : Char) : Place :=
  match p with
  | .plain => if Text.isBlank c ∧ c ≠ '\n' ∧ c ≠ '\r' then .blank else .ofChar c
  | .blank => if c = '#' then .comment else .ofChar c
  | .escape => .plain
  | .single => if c = '\\' then .singleEscape else if c = '\'' then .plain else .single
  | .singleEscape => .single
  | .double => if c = '\\' then .doubleEscape else if c = '\x22' then .plain else .double
  | .doubleEscape => .double
  | .comment => .comment

/-- The text of a line up to a comment, and the place where it ends. -/
def upToComment (p : Place) : List Char → List Char × Place
  | [] => ([], p)
  | c :: rest =>
    match p.next c with
    | .comment => ([], .comment)
    | p => ((upToComment p rest).map (c :: ·) id)

/-- Lines with their line feeds. -/
def physicalLines (current : List Char) : List Char → List (List Char)
  | [] => if current = [] then [] else [current.reverse]
  | '\n' :: rest => ('\n' :: current).reverse :: physicalLines [] rest
  | c :: rest => physicalLines (c :: current) rest

/-- The line without its end. -/
def chomp (line : List Char) : List Char :=
  match line.reverse with
  | '\n' :: '\r' :: rest => rest.reverse
  | '\n' :: rest => rest.reverse
  | _ => line

/-- Joins lines whose quotes go on; none stands for an end within quotes. -/
def logicalLines (pending : List Char) (p : Place) : List (List Char) → List (Option (List Char))
  | [] => if p = .plain then [] else [none]
  | line :: rest =>
    if ((pending ++ line).dropWhile Text.isBlank).head? = some '#' then
      some [] :: logicalLines [] .plain rest
    else
      match upToComment p line with
      | (text, .comment) => some (pending ++ text) :: logicalLines [] .plain rest
      | (text, .plain) => some (chomp (pending ++ text)) :: logicalLines [] .plain rest
      | (text, p) => logicalLines (pending ++ text) p rest

/-! ## Values -/

/-- What a reference to a variable stands for. -/
abbrev Lookup := String → String

/-- A reference that is being read. -/
inductive Reference where
  | none
  /-- A name that ends before the first character that no name holds. -/
  | bare
  | braced
deriving DecidableEq, Repr

/-- How far a value has been read. -/
structure Reading where
  /-- Most recent first. -/
  output : List Char := []
  single : Bool := false
  double : Bool := false
  escaped : Bool := false
  /-- After a blank outside quotes: only a comment may follow. -/
  ended : Bool := false
  reference : Reference := .none
  /-- Of the reference, most recent first. -/
  name : List Char := []

namespace Reading

def push (r : Reading) (c : Char) : Reading := { r with output := c :: r.output }

/-- Puts in what the name of the reference stands for. -/
def resolve (lookup : Lookup) (r : Reading) : Reading :=
  let value := lookup (String.ofList r.name.reverse)
  { r with output := value.toList.reverse ++ r.output, name := [] }

/-- One more character within a reference. -/
def refer (lookup : Lookup) (r : Reading) (c : Char) : Reading :=
  if Text.isAlphanumeric c then { r with name := c :: r.name }
  else
    match r.reference with
    | .braced =>
      if c = '\x7d' then { r.resolve lookup with reference := .none }
      else { r with name := c :: r.name }
    | _ =>
      if c = '\x7b' ∧ r.name = [] then { r with reference := .braced }
      else if c = '$' then { r.resolve lookup with reference := .bare }
      else { r.resolve lookup with reference := .none }.push c

/-- One more character outside single quotes, escapes and references. -/
def advance (r : Reading) (c : Char) : Reading :=
  if c = '$' then { r with reference := .bare }
  else if c = '\\' then { r with escaped := true }
  else if c = '\x22' then { r with double := !r.double }
  else if r.double then r.push c
  else if c = '\'' then { r with single := true }
  else if c = ' ' ∨ c = '\t' then { r with ended := true }
  else r.push c

/-- The character that an escape stands for. -/
def escape? (c : Char) : Option Char :=
  if c = 'n' then some '\n'
  else if c = '\\' ∨ c = '\'' ∨ c = '\x22' ∨ c = '$' ∨ c = ' ' then some c
  else none

/-- The value that the characters left spell. -/
def read? (lookup : Lookup) (r : Reading) : List Char → Option String
  | [] =>
    if r.reference = .braced ∨ r.single ∨ r.double then none
    else some (String.ofList (r.resolve lookup).output.reverse)
  | c :: rest =>
    if r.ended then
      if c = ' ' ∨ c = '\t' then read? lookup r rest
      else if c = '#' then read? lookup r []
      else none
    else if r.escaped then
      (escape? c).bind fun c => read? lookup { r.push c with escaped := false } rest
    else if r.single then
      read? lookup (if c = '\'' then { r with single := false } else r.push c) rest
    else if r.reference ≠ .none then read? lookup (r.refer lookup c) rest
    else read? lookup (r.advance c) rest

end Reading

/-! ## Assignments -/

def skipBlanks (cs : List Char) : List Char := cs.dropWhile Text.isBlank

/-- A name, and what follows it and its blanks. -/
def readName? (cs : List Char) : Option (String × List Char) :=
  match cs with
  | c :: _ =>
    if c.isAlpha ∨ c = '_' then
      let isNameChar (c : Char) : Bool := c.isAlphanum || c = '_' || c = '.'
      some (String.ofList (cs.takeWhile isNameChar), skipBlanks (cs.dropWhile isNameChar))
    else none
  | [] => none

/-- The name of a variable and the spelling of its value; `export` may come first. -/
def readTarget? (cs : List Char) : Option (String × List Char) := do
  let (name, cs) ← readName? cs
  match cs with
  | '=' :: value => some (name, skipBlanks value)
  | cs =>
    if name ≠ "export" then none
    let (name, cs) ← readName? cs
    match cs with
    | '=' :: value => some (name, skipBlanks value)
    | _ => none

/-- What has been assigned so far and what the lines assign, in order. A reference stands for
a variable of the environment or else for the first assignment of the name, and for nothing
if there is none. -/
def assignments (env : String → Option String) (done : List (String × String)) :
    List (Option (List Char)) → List (String × String)
  | [] | none :: _ => done
  | some line :: rest =>
    let cs := (Text.trim (String.ofList line)).toList
    if cs = [] ∨ cs.head? = some '#' then assignments env done rest
    else
      match readTarget? cs with
      | none => done
      | some (name, value) =>
        let lookup (v : String) : String := ((env v).or (done.lookup v)).getD ""
        let value := if value.head? = some '#' then some "" else Reading.read? lookup {} value
        match value with
        | none => done
        | some value => assignments env (done ++ [(name, value)]) rest

/-- The names that the references of a text may stand for. -/
def mentioned : List Char → List String
  | [] => []
  | '$' :: rest =>
    let name := match rest with
      | '\x7b' :: inner => inner.takeWhile (· ≠ '\x7d')
      | bare => bare.takeWhile Text.isAlphanumeric
    String.ofList name :: mentioned rest
  | _ :: rest => mentioned rest

/-- The environment with the variables of a file. A byte order mark may come first. -/
def extend (env : String → Option String) (text : String) : String → Option String :=
  let cs := match text.toList with
    | '\ufeff' :: cs => cs
    | cs => cs
  let assigned := assignments env [] (logicalLines [] .plain (physicalLines [] cs))
  -- the first assignment of a name sets it, and the later ones find it set
  fun name => (env name).or (assigned.lookup name)

end SceneLocks.CommandLine.Dotenv
