import SceneLocks.Number.Reader
import SceneLocks.Text.Classes

/-!
# Log filters

What is to be logged, as a list of directives between commas. A directive says down to which
level the records of a target are let through; it may be narrowed to records with a field,
or to what happens within a span. Of the directives that a record meets, the most specific
one decides.
-/

namespace SceneLocks.CommandLine

/-- How much is let through; the later the level, the more. -/
inductive LogLevel where
  | off
  | error
  | warn
  | info
  | debug
  | trace
deriving DecidableEq, Repr, Inhabited

namespace LogLevel

/-- The levels by their names, in order. -/
def named : List (String × LogLevel) :=
  [("off", .off), ("error", .error), ("warn", .warn), ("info", .info), ("debug", .debug),
    ("trace", .trace)]

/-- The place of a level in their order. -/
def rank : LogLevel → Nat
  | .off => 0
  | .error => 1
  | .warn => 2
  | .info => 3
  | .debug => 4
  | .trace => 5

/-- Reads a level: its place, or its name in any case. -/
def read? (s : String) : Option LogLevel :=
  match Number.readCount? s with
  | some n => (named.map (·.2))[n.toNat]?
  | none => named.lookup s.toLower

end LogLevel

/-- Why a directive cannot be read. -/
inductive DirectiveFlaw where
  | malformed
  | noLevel
deriving DecidableEq, Repr

def DirectiveFlaw.message : DirectiveFlaw → String
  | .malformed => "invalid filter directive"
  | .noLevel =>
    "error parsing level filter: expected one of \"off\", \"error\", \"warn\", \"info\", " ++
      "\"debug\", \"trace\", or a number 0-5"

/-- One part of a log filter. -/
structure Directive where
  /-- How the targets start that it is about. -/
  target : Option String := none
  /-- The name of a field that a record has to have. -/
  field : Option String := none
  /-- Whether it is only about what happens within some span. -/
  inSpan : Bool := false
  level : LogLevel := .trace
deriving DecidableEq, Repr

namespace Directive

/-! ## Reading -/

/-- Whether a directive may start with a character. -/
def isStart (c : Char) : Bool :=
  c = '-' || c = ':' || c = '_' || c = '[' || Text.isAlphanumeric c

/-- Adds what stands in the braces of a directive: the name of a field, or a field with its
value. -/
def narrow (d : Directive) (text : List Char) : Directive :=
  { d with
    field := some (String.ofList (text.takeWhile (· ≠ '=')))
    inSpan := d.inSpan || text.contains '=' }

/-- What follows the closing bracket: nothing, or a level, which is left to be read. -/
def readEnd (d : Directive) : List Char → Except DirectiveFlaw (Directive × Option (List Char))
  | [] => .ok (d, none)
  | '=' :: level => .ok (d, some level)
  | _ => .error .malformed

/-- What follows the opening bracket: the name of a span, a field in braces, or both. -/
def readSpan (d : Directive) (cs : List Char) :
    Except DirectiveFlaw (Directive × Option (List Char)) :=
  let isName (c : Char) : Bool := c ≠ ']' && c ≠ '\x7b'
  match cs.dropWhile isName with
  | ']' :: rest => { d with inSpan := true }.readEnd rest
  | '\x7b' :: rest =>
    let d := { d with inSpan := cs.takeWhile isName ≠ [] }
    let text := rest.takeWhile (· ≠ '\x7d')
    match rest.dropWhile (· ≠ '\x7d') with
    | '\x7d' :: ']' :: rest =>
      if text = [] then .error .malformed else (d.narrow text).readEnd rest
    | _ => .error .malformed
  | _ => .error .malformed

/-- Sets the level; none at all lets everything through. -/
def setLevel (d : Directive) (level : String) : Except DirectiveFlaw Directive :=
  if level = "" then .ok d
  else
    match LogLevel.read? level with
    | some level => .ok { d with level }
    | none => .error .noLevel

/-- Reads a directive. A name by itself is a level or else a target. The blanks around a
directive belong to its level, or to the name if it is nothing else. -/
def read (s : String) : Except DirectiveFlaw Directive :=
  let cs := s.toList
  let around (text : List Char) : String :=
    String.ofList (cs.takeWhile Text.isBlank ++ text ++
      (cs.reverse.takeWhile Text.isBlank).reverse)
  let isName (c : Char) : Bool := c ≠ '=' && c ≠ '['
  let body := (Text.trim s).toList
  let name := body.takeWhile isName
  if !body.head?.any isStart then .error .malformed
  else
    match body.dropWhile isName with
    | '=' :: level => { target := some (String.ofList name) : Directive }.setLevel (around level)
    | '[' :: rest =>
      let d : Directive := { target := if name = [] then none else some (String.ofList name) }
      match d.readSpan rest with
      | .error flaw => .error flaw
      | .ok (d, none) => .ok d
      | .ok (d, some level) => d.setLevel (around level)
    | _ =>
      match LogLevel.read? (around name) with
      | some level => .ok { level }
      | none => .ok { target := some (around name) }

/-! ## Deciding -/

/-- How specific a directive is: the longer its target the more, and then with a field more
than without. -/
def specificity (d : Directive) : Nat :=
  2 * (match d.target with
    | none => 0
    | some target => target.utf8ByteSize + 1) + (if d.field.isSome then 1 else 0)

/-- Whether a directive is about the records of a target with some fields, outside of any
span. -/
def concerns (d : Directive) (target : String) (fields : List String) : Bool :=
  !d.inSpan && d.target.all (target.startsWith ·) && d.field.all (fields.contains ·)

end Directive

/-- A list of directives. -/
abbrev LogFilter := List Directive

namespace LogFilter

/-- The variable whose filter comes before that of the settings. -/
def variableName : String := "RUST_LOG"

/-- The directives of a text, each with its spelling. -/
def readAll (s : String) : List (String × Except DirectiveFlaw Directive) :=
  ((s.splitOn ",").filter (· ≠ "")).map fun d => (d, Directive.read d)

/-- The filter of a text whose directives can all be read. -/
def read? (s : String) : Option LogFilter := (readAll s).mapM (·.2.toOption)

/-- The directives of a text that can be read. -/
def readable (s : String) : LogFilter := (readAll s).filterMap (·.2.toOption)

/-- What is said about the directives of a text that cannot be read. -/
def complaints (s : String) : String :=
  String.join ((readAll s).map fun
    | (spelling, .error flaw) => "ignoring `" ++ spelling ++ "`: " ++ flaw.message ++ "\n"
    | (_, .ok _) => "")

/-- The filter of a text that may be missing, if it can be read, else of a default text; and what
is said about the latter. -/
def choose (value? : Option String) (default : String) : LogFilter × String :=
  match value?.bind read? with
  | some filter => (filter, "")
  | none => (readable default, complaints default)

/-- Whether a record outside of any span is let through: as the most specific directive says,
of several ones the last. A filter without directives lets errors through. -/
def admits (filter : LogFilter) (target : String) (fields : List String) (level : LogLevel) :
    Bool :=
  let filter := if filter = [] then [{ level := .error }] else filter
  let decisive := (filter.filter (·.concerns target fields)).foldl (fun best d =>
    if best.all (·.specificity ≤ d.specificity) then some d else best) (none : Option Directive)
  decisive.any (level.rank ≤ ·.level.rank)

end LogFilter

end SceneLocks.CommandLine
