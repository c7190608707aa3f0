import SceneLocks.Graph
import SceneLocks.Json.Fields
import SceneLocks.Json.Reader
import SceneLocks.Lock.Entry
import SceneLocks.Lock.Event
import SceneLocks.Lock.Request
import SceneLocks.Session.Event
import SceneLocks.Text.Uuid
import SceneLocks.Time.Timestamp

/-!
# What goes over the wire

Enumerations go by their names, lock and session events with an identity and a time, as they are
stored, and entries with the time of their first grant. A graph is an object that maps each node
to its parent, or to null if it has none; the two roots are always there.
-/

namespace SceneLocks

open Time Text

/-! ## Constants -/

def Mode.ofJson? : Json → Option Mode :=
  Json.constant? ([Mode.exclusive, .shared].map fun x => (x.name, x))

def Visibility.ofJson? : Json → Option Visibility :=
  Json.constant? ([Visibility.ui, .internal].map fun x => (x.name, x))

def UpdateKind.ofJson? : Json → Option UpdateKind :=
  Json.constant? ([UpdateKind.tree, .object].map fun x => (x.name, x))

def EventKind.ofJson? : Json → Option EventKind :=
  Json.constant? ([EventKind.locked, .unlocked].map fun x => (x.name, x))

def SessionEventKind.ofJson? : Json → Option SessionEventKind :=
  Json.constant?
    ([SessionEventKind.connected, .reconnected, .disconnected].map fun x => (x.name, x))

/-! ## Events -/

/-- The payload that the editors get, its members in order. -/
def Event.payload (e : Event) : Json :=
  .object [("event", .string e.kind.name), ("resource_id", .string e.resource),
    ("user_name", .string e.user)]

/-- A lock event with its identity and the time of its commit. -/
structure StampedEvent where
  id : Uuid
  event : Event
  created : Moment
deriving DecidableEq, Repr

namespace StampedEvent

def ofJson? (j : Json) : Option StampedEvent := do
  match ← j.fields? ["id", "resource_id", "user_name", "kind", "created_at"] with
  | [some id, some resource, some user, some kind, some created] =>
    let id ← id.string?.bind Uuid.read?
    let resource ← resource.string?
    let user ← user.string?
    let kind ← EventKind.ofJson? kind
    let created ← created.string?.bind Moment.read?
    some ⟨id, ⟨kind, resource, user⟩, created⟩
  | _ => none

def json (e : StampedEvent) : Json :=
  .object [("id", .string e.id.text), ("resource_id", .string e.event.resource),
    ("user_name", .string e.event.user), ("kind", .string e.event.kind.name),
    ("created_at", .string e.created.text)]

end StampedEvent

/-- A session event with its time; connections go by their identifiers. -/
structure StampedSessionEvent where
  user : User
  connection : Option Uuid
  kind : SessionEventKind
  created : Moment
deriving DecidableEq, Repr

namespace StampedSessionEvent

def ofJson? (j : Json) : Option StampedSessionEvent := do
  match ← j.fields? ["user_name", "connection_id", "event_type", "created_at"] with
  | [some user, connection, some kind, some created] =>
    let user ← user.string?
    let connection ← Json.orElse none (Json.nullable (·.string?.bind Uuid.read?)) connection
    let kind ← SessionEventKind.ofJson? kind
    let created ← created.string?.bind Moment.read?
    some ⟨user, connection, kind, created⟩
  | _ => none

def json (e : StampedSessionEvent) : Json :=
  .object [("user_name", .string e.user),
    ("connection_id", Json.ofOption (fun c => .string c.text) e.connection),
    ("event_type", .string e.kind.name), ("created_at", .string e.created.text)]

end StampedSessionEvent

/-! ## Entries -/

/-- The entry as it is shown, locked since a moment. -/
def Entry.json (e : Entry) (acquired : Moment) : Json :=
  .object [("resource_id", .string e.resource), ("mode", .string e.mode.name),
    ("owners", .object (e.owners.toList.map fun (owner, n) => (owner, .ofNat n))),
    ("tree", .bool e.tree), ("acquired_at", .string acquired.text)]

/-- The entry of a resource with so many grants per owner; the later of two counts for one
owner wins. -/
def Entry.ofGrants (resource : Resource) (mode : Mode) (tree : Bool)
    (grants : List (User × Nat)) : Entry :=
  ⟨resource, mode, Std.ExtTreeMap.ofList grants, tree⟩

/-! ## Graphs -/

namespace Graph

/-- Adds a node with the parent that its member names. -/
def insertMember? (g : Graph) : String × Json → Option Graph
  | (id, .null) => some (g.insert id none)
  | (id, .string parent) => some (g.insert id (some parent))
  | _ => none

def ofJson? : Json → Option Graph
  | .object members => members.foldlM insertMember? withRoots
  | _ => none

/-- Reads the text of a graph. -/
def read? (text : String) : Option Graph := (Json.read? text).bind ofJson?

end Graph

end SceneLocks
