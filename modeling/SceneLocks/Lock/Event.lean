import SceneLocks.Resource
import SceneLocks.Session.Connection

/-!
# Lock events

What the editors are told: a resource became locked or free, by whom. A notification is an
event on its way to all connections or to one of them. An event gets its identity and its time
only when it is written down (`StampedEvent`).
-/

namespace SceneLocks

/-- What happened to a resource. -/
inductive EventKind where
  | locked
  | unlocked
deriving DecidableEq, Repr, Inhabited

/-- The word for a kind of event. -/
def EventKind.name : EventKind → String
  | .locked => "locked"
  | .unlocked => "unlocked"

/-- A resource became locked or free. -/
structure Event where
  kind : EventKind
  resource : Resource
  user : User
deriving DecidableEq, Repr, Inhabited

def Event.locked (resource : Resource) (user : User) : Event := ⟨.locked, resource, user⟩

def Event.unlocked (resource : Resource) (user : User) : Event := ⟨.unlocked, resource, user⟩

/-- Who receives a notification. -/
inductive Audience where
  | all
  | only (connection : ConnectionId)
deriving DecidableEq, Repr, Inhabited

/-- An event on its way to its audience. -/
structure Notification where
  audience : Audience
  event : Event
deriving DecidableEq, Repr, Inhabited

end SceneLocks
