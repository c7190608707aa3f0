import SceneLocks.Resource
import SceneLocks.Time.Duration

/-!
# Lock requests

What a caller asks for: a resource, for an owner, in a mode, as a plain lock or as one that
covers the tree around it, shown to the editors or not. How often and how long to retry
defaults to the settings of the server.
-/

namespace SceneLocks

/-- How a lock may be held. -/
inductive Mode where
  /-- By one owner, to read and write. -/
  | exclusive
  /-- By many owners, to read. -/
  | shared
deriving DecidableEq, Repr, Inhabited

/-- The word for a mode. -/
def Mode.name : Mode → String
  | .exclusive => "exclusive"
  | .shared => "shared"

/-- Whether the editors are told about a lock. -/
inductive Visibility where
  | ui
  | internal
deriving DecidableEq, Repr, Inhabited

/-- The word for a visibility. -/
def Visibility.name : Visibility → String
  | .ui => "ui"
  | .internal => "internal"

/-- A change of what an editor lock covers. -/
inductive UpdateKind where
  /-- From the object to its tree. -/
  | tree
  /-- From the tree back to the object. -/
  | object
deriving DecidableEq, Repr, Inhabited

/-- The word for an update. -/
def UpdateKind.name : UpdateKind → String
  | .tree => "tree"
  | .object => "object"

/-- A request for a lock. -/
structure Request where
  resource : Resource
  owner : User
  mode : Mode := .exclusive
  tree : Bool := false
  visibility : Visibility := .internal
  /-- Retries after the first failed attempt; the settings decide when absent. -/
  retries : Option UInt32 := none
  /-- The wait between attempts; the settings decide when absent. -/
  wait : Option Time.Duration := none
deriving DecidableEq

/-- The same request with a single attempt. -/
def Request.once (r : Request) : Request := { r with retries := some 0 }

end SceneLocks
