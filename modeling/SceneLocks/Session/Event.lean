import SceneLocks.Resource
import SceneLocks.Session.Connection

/-!
# Session events

What the supervisor of the grace periods hears about the users, and why a session
operation can fail. The times of events are not kept here (`StampedSessionEvent`).
-/

namespace SceneLocks

/-- What happened to a user. -/
inductive SessionEventKind where
  | connected
  /-- Came back within the grace period. -/
  | reconnected
  | disconnected
deriving DecidableEq, Repr, Inhabited

/-- The word for a kind of session event. -/
def SessionEventKind.name : SessionEventKind → String
  | .connected => "connected"
  | .reconnected => "reconnected"
  | .disconnected => "disconnected"

/-- A user came or went. -/
structure SessionEvent where
  kind : SessionEventKind
  user : User
  /-- The new connection of a user who came. -/
  connection : Option ConnectionId
deriving DecidableEq, Repr, Inhabited

/-- Why a session operation failed. -/
inductive SessionError where
  /-- The name is in use on a live connection. -/
  | userExists (user : User)
  | unknownConnection (connection : ConnectionId)
  | alreadyLoggedIn (connection : ConnectionId) (user : User)
deriving DecidableEq, Repr

namespace SessionError

def code : SessionError → String
  | .userExists _ => "E400"
  | .unknownConnection _ => "E401"
  | .alreadyLoggedIn .. => "E402"

def message : SessionError → String
  | .userExists user => "Username '" ++ user ++ "' already exists"
  | .unknownConnection c => "Unknown connection " ++ c.label
  | .alreadyLoggedIn c user =>
    "Connection " ++ c.label ++ " is already logged in as '" ++ user ++ "'"

end SessionError

end SceneLocks
