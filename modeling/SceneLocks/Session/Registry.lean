import SceneLocks.Lock.Event
import SceneLocks.Session.Event

/-!
# Sessions

Which connections are live, who is logged in on which of them, and which users are known
though disconnected. A user stays known until the session is forgotten.
-/

namespace SceneLocks

/-- The live connections and the known users. -/
structure Sessions where
  /-- Each live connection with the user logged in on it. -/
  connections : Std.ExtTreeMap ConnectionId (Option User)
  /-- Each known user with the live connection, if there is one. -/
  users : Std.ExtTreeMap User (Option ConnectionId)
deriving DecidableEq

namespace Sessions

/-- Nobody is there. -/
def empty : Sessions := ⟨∅, ∅⟩

instance : Inhabited Sessions := ⟨empty⟩

/-- Adds a connection on which nobody is logged in. -/
def connect (s : Sessions) (c : ConnectionId) : Sessions :=
  { s with connections := s.connections.insert c none }

/-- Logs a user in on a connection. -/
def login (s : Sessions) (c : ConnectionId) (user : User) :
    Except SessionError (Sessions × SessionEvent) :=
  match s.connections[c]? with
  | none => .error (.unknownConnection c)
  | some (some present) => .error (.alreadyLoggedIn c present)
  | some none =>
    let loggedIn : Sessions :=
      { connections := s.connections.insert c (some user), users := s.users.insert user (some c) }
    match s.users[user]? with
    | some (some _) => .error (.userExists user)
    | some none => .ok (loggedIn, ⟨.reconnected, user, some c⟩)
    | none => .ok (loggedIn, ⟨.connected, user, some c⟩)

/-- Drops a connection. The user logged in on it stays known. -/
def logout (s : Sessions) (c : ConnectionId) :
    Except SessionError (Sessions × Option SessionEvent) :=
  match s.connections[c]? with
  | none => .error (.unknownConnection c)
  | some none => .ok ({ s with connections := s.connections.erase c }, none)
  | some (some user) =>
    .ok ({ connections := s.connections.erase c, users := s.users.modify user fun _ => none },
      some ⟨.disconnected, user, none⟩)

/-- Forgets a disconnected user; a connected one stays. -/
def forget (s : Sessions) (user : User) : Sessions × Bool :=
  if s.users[user]? = some none then ({ s with users := s.users.erase user }, true)
  else (s, false)

/-- The user logged in on a connection. -/
def userOn? (s : Sessions) (c : ConnectionId) : Option User := s.connections[c]?.join

/-- What is known of a user: the connection, or none while disconnected. -/
def session? (s : Sessions) (user : User) : Option (Option ConnectionId) := s.users[user]?

/-- The users with a live connection, in order. -/
def connectedUsers (s : Sessions) : List User := (s.users.filter fun _ c => c.isSome).keys

/-- The number of live connections. -/
def connectionCount (s : Sessions) : Nat := s.connections.size

/-- The live connections in an audience. -/
def listeners (s : Sessions) : Audience → List ConnectionId
  | .all => s.connections.keys
  | .only c => if s.connections.contains c then [c] else []

end Sessions

end SceneLocks
