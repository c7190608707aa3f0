import SceneLocks.Session.Registry

/-!
# Mailboxes

Where the events of a connection arrive. Dropping the receiving end shuts a mailbox while
its connection may still be registered; delivery skips it then. A mailbox outlives its
connection, so that what arrived can still be read.
-/

namespace SceneLocks

/-- The receiving end of one connection. -/
structure Mailbox where
  isOpen : Bool := true
  /-- What arrived and was not taken out yet, in order. -/
  unread : List Event := []
  /-- Whether the next arrival breaks its sender off. -/
  trapped : Bool := false
deriving DecidableEq, Inhabited

/-- The mailboxes of all connections there ever were. -/
abbrev Mailboxes := Std.ExtTreeMap ConnectionId Mailbox

namespace Mailboxes

/-- Whether events still arrive at a connection. -/
def accepts (m : Mailboxes) (c : ConnectionId) : Bool := m[c]?.any (·.isOpen)

/-- Puts an event into a mailbox. -/
def put (m : Mailboxes) (c : ConnectionId) (event : Event) : Mailboxes :=
  m.modify c fun box => { box with unread := box.unread ++ [event] }

/-- The live connections that a notification reaches. -/
def receivers (m : Mailboxes) (s : Sessions) (n : Notification) : List ConnectionId :=
  (s.listeners n.audience).filter m.accepts

/-- Hands a notification to its audience. -/
def deliver (m : Mailboxes) (s : Sessions) (n : Notification) : Mailboxes :=
  (m.receivers s n).foldl (·.put · n.event) m

/-- Whether delivering a notification breaks its sender off. -/
def springs (m : Mailboxes) (s : Sessions) (n : Notification) : Bool :=
  (m.receivers s n).any fun c => m[c]?.any (·.trapped)

/-- No arrival breaks its sender off any more. -/
def disarm (m : Mailboxes) : Mailboxes := m.map fun _ box => { box with trapped := false }

/-- Opens a mailbox for a new connection. -/
def add (m : Mailboxes) (c : ConnectionId) : Mailboxes := m.insert c {}

/-- Drops the receiving end; what arrived and was not read is lost. -/
def shut (m : Mailboxes) (c : ConnectionId) : Mailboxes :=
  m.insert c { isOpen := false }

/-- Takes everything out of all mailboxes. -/
def empty (m : Mailboxes) : Mailboxes := m.map fun _ box => { box with unread := [] }

end Mailboxes

end SceneLocks
