import SceneLocks.Lock.Queue
import SceneLocks.Session.Mailbox

/-!
# The broadcaster

The only consumer of the notification queue, one step at a time. While it runs it takes one
notification after the other and hands it to the connections that are live just then. A
request to stop is seen when the queue is empty; the queue is then closed, and what came in
meanwhile is flushed.
-/

namespace SceneLocks

/-- What the broadcaster is doing. -/
inductive Broadcaster.Phase where
  | running
  /-- The queue is closed, the rest is handed out. -/
  | flushing
  | stopped
  /-- A receiver broke it off. -/
  | failed
deriving DecidableEq, Repr, Inhabited

/-- The consumer of the notification queue. -/
structure Broadcaster where
  phase : Broadcaster.Phase := .running
  /-- Notifications taken off the queue. -/
  processed : Nat := 0
  /-- Of those, the ones taken after the queue was closed. -/
  flushed : Nat := 0
deriving DecidableEq, Inhabited

/-- The broadcaster with what it works on. -/
structure Delivery where
  broadcaster : Broadcaster
  queue : Queue
  mailboxes : Mailboxes
deriving DecidableEq, Inhabited

namespace Delivery

/-- Whether notifications are still taken off the queue. -/
def isActive (d : Delivery) : Bool :=
  d.broadcaster.phase == .running || d.broadcaster.phase == .flushing

/-- Hands out one notification, just taken off the queue. -/
def dispatch (d : Delivery) (s : Sessions) (n : Notification) : Delivery :=
  let b := d.broadcaster
  if d.mailboxes.springs s n then
    { broadcaster := { b with phase := .failed }
      queue := { d.queue with pending := [] }.close
      mailboxes := (d.mailboxes.deliver s n).disarm }
  else
    { d with
      broadcaster :=
        { b with
          processed := b.processed + 1
          flushed := if b.phase = .flushing then b.flushed + 1 else b.flushed }
      mailboxes := d.mailboxes.deliver s n }

/-- One step; `stopping` tells whether a stop was requested. -/
def step (d : Delivery) (s : Sessions) (stopping : Bool) : Delivery :=
  match d.broadcaster.phase, d.queue.pending with
  | .running, n :: rest | .flushing, n :: rest =>
    { d with queue := { d.queue with pending := rest } }.dispatch s n
  | .running, [] =>
    if stopping then
      { d with broadcaster := { d.broadcaster with phase := .flushing }, queue := d.queue.close }
    else d
  | .flushing, [] => { d with broadcaster := { d.broadcaster with phase := .stopped } }
  | .stopped, _ | .failed, _ => d

/-- Several steps while nothing else happens. -/
def steps (d : Delivery) (s : Sessions) (stopping : Bool) : Nat → Delivery
  | 0 => d
  | n + 1 => (d.step s stopping).steps s stopping n

/-- Hands out all that is in the queue. -/
def catchUp (d : Delivery) (s : Sessions) : Delivery :=
  d.steps s false d.queue.pending.length

/-- Runs to the end after a request to stop. -/
def finish (d : Delivery) (s : Sessions) : Delivery :=
  d.steps s true (d.queue.pending.length + 2)

end Delivery

end SceneLocks
