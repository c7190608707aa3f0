import SceneLocks.Lock.Event

/-!
# The notification queue

The lock manager puts events into the queue from inside its critical sections, so the order
of the queue is the order of the commits. Putting never waits and never fails; a closed
queue drops what it is given. Waking the consumer can break the sender off, which is
modelled by a trap: the next notification that gets in springs it.
-/

namespace SceneLocks

/-- What breaks a sender off. -/
inductive Fault where
  /-- With a message. -/
  | spoken (message : String)
  | silent
deriving DecidableEq, Repr, Inhabited

/-- What is known about a fault. -/
def Fault.reason : Fault → String
  | .spoken message => message
  | .silent => "unknown panic"

/-- The queue between the lock manager and the broadcaster. -/
structure Queue where
  /-- In the order of the commits. -/
  pending : List Notification := []
  isOpen : Bool := true
  /-- What breaks the sender of the next notification off, if anything does. -/
  trap : Option Fault := none
deriving DecidableEq, Inhabited

namespace Queue

/-- Appends notifications, or drops them if the queue is closed. -/
def push (q : Queue) (ns : List Notification) : Queue :=
  if q.isOpen then { q with pending := q.pending ++ ns } else q

/-- Appends one event for all connections per list element. -/
def broadcast (q : Queue) (events : List Event) : Queue :=
  q.push (events.map (⟨.all, ·⟩))

/-- Nothing gets in any more; what is pending stays. -/
def close (q : Queue) : Queue := { q with isOpen := false, trap := none }

/-- Sets the trap; only an open and empty queue has a consumer to wake. -/
def arm (q : Queue) (fault : Fault) : Queue × Bool :=
  if q.isOpen ∧ q.pending = [] then ({ q with trap := some fault }, true) else (q, false)

def disarm (q : Queue) : Queue := { q with trap := none }

/-- Whether sending now would break off, and on what. -/
def trap? (q : Queue) : Option Fault := if q.isOpen then q.trap else none

/-- Takes everything out of the queue. -/
def drain (q : Queue) : Queue := { q with pending := [] }

/-! ## Laws -/

theorem pending_push_of_isOpen {q : Queue} (h : q.isOpen) (ns : List Notification) :
    (q.push ns).pending = q.pending ++ ns := by
  simp [push, h]

theorem push_of_not_isOpen {q : Queue} (h : q.isOpen = false) (ns : List Notification) :
    q.push ns = q := by
  simp [push, h]

@[simp] theorem isOpen_push (q : Queue) (ns : List Notification) :
    (q.push ns).isOpen = q.isOpen := by
  unfold push; split <;> rfl

@[simp] theorem trap_push (q : Queue) (ns : List Notification) : (q.push ns).trap = q.trap := by
  unfold push; split <;> rfl

@[simp] theorem push_nil (q : Queue) : q.push [] = q := by
  simp [push]

theorem push_push (q : Queue) (ns ms : List Notification) :
    (q.push ns).push ms = q.push (ns ++ ms) := by
  cases h : q.isOpen <;> simp [push, h]

@[simp] theorem trap?_push (q : Queue) (ns : List Notification) :
    (q.push ns).trap? = q.trap? := by
  simp [trap?]

@[simp] theorem trap?_close (q : Queue) : q.close.trap? = none := rfl

@[simp] theorem trap?_disarm (q : Queue) : q.disarm.trap? = none := by
  unfold trap? disarm; split <;> rfl

end Queue

end SceneLocks
