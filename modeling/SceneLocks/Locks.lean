import SceneLocks.Log
import SceneLocks.Lock.Handle
import SceneLocks.Lock.Queue
import SceneLocks.Lock.Section
import SceneLocks.Settings.Basic

/-!
# The lock manager

The table, the queue that its events go to, and the operations on both. Every operation is
one critical section: it is worked out from the table, then performed. A section that
breaks off leaves the table as it was and the events announced so far in the queue.
-/

namespace SceneLocks

/-- The state of the lock manager. -/
structure Locks where
  settings : LockSettings := {}
  table : Table := .empty
  queue : Queue := {}
  /-- Whether a reading section broke off and nobody has looked since. -/
  interrupted : Bool := false
  /-- In the order of their writing. -/
  log : List Record := []
  /-- The resources whose cached data was dropped, in order. -/
  invalidated : List Resource := []
deriving DecidableEq

namespace Locks

instance : Inhabited Locks := ⟨{}⟩

/-! ## Sections -/

/-- Writes a log record. -/
def record (l : Locks) (r : Record) : Locks := { l with log := l.log ++ [r] }

/-- Takes the guard of the table, and recovers it after a reading section broke off. -/
def enter (l : Locks) : Locks :=
  if l.interrupted then { l.record .recovered with interrupted := false } else l

/-- Performs a whole section. -/
def perform (l : Locks) (s : Section) : Locks :=
  { l with table := s.result l.table, queue := l.queue.broadcast s.events }

/-- Undoes a section that breaks off after its first `n` edits. -/
def rollBack (l : Locks) (s : Section) (n : Nat) (fault : Fault) : Locks × LockError :=
  let queue := (l.queue.broadcast (Section.events (s.take n))).disarm
  ({ l with queue }.record (.rolledBack fault.reason l.table.size),
    .broken ("lock table operation aborted: " ++ fault.reason))

/-- Where the trap of the queue breaks a section off, if it does: right after the first
announcement. -/
def breakPoint? (l : Locks) (s : Section) : Option (Nat × Fault) :=
  l.queue.trap?.bind fun fault =>
    (s.findIdx? (·.event?.isSome)).map fun i => (i + 1, fault)

/-- Performs a section, or undoes it if it breaks off. -/
def commit (l : Locks) (s : Section) : Locks × Except LockError Unit :=
  match l.breakPoint? s with
  | none => (l.perform s, .ok ())
  | some (n, fault) =>
    let (l, e) := l.rollBack s n fault
    (l, .error e)

/-- Works a section out and performs it. -/
def transact (l : Locks) (plan : Table → Except LockError Section) :
    Locks × Except LockError Unit :=
  let l := l.enter
  match plan l.table with
  | .error e => (l, .error e)
  | .ok s => l.commit s

/-- Looks something up in the table. -/
def read {α : Type} (l : Locks) (f : Table → α) : Locks × α := (l.enter, f l.table)

@[simp] theorem table_record (l : Locks) (r : Record) : (l.record r).table = l.table := rfl

@[simp] theorem queue_record (l : Locks) (r : Record) : (l.record r).queue = l.queue := rfl

@[simp] theorem table_enter (l : Locks) : l.enter.table = l.table := by
  unfold enter; split <;> rfl

@[simp] theorem queue_enter (l : Locks) : l.enter.queue = l.queue := by
  unfold enter; split <;> rfl

@[simp] theorem table_rollBack (l : Locks) (s : Section) (n : Nat) (fault : Fault) :
    (l.rollBack s n fault).1.table = l.table := rfl

/-! ## Grants -/

/-- A single attempt to grant a request. -/
def tryGrant (l : Locks) (whole : Bool) (scope : Scope) (r : Request) :
    Locks × Except LockError Handle :=
  let (l, result) := l.transact (·.granting whole scope r)
  (l, result.map fun () => .ofRequest r)

/-- Looks a resource up in the graph. -/
def resolve (g : Graph) (resource : Resource) : Except LockError Scope :=
  match g.scope? resource with
  | some scope => .ok scope
  | none => .error (.unknownResource resource)

/-! ## Releases -/

/-- Gives back one grant of an owner. -/
def unlock (l : Locks) (resource : Resource) (owner : User) : Locks × Except LockError Unit :=
  l.transact (·.releasing resource owner)

/-- Drops the cached data of a resource. -/
def invalidate (l : Locks) (resource : Resource) : Locks :=
  { l with invalidated := l.invalidated ++ [resource] }

/-- Gives a handle back. If its holder changed the resource, cached data is dropped once
the lock is free. -/
def release (l : Locks) (h : Handle) : Locks × Except LockError Unit :=
  match l.unlock h.resource h.owner with
  | (l, .ok ()) => (if h.invalidates then l.invalidate h.resource else l, .ok ())
  | (l, .error e) => (l, .error e)

/-- Lets go of a handle: a scoped one is given back, a plain one leaves its lock behind. -/
def drop (l : Locks) : Holding → Locks
  | .plain h => l.record (.handleDropped h.resource h.owner)
  | .scoped h => (l.release h).1

/-- Gives back everything that an owner has a part in; also how many entries that were. -/
def releaseAll (l : Locks) (owner : User) : Locks × Except LockError Nat :=
  let released := (l.table.ownedBy owner).length
  let announced := (l.table.shownBy owner).size
  match l.transact fun t => .ok (t.reclaiming owner) with
  | (l, .error e) => (l, .error e)
  | (l, .ok ()) =>
    (if 0 < released then l.record (.discarded owner released announced) else l, .ok released)

/-! ## Editor locks -/

/-- Whether an owner holds a resource exclusively, with its tree if that is asked for. -/
def alreadyHeld (t : Table) (resource : Resource) (owner : User) (tree : Bool) : Bool :=
  (t.lookup? resource).any fun e => e.mode == .exclusive && e.isOwnedBy owner && (e.tree || !tree)

/-- The request behind an editor lock. -/
def editorRequest (resource : Resource) (owner : User) (tree : Bool) : Request :=
  { resource, owner, tree, visibility := .ui, retries := some 0 }

/-- Extends an editor lock to its tree, or shrinks it back to the object. -/
def updateLock (l : Locks) (g : Graph) (resource : Resource) (owner : User) (kind : UpdateKind) :
    Locks × Except LockError Unit :=
  match resolve g resource with
  | .error e => (l, .error e)
  | .ok scope => l.transact (·.updating scope owner kind)

/-! ## Replay -/

/-- What a user who just logged in is told: the editor locks of the others, by user, then
the user's own exclusive locks. -/
def replayEvents (t : Table) (user : User) : List Event :=
  ((t.shownLocks.toList.filter (·.1 ≠ user)).flatMap fun (other, resources) =>
    resources.toList.map (.locked · other)) ++
  (t.rows.filter fun e => e.mode = .exclusive ∧ e.isOwnedBy user).map (.locked ·.resource user)

/-- Tells one connection what is locked; also how many events that took. A reading section
that breaks off gives no number. -/
def replay (l : Locks) (connection : ConnectionId) (user : User) : Locks × Option Nat :=
  let l := l.enter
  let events := replayEvents l.table user
  let notifications := events.map (⟨.only connection, ·⟩)
  if l.queue.trap?.isSome ∧ events ≠ [] then
    ({ l with queue := (l.queue.push (notifications.take 1)).disarm, interrupted := true }, none)
  else
    ({ l with queue := l.queue.push notifications }, some events.length)

end Locks

end SceneLocks
