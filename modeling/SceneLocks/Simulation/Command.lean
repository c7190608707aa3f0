import SceneLocks.Engine
import SceneLocks.Simulation.Agenda

/-!
# Commands and answers

What a simulation can be told to do, one step after the other, and what it answers.
Connections go by their labels and handles by the names they are stored under.
-/

namespace SceneLocks.Simulation

/-- How a request of the foreground is made. -/
inductive Manner where
  | plain
  /-- With a single attempt. -/
  | once
  /-- To be given back when it goes out of scope. -/
  | scoped
deriving DecidableEq, Repr, Inhabited

/-! ## Commands -/

/-- On the handles that have been given out. -/
inductive HandleCommand where
  | acquire (manner : Manner) (name : String) (request : Request)
  | lockAll (name : String) (resource : Resource) (owner : User)
  /-- Runs a body under a scoped lock: it sleeps, and then it may fail. -/
  | withLock (request : Request) (hold : Nat) (fail : Option String)
  | markModified (name : String)
  | show (name : String)
  | release (name : String)
  | drop (name : String)
  | detach (name : String)
  | keepAlive (name : String)
deriving DecidableEq

/-- On the lock manager. -/
inductive LockCommand where
  | lock (resource : Resource) (owner : User) (tree : Bool)
  | unlock (resource : Resource) (owner : User)
  | update (resource : Resource) (owner : User) (kind : UpdateKind)
  | releaseAll (owner : User)
  | replay (connection : String) (user : User)
  | entry (resource : Resource)
  | isLocked (resource : Resource) (owner : User) (mode : Mode)
  | holder (resource : Resource)
  | ownerLocks (owner : User)
  | shownLocks
  | counts
  | settings
deriving DecidableEq

/-- On the graph. -/
inductive GraphCommand where
  | resolve (resource : Resource)
  | insert (resource : Resource) (parent : Option Resource)
  | remove (resource : Resource)
  | invalidate (resource : Resource)
  | contains (resource : Resource)
  | ancestors (resource : Resource)
  | descendants (resource : Resource)
  | size
deriving DecidableEq

/-- On connections and users. -/
inductive SessionCommand where
  | connect (label : String)
  | close (connection : String)
  | login (connection : String) (user : User)
  | disconnect (connection : String)
  | forget (user : User)
  | userOn (connection : String)
  | session (user : User)
  | users
deriving DecidableEq

/-- On notifications, to one connection or to all. -/
inductive NotificationCommand where
  | deliver (event : Event) (connection : Option String)
  | send (event : Event) (connection : Option String)
  | broadcastAll
  /-- Lets the next delivery break its sender off. -/
  | sabotage (fault : Fault) (connection : Option String)
deriving DecidableEq

/-- On grace periods. -/
inductive GraceCommand where
  | start (user : User)
  | stop (user : User)
  | follow (kind : SessionEventKind) (user : User) (connection : String)
  | deadlines
  | stopAll
deriving DecidableEq

/-- On time, background tasks and the engine as a whole. -/
inductive TaskCommand where
  | advance (ticks : Nat)
  | spawn (name : String) (request : Request)
  | spawnScoped (name : String) (request : Request) (hold : Nat) (ending : Ending)
  | abort (name : String)
  | shutdown
deriving DecidableEq

/-- One step of a simulation. -/
inductive Command where
  | onHandles (c : HandleCommand)
  | onLocks (c : LockCommand)
  | onGraph (c : GraphCommand)
  | onSessions (c : SessionCommand)
  | onNotifications (c : NotificationCommand)
  | onGrace (c : GraceCommand)
  | onTasks (c : TaskCommand)
deriving DecidableEq

/-! ## Answers -/

/-- Whether a name was of use. -/
inductive Refusal where
  | noHandle
  | scoped
  | notScoped
  | noTask
  | noQueue
  | noEngine
  /-- The step broke off, and the run goes on. -/
  | brokeOff
deriving DecidableEq, Repr

/-- The word for a refusal. -/
def Refusal.text : Refusal → String
  | .noHandle => "no handle"
  | .scoped => "scoped"
  | .notScoped => "not scoped"
  | .noTask => "no task"
  | .noQueue => "no queue"
  | .noEngine => "no engine"
  | .brokeOff => "panicked"

/-- What a step answers. -/
inductive Answer where
  | done
  | refused (r : Refusal)
  | failure (e : Error)
  | handle (h : Handle)
  | number (n : Nat)
  | flag (b : Bool)
  | entry (e : Option Entry)
  | entries (es : List Entry)
  | name (n : Option String)
  | names (ns : List String)
  | shown (locks : Std.ExtTreeMap User (Std.ExtTreeSet Resource))
  /-- Entries, exclusive entries, invalidations. -/
  | counts (entries exclusive invalidations : Nat)
  | scope (s : Scope)
  | graphSize (n : Nat)
  /-- The settings of the manager, the grace period in milliseconds, and whether the engine
  has the same settings, if there is an engine. -/
  | settings (s : LockSettings) (graceMs : Nat) (agree : Option Bool)
  | sessionEvent (e : Option SessionEvent)
  | session (user : User) (s : Option (Option ConnectionId))
  | users (connected : List User) (connections : Nat)
  /-- Notifications processed and, of those, flushed. -/
  | broadcast (processed flushed : Nat)
  /-- Users and milliseconds. -/
  | deadlines (ds : List (User × Nat))
  | report (r : ShutdownReport)
  /-- None: the step broke off, after a session event if there was one, and the run with it. -/
  | brokeOff (event : Option SessionEvent)

/-- The answer for an operation without result. -/
def Answer.ofLocking : Except LockError Unit → Answer
  | .ok () => .done
  | .error e => .failure (.lock e)

end SceneLocks.Simulation
