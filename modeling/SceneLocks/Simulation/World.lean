import SceneLocks.Engine
import SceneLocks.Simulation.Agenda

/-!
# The world of a simulation

An engine with its surroundings: a clock that stands still unless somebody sleeps, an
agenda of what is to happen by itself, the handles that have been given out, and the labels
of the connections. While the foreground sleeps, everything due earlier happens tick by
tick; what is due at the tick of its awakening happens after it.
-/

namespace SceneLocks.Simulation

open Time

/-- Who consumes the notification queue. -/
inductive Attachment where
  /-- Nobody; the reports show the queue. -/
  | bare
  /-- The broadcaster of a running engine. -/
  | running
  /-- The engine was shut down. -/
  | stopped
deriving DecidableEq, Repr, Inhabited

/-- How a background task ended. -/
inductive Outcome where
  /-- With a handle to be stored under the name of the task. -/
  | granted (handle : Handle)
  | succeeded
  | failed (error : LockError)
  | cancelled
  | brokeOff
deriving DecidableEq, Repr

/-- A background task that ended, and when. -/
structure Finished where
  name : String
  outcome : Outcome
  tick : Nat
deriving DecidableEq, Repr

/-- An engine with its surroundings. -/
structure World where
  engine : Engine
  attachment : Attachment
  runtime : Runtime := {}
  /-- In milliseconds. -/
  now : Nat := 0
  agenda : Agenda := []
  holdings : Std.ExtTreeMap String Holding := ∅
  /-- The last connection of each label. -/
  labels : Std.ExtTreeMap String ConnectionId := ∅
  /-- The tasks that ended since the last report. -/
  finished : List Finished := []
deriving DecidableEq

namespace World

/-- The current instant. -/
def instant (w : World) : Instant := Instant.ofTick w.now

/-- Changes the lock manager; also an answer. -/
def withLocks {α : Type} (w : World) (f : Locks → Locks × α) : World × α :=
  let (locks, answer) := f w.engine.locks
  ({ w with engine := { w.engine with locks } }, answer)

/-- Lets go of a handle. -/
def drop (w : World) (h : Holding) : World := (w.withLocks fun l => (l.drop h, ())).1

/-- Stores a handle under a name and lets go of the one stored before. -/
def store (w : World) (name : String) (h : Holding) : World :=
  let previous := w.holdings[name]?
  let w := { w with holdings := w.holdings.insert name h }
  match previous with
  | none => w
  | some old => w.drop old

/-- The connection of a label; for a label never connected, one that is not registered. -/
def connection (w : World) (label : String) : ConnectionId :=
  w.labels.getD label ⟨label, w.engine.connected⟩

/-! ## Background tasks -/

/-- Notes that a task ended. -/
def finish (w : World) (name : String) (outcome : Outcome) : World :=
  { w with finished := w.finished ++ [⟨name, outcome, w.now⟩] }

/-- Enters a task into the agenda. -/
def schedule (w : World) (tick : Nat) (t : Task) : World :=
  { w with agenda := w.agenda.add tick (.task t) }

/-- Enters a timer of a grace period into the agenda. -/
def startTimer (w : World) (timer : Option GraceTimer) : World :=
  match timer with
  | none => w
  | some t =>
    let tick := w.runtime.wakeTick w.now w.engine.grace.timeout
    { w with agenda := w.agenda.add tick (.grace t) }

/-- Goes on with a task that got its lock. -/
def taskGranted (w : World) (t : Task) (h : Handle) : World :=
  match t.purpose with
  | .keep => w.finish t.name (.granted h)
  | .hold ticks _ =>
    w.schedule (w.runtime.wakeTick w.now (.ofMillis ticks)) { t with stage := .holding h }

/-- The wait before the next attempt of an acquisition, if there is one. Nothing is drawn at
random here: it is always the middle of the spread. -/
def waitOf? (a : Acquisition) : Option Duration := a.policy.delay? a.policy.middle?

/-- Makes one attempt. -/
def attempt (w : World) (a : Acquisition) : World × Progress := w.withLocks (·.attempt w.now a)

/-- Enters a task into the agenda for the end of its wait. -/
def taskWaits (w : World) (t : Task) (next : Acquisition) (wait : Duration) : World :=
  w.schedule (w.runtime.wakeTick w.now wait) { t with stage := .trying next }

/-- Goes on with a task after an attempt, until the lock is granted or refused for good, or
a wait begins. Without a wait for its next attempt the task breaks off. -/
def taskGoesOn (t : Task) : Nat → World → Progress → World
  | _, w, .granted h => w.taskGranted t h
  | _, w, .failed e => w.finish t.name (.failed e)
  | left, w, .waiting next e =>
    match waitOf? next with
    | none => w.finish t.name .brokeOff
    | some wait =>
      if wait.isZero then
        match left with
        | 0 => w.finish t.name (.failed e)
        | n + 1 =>
          let (w, p) := w.attempt next
          taskGoesOn t n w p
      else w.taskWaits t next wait

/-- Makes the next attempt of a task, and goes on. -/
def taskAttempts (w : World) (t : Task) (a : Acquisition) : World :=
  let (w, p) := w.attempt a
  taskGoesOn t a.left w p

/-- Ends a task that held its scoped lock long enough. -/
def taskEnds (w : World) (t : Task) (h : Handle) : World :=
  match t.purpose with
  | .keep | .hold _ .drop => (w.drop (.scoped h)).finish t.name .succeeded
  | .hold _ .release =>
    match w.withLocks (·.release h) with
    | (w, .ok ()) => w.finish t.name .succeeded
    | (w, .error e) => w.finish t.name (.failed e)
  | .hold _ .breakOff => (w.drop (.scoped h)).finish t.name .brokeOff

/-- Runs a task up to its next wait. -/
def runTask (w : World) (t : Task) : World :=
  match t.stage with
  | .fresh r =>
    match w.engine.locks.begin w.engine.graph w.now false r with
    | .error e => w.finish t.name (.failed e)
    | .ok a => w.taskAttempts t a
  | .trying a => w.taskAttempts t a
  | .holding h => w.taskEnds t h

/-- Cancels a task; a scoped lock that it holds is given back. -/
def abort (w : World) (name : String) : World × Bool :=
  match w.agenda.task? name with
  | none => (w, false)
  | some t =>
    let w := { w with agenda := w.agenda.withoutTask name }
    let w := match t.stage with
      | .holding h => w.drop (.scoped h)
      | _ => w
    (w.finish name .cancelled, true)

/-! ## Time -/

/-- Lets the broadcaster hand out what is queued. -/
def settleQueue (w : World) : World := { w with engine := w.engine.settleQueue }

/-- Does what an entry of the agenda says. -/
def perform (w : World) : Activity → World
  | .grace t => { w with engine := w.engine.reclaim t }
  | .task t => w.runTask t

/-- Lets everything happen that is due before a tick. -/
def runBefore (w : World) (tick : Nat) : Nat → World
  | 0 => w
  | n + 1 =>
    match w.agenda with
    | [] => w
    | p :: rest =>
      if p.tick < tick then
        ({ w with now := max w.now p.tick, agenda := rest }.perform p.activity
          |>.settleQueue).runBefore tick n
      else w

/-- How many appointments can come to pass at most. -/
def budget (w : World) : Nat := w.agenda.budget w.engine.locks.settings.retries

/-- The foreground sleeps until a tick. -/
def sleepUntil (w : World) (tick : Nat) : World :=
  let w := w.settleQueue.runBefore tick w.budget
  { w with now := max w.now tick }

/-- Everything happens that is due now. -/
def settle (w : World) : World := w.settleQueue.runBefore (w.now + 1) w.budget

/-- The foreground sleeps for a duration, unless it is zero. -/
def sleep (w : World) (d : Duration) : World :=
  if d.isZero then w else w.sleepUntil (w.runtime.wakeTick w.now d)

/-! ## Foreground acquisitions -/

/-- Goes on in the foreground until the lock is granted or refused for good, or there is no wait
for the next attempt. -/
def goOn (w : World) (p : Progress) : Nat → World × Progress
  | 0 => (w, p)
  | n + 1 =>
    match p with
    | .waiting next _ =>
      match waitOf? next with
      | none => (w, p)
      | some wait =>
        let (w, p) := (w.sleep wait).attempt next
        w.goOn p n
    | .granted _ | .failed _ => (w, p)

/-- Gets a lock in the foreground. Without a wait for the next attempt this breaks off. -/
def acquire (w : World) (whole : Bool) (r : Request) :
    World × Option (Except LockError Handle) :=
  match w.engine.locks.begin w.engine.graph w.now whole r with
  | .error e => (w, some (.error e))
  | .ok a =>
    let (w, p) := w.attempt a
    match w.goOn p a.left with
    | (w, .granted h) => (w, some (.ok h))
    | (w, .failed e) => (w, some (.error e))
    | (w, .waiting ..) => (w, none)

end World

end SceneLocks.Simulation
