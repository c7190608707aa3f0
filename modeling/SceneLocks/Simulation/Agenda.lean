import SceneLocks.Lock.Acquisition
import SceneLocks.Session.Grace

/-!
# The agenda

What happens by itself as time goes on: timers of grace periods, and background tasks that
wait for a lock or hold one. Entries are kept in the order of their ticks, and in the order
of their arrival within a tick.
-/

namespace SceneLocks.Simulation

/-- How a background task with a scoped lock ends. -/
inductive Ending where
  /-- The lock goes out of scope. -/
  | drop
  /-- The lock is given back by hand. -/
  | release
  /-- The task breaks off. -/
  | breakOff
deriving DecidableEq, Repr, Inhabited

/-- What a background task is to do once it has its lock. -/
inductive Purpose where
  /-- Hand the plain handle over. -/
  | keep
  /-- Hold the scoped lock for some ticks, then end. -/
  | hold (ticks : Nat) (ending : Ending)
deriving DecidableEq, Repr, Inhabited

/-- How far a background task is. -/
inductive Stage where
  /-- Not started yet. -/
  | fresh (request : Request)
  /-- Between two attempts. -/
  | trying (acquisition : Acquisition)
  /-- In possession of a scoped lock. -/
  | holding (handle : Handle)
deriving DecidableEq

/-- A background task. -/
structure Task where
  name : String
  purpose : Purpose
  stage : Stage
deriving DecidableEq

/-- What an entry of the agenda does. -/
inductive Activity where
  | grace (timer : GraceTimer)
  | task (task : Task)
deriving DecidableEq

/-- An activity and its tick. -/
structure Appointment where
  tick : Nat
  activity : Activity
deriving DecidableEq

/-- What is to happen, soonest first. -/
abbrev Agenda := List Appointment

namespace Agenda

/-- Enters an activity behind everything of the same tick. -/
def add (a : Agenda) (tick : Nat) (activity : Activity) : Agenda :=
  a.takeWhile (·.tick ≤ tick) ++ ⟨tick, activity⟩ :: a.dropWhile (·.tick ≤ tick)

/-- The background task of a name. -/
def task? (a : Agenda) (name : String) : Option Task :=
  a.findSome? fun
    | ⟨_, .task t⟩ => if t.name = name then some t else none
    | _ => none

/-- Crosses a background task out. -/
def withoutTask (a : Agenda) (name : String) : Agenda :=
  a.filter fun
    | ⟨_, .task t⟩ => t.name ≠ name
    | _ => true

end Agenda

/-- How often a task can come up on the agenda, under the settings for a request that does
not say how often to retry. -/
def Stage.budget (defaultRetries : UInt32) : Stage → Nat
  | .fresh r => (r.retries.getD defaultRetries).toNat + 4
  | .trying a => a.left + 2
  | .holding _ => 1

/-- How often an activity can come up on the agenda. -/
def Activity.budget (defaultRetries : UInt32) : Activity → Nat
  | .grace _ => 1
  | .task t => t.stage.budget defaultRetries

/-- How many appointments can come to pass at most. -/
def Agenda.budget (defaultRetries : UInt32) (a : Agenda) : Nat :=
  a.foldl (fun n p => n + p.activity.budget defaultRetries) 0

end SceneLocks.Simulation
