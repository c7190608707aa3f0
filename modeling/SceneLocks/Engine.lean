import SceneLocks.Error
import SceneLocks.Lock.Acquisition
import SceneLocks.Session.Broadcaster
import SceneLocks.Session.Grace

/-!
# The engine

The lock manager, the sessions, the grace periods and the broadcaster in one state. A login
is three steps and a disconnect two, each of them atomic; calls of different connections
may interleave between the steps. Shutting down ends the grace periods first, then counts
the locks left, then lets the broadcaster hand out what is queued.
-/

namespace SceneLocks

open Time

/-- What a shutdown found. -/
structure ShutdownReport where
  /-- Grace periods ended. -/
  cancelled : Nat := 0
  /-- Entries left in the lock table. -/
  held : Nat := 0
  /-- Events handed out after the stop was requested. -/
  flushed : Nat := 0
  warnings : List String := []
deriving DecidableEq, Repr, Inhabited

namespace ShutdownReport

def hasWarnings (r : ShutdownReport) : Bool := !r.warnings.isEmpty

/-- The report in one line. -/
def summary (r : ShutdownReport) : String :=
  let part (n : Nat) (what : String) := if 0 < n then [toString n ++ what] else []
  let parts := part r.cancelled " pending reclamation(s) cancelled" ++
    part r.held " lock(s) still held" ++ part r.flushed " queued event(s) flushed"
  if parts = [] then "Shutdown completed (no actions needed)" else "; ".intercalate parts

end ShutdownReport

/-- The locking and session engine. -/
structure Engine where
  settings : Settings
  graph : Graph
  locks : Locks
  sessions : Sessions := .empty
  grace : Grace
  mailboxes : Mailboxes := ∅
  /-- The consumer of the queue, if there is one. -/
  broadcaster : Option Broadcaster := none
  /-- The connections made so far. -/
  connected : Nat := 0
deriving DecidableEq

namespace Engine

/-! ## Construction -/

/-- All components but the broadcaster, whatever the settings. -/
def assemble (settings : Settings) (graph : Graph) : Engine :=
  { settings, graph, locks := { settings := settings.locking },
    grace := { timeout := settings.locking.gracePeriod } }

instance : Inhabited Engine := ⟨assemble {} .empty⟩

/-- The running engine, if the settings are valid. -/
def start (settings : Settings) (graph : Graph) : Except ConfigError Engine :=
  settings.validate.map fun () => { assemble settings graph with broadcaster := some {} }

/-! ## Connections -/

/-- Registers a new connection. -/
def connect (e : Engine) (label : String) : Engine × ConnectionId :=
  let c : ConnectionId := ⟨label, e.connected⟩
  ({ e with
      sessions := e.sessions.connect c, mailboxes := e.mailboxes.add c,
      connected := e.connected + 1 }, c)

/-- Logs a user in; the first step of a login. -/
def enterSession (e : Engine) (c : ConnectionId) (user : User) :
    Engine × Except SessionError SessionEvent :=
  match e.sessions.login c user with
  | .error err => (e, .error err)
  | .ok (sessions, event) => ({ e with sessions }, .ok event)

/-- Drops a connection; the first step of a disconnect. -/
def leaveSession (e : Engine) (c : ConnectionId) :
    Engine × Except SessionError (Option SessionEvent) :=
  match e.sessions.logout c with
  | .error err => (e, .error err)
  | .ok (sessions, event) => ({ e with sessions }, .ok event)

/-- What became of a user's grace period. -/
inductive Followed where
  /-- It began, with this timer. -/
  | began (timer : GraceTimer)
  /-- It is over, if there was one. -/
  | ended
  /-- It was to begin, but the clock does not reach its deadline. That breaks its caller off. -/
  | brokeOff
deriving DecidableEq, Repr, Inhabited

namespace Followed

/-- What the timer of a grace period that was to begin, or the lack of it, says. -/
def ofTimer : Option GraceTimer → Followed
  | some timer => .began timer
  | none => .brokeOff

/-- The timer that was started. -/
def timer? : Followed → Option GraceTimer
  | .began timer => some timer
  | .ended | .brokeOff => none

@[simp]
theorem timer?_ofTimer (timer : Option GraceTimer) : (ofTimer timer).timer? = timer := by
  cases timer <;> rfl

@[simp]
theorem timer?_ended : ended.timer? = none := rfl

end Followed

/-- How a disconnect went. -/
inductive Departure where
  | refused (error : SessionError)
  /-- Nobody was logged in. -/
  | nobody
  /-- A user left, and the grace periods followed. If that broke off, so did the disconnect. -/
  | left (event : SessionEvent) (followed : Followed)
deriving DecidableEq

/-- Starts a user's grace period. Without a timer it broke off, since the clock does not reach so
far. -/
def startGrace (e : Engine) (now : Instant) (user : User) : Engine × Option GraceTimer :=
  let (grace, timer) := e.grace.onDisconnect now user
  ({ e with grace }, timer)

/-- Ends a user's grace period; also whether there was one. -/
def endGrace (e : Engine) (user : User) : Engine × Bool :=
  let (grace, found) := e.grace.onConnect user
  ({ e with grace }, found)

/-- Lets the grace periods follow a session event; the second step of a login and of a
disconnect. -/
def follow (e : Engine) (now : Instant) (event : SessionEvent) : Engine × Followed :=
  match event.kind with
  | .disconnected =>
    let (e, timer) := e.startGrace now event.user
    (e, .ofTimer timer)
  | .connected | .reconnected => ((e.endGrace event.user).1, .ended)

/-- Tells one connection what is locked; the third step of a login. -/
def replay (e : Engine) (c : ConnectionId) (user : User) : Engine × Option Nat :=
  let (locks, sent) := e.locks.replay c user
  ({ e with locks }, sent)

/-- A login without interruption. -/
def login (e : Engine) (now : Instant) (c : ConnectionId) (user : User) :
    Engine × Except SessionError SessionEvent :=
  match e.enterSession c user with
  | (e, .error err) => (e, .error err)
  | (e, .ok event) =>
    let (e, _) := e.follow now event
    ((e.replay c user).1, .ok event)

/-- A disconnect without interruption. -/
def disconnect (e : Engine) (now : Instant) (c : ConnectionId) : Engine × Departure :=
  match e.leaveSession c with
  | (e, .error err) => (e, .refused err)
  | (e, .ok none) => (e, .nobody)
  | (e, .ok (some event)) =>
    let (e, followed) := e.follow now event
    (e, .left event followed)

/-! ## Time -/

/-- A timer of a grace period fires. Unless it is out of date, the user loses all locks and,
if that worked, is forgotten. -/
def reclaim (e : Engine) (t : GraceTimer) : Engine :=
  match e.grace.claim? t with
  | none => e
  | some grace =>
    match e.locks.releaseAll t.user with
    | (locks, .ok _) => { e with grace, locks, sessions := (e.sessions.forget t.user).1 }
    | (locks, .error err) => { e with grace, locks := locks.record (.reclaimFailed t.user err) }

/-- Lets the broadcaster work, if there is one. -/
def withDelivery (e : Engine) (f : Delivery → Delivery) : Engine :=
  match e.broadcaster with
  | none => e
  | some broadcaster =>
    let d := f ⟨broadcaster, e.locks.queue, e.mailboxes⟩
    { e with
      broadcaster := some d.broadcaster, mailboxes := d.mailboxes
      locks := { e.locks with queue := d.queue } }

/-- The broadcaster hands out all that is queued. -/
def settleQueue (e : Engine) : Engine := e.withDelivery (·.catchUp e.sessions)

/-! ## Shutdown -/

/-- What a report says about a broadcaster that did not stop by itself. -/
def broadcasterWarning : String := "Notification broadcaster failed"

/-- Stops the background work and reports what was left. -/
def shutdown (e : Engine) : Engine × ShutdownReport :=
  let (grace, cancelled) := e.grace.shutdown
  let (locks, held) := e.locks.read Table.size
  let e := { e with grace, locks }.withDelivery (·.finish e.sessions)
  match e.broadcaster with
  | some ⟨.failed, _, _⟩ =>
    ({ e with locks := e.locks.record .broadcasterFailed },
      { cancelled, held, warnings := [broadcasterWarning] })
  | some b => (e, { cancelled, held, flushed := b.flushed })
  | none => (e, { cancelled, held })

end Engine

end SceneLocks
