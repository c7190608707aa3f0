import SceneLocks.Simulation.Command
import SceneLocks.Simulation.World

/-!
# Running a simulation

A run takes one command after the other. After each, everything due happens, and a report
shows what changed: the table, the notifications, the log, and the tasks that ended.
-/

namespace SceneLocks.Simulation

open Time

namespace World

/-! ## Handles -/

/-- Stores a handle if there is one. -/
def keep (w : World) (name : String) (wrap : Handle → Holding) :
    Option (Except LockError Handle) → World × Answer
  | some (.ok h) => (w.store name (wrap h), .handle h)
  | some (.error e) => (w, .failure (.lock e))
  | none => (w, .brokeOff none)

/-- Works on the handle of a name. -/
def withHolding (w : World) (name : String) (f : Holding → World × Answer) : World × Answer :=
  match w.holdings[name]? with
  | none => (w, .refused .noHandle)
  | some h => f h

/-- Takes the handle of a name away. -/
def take (w : World) (name : String) : World := { w with holdings := w.holdings.erase name }

/-- Runs a body under a scoped lock. -/
def underLock (w : World) (r : Request) (hold : Nat) (fail : Option String) : World × Answer :=
  match w.acquire false r with
  | (w, none) => (w, .brokeOff none)
  | (w, some (.error e)) => (w, .failure (.lock e))
  | (w, some (.ok h)) =>
    let w := w.sleepUntil (w.runtime.wakeTick w.now (.ofMillis hold))
    let (w, answer) : World × Answer := match fail with
      | some text => (w, .failure (.config (.other text)))
      | none =>
        let (w, n) := w.withLocks (·.read Table.size)
        (w, .number n)
    (w.drop (.scoped h), answer)

/-- What a command on handles does. -/
def runOnHandles (w : World) : HandleCommand → World × Answer
  | .acquire .plain name r =>
    let (w, result) := w.acquire false r
    w.keep name .plain result
  | .acquire .once name r =>
    let (w, result) := w.acquire false r.once
    w.keep name .plain result
  | .acquire .scoped name r =>
    let (w, result) := w.acquire false r
    w.keep name .scoped result
  | .lockAll name resource owner =>
    let (w, result) := w.acquire true (Locks.wholeRequest resource owner)
    w.keep name .scoped result
  | .withLock r hold fail => w.underLock r hold fail
  | .markModified name => w.withHolding name fun h =>
    ({ w with holdings := w.holdings.insert name (h.map Handle.markModified) }, .done)
  | .show name => w.withHolding name fun h => (w, .handle h.handle)
  | .release name => w.withHolding name fun h =>
    let (w, result) := (w.take name).withLocks (·.release h.handle)
    (w, .ofLocking result)
  | .drop name => w.withHolding name fun h => ((w.take name).drop h, .done)
  | .detach name => w.withHolding name fun
    | .plain _ => (w.take name, .done)
    | .scoped _ => (w, .refused .scoped)
  | .keepAlive name => w.withHolding name fun
    | .plain _ => (w, .refused .notScoped)
    | .scoped h => ({ w with holdings := w.holdings.insert name (.plain h) }, .handle h)

/-! ## Locks -/

/-- Changes the lock manager and answers whether that worked. -/
def locking (w : World) (f : Locks → Locks × Except LockError Unit) : World × Answer :=
  let (w, result) := w.withLocks f
  (w, .ofLocking result)

/-- Looks something up in the table. -/
def reading {α : Type} (w : World) (f : Table → α) (answer : α → Answer) : World × Answer :=
  let (w, found) := w.withLocks (·.read f)
  (w, answer found)

/-- What a command on locks does. -/
def runOnLocks (w : World) : LockCommand → World × Answer
  | .lock resource owner tree =>
    w.locking (·.lock w.engine.graph w.now resource owner tree)
  | .unlock resource owner => w.locking (·.unlock resource owner)
  | .update resource owner kind =>
    w.locking (·.updateLock w.engine.graph resource owner kind)
  | .releaseAll owner =>
    match w.withLocks (·.releaseAll owner) with
    | (w, .ok n) => (w, .number n)
    | (w, .error e) => (w, .failure (.lock e))
  | .replay connection user =>
    match w.withLocks (·.replay (w.connection connection) user) with
    | (w, some n) => (w, .number n)
    | (w, none) => (w, .refused .brokeOff)
  | .entry resource => w.reading (·.lookup? resource) .entry
  | .isLocked resource owner mode =>
    w.reading (fun t => (t.lookup? resource).any fun e => e.mode = mode ∧ e.isOwnedBy owner) .flag
  | .holder resource => w.reading (fun t => (t.lookup? resource).bind Entry.holder?) .name
  | .ownerLocks owner =>
    w.reading (fun t => t.rows.filter (·.isOwnedBy owner)) .entries
  | .shownLocks => w.reading Table.shownLocks .shown
  | .counts =>
    w.reading (fun t => (t.size, t.exclusiveCount))
      fun (n, exclusive) => .counts n exclusive w.engine.locks.invalidated.length
  | .settings =>
    let s := w.engine.locks.settings
    (w, .settings s w.engine.grace.timeout.millis <|
      if w.attachment = .running then some (w.engine.settings.locking = s) else none)

/-! ## The graph -/

/-- What a command on the graph does. -/
def runOnGraph (w : World) : GraphCommand → World × Answer
  | .resolve resource =>
    match Locks.resolve w.engine.graph resource with
    | .ok scope => (w, .scope scope)
    | .error e => (w, .failure (.lock e))
  | .insert resource parent =>
    let graph := w.engine.graph.insert resource parent
    ({ w with engine := { w.engine with graph } }, .number graph.size)
  | .remove resource =>
    let (graph, n) := w.engine.graph.remove resource
    ({ w with engine := { w.engine with graph } }, .number n)
  | .invalidate resource =>
    let (w, n) := w.withLocks fun l =>
      let l := l.invalidate resource
      (l, l.invalidated.length)
    (w, .number n)
  | .contains resource => (w, .flag (w.engine.graph.contains resource))
  | .ancestors resource => (w, .names (w.engine.graph.ancestors resource))
  | .descendants resource => (w, .names (w.engine.graph.descendants resource))
  | .size => (w, .graphSize w.engine.graph.size)

/-! ## Sessions -/

/-- Registers a connection; an earlier mailbox of the same label is shut. -/
def connect (w : World) (label : String) : World :=
  let mailboxes := match w.labels[label]? with
    | some old => w.engine.mailboxes.shut old
    | none => w.engine.mailboxes
  let (engine, c) := { w.engine with mailboxes }.connect label
  { w with engine, labels := w.labels.insert label c }

/-- A login through the engine while it runs, else with the sessions alone. -/
def login (w : World) (c : ConnectionId) (user : User) : World × Answer :=
  let (engine, result) :=
    if w.attachment = .running then w.engine.login w.instant c user
    else w.engine.enterSession c user
  let w := { w with engine }
  match result with
  | .ok event => (w, .sessionEvent (some event))
  | .error e => (w, .failure (.session e))

/-- A disconnect through the engine while it runs, else with the sessions alone. -/
def disconnect (w : World) (c : ConnectionId) : World × Answer :=
  if w.attachment = .running then
    match w.engine.disconnect w.instant c with
    | (engine, .refused e) => ({ w with engine }, .failure (.session e))
    | (engine, .nobody) => ({ w with engine }, .sessionEvent none)
    | (engine, .left event .brokeOff) => ({ w with engine }, .brokeOff (some event))
    | (engine, .left event followed) =>
      ({ w with engine }.startTimer followed.timer?, .sessionEvent (some event))
  else
    match w.engine.leaveSession c with
    | (engine, .ok event) => ({ w with engine }, .sessionEvent event)
    | (engine, .error e) => ({ w with engine }, .failure (.session e))

/-- What a command on sessions does. -/
def runOnSessions (w : World) : SessionCommand → World × Answer
  | .connect label =>
    let w := w.connect label
    (w, .number w.engine.sessions.connectionCount)
  | .close connection =>
    let c := w.connection connection
    let mailboxes := w.engine.mailboxes
    if mailboxes.accepts c then
      ({ w with engine := { w.engine with mailboxes := mailboxes.shut c } }, .flag true)
    else (w, .flag false)
  | .login connection user => w.login (w.connection connection) user
  | .disconnect connection => w.disconnect (w.connection connection)
  | .forget user =>
    let (sessions, gone) := w.engine.sessions.forget user
    ({ w with engine := { w.engine with sessions } }, .flag gone)
  | .userOn connection =>
    (w, .name (w.engine.sessions.userOn? (w.connection connection)))
  | .session user => (w, .session user (w.engine.sessions.session? user))
  | .users =>
    let s := w.engine.sessions
    (w, .users s.connectedUsers s.connectionCount)

/-! ## Notifications -/

/-- The notification of an event to one label or to all connections. -/
def notification (w : World) (event : Event) : Option String → Notification
  | none => ⟨.all, event⟩
  | some label => ⟨.only (w.connection label), event⟩

/-- Sets a trap in the queue, or in the mailbox of a live connection. -/
def sabotage (w : World) (fault : Fault) : Option String → World × Bool
  | none =>
    if w.attachment = .bare then
      w.withLocks fun l =>
        let (queue, armed) := l.queue.arm fault
        ({ l with queue }, armed)
    else (w, false)
  | some label =>
    let c := w.connection label
    let mailboxes := w.engine.mailboxes
    if w.engine.sessions.connections.contains c ∧
        mailboxes[c]?.any fun box => box.isOpen ∧ box.unread = [] then
      let trapped := mailboxes.modify c fun box => { box with trapped := true }
      ({ w with engine := { w.engine with mailboxes := trapped } }, true)
    else (w, false)

/-- What a command on notifications does. -/
def runOnNotifications (w : World) : NotificationCommand → World × Answer
  | .deliver event connection =>
    let n := w.notification event connection
    let e := w.engine
    ({ w with engine := { e with mailboxes := e.mailboxes.deliver e.sessions n } },
      .number (e.mailboxes.receivers e.sessions n).length)
  | .send event connection =>
    let n := w.notification event connection
    if w.attachment = .bare ∧ w.engine.locks.queue.isOpen then
      match w.engine.locks.queue.trap? with
      | none =>
        let (w, _) := w.withLocks fun l => ({ l with queue := l.queue.push [n] }, ())
        (w, .flag true)
      | some _ =>
        let (w, _) := w.withLocks fun l => ({ l with queue := (l.queue.push [n]).disarm }, ())
        (w, .refused .brokeOff)
    else (w, .flag false)
  | .broadcastAll =>
    if w.attachment = .bare ∧ w.engine.locks.queue.isOpen then
      let e := { w.engine with broadcaster := some {} }
      let e := e.withDelivery (·.finish e.sessions)
      let b := e.broadcaster.getD {}
      ({ w with engine := { e with broadcaster := none } }, .broadcast b.processed b.flushed)
    else (w, .refused .noQueue)
  | .sabotage fault connection =>
    let (w, armed) := w.sabotage fault connection
    (w, .flag armed)

/-! ## Grace periods, tasks and time -/

/-- What a command on grace periods does. -/
def runOnGrace (w : World) : GraceCommand → World × Answer
  | .start user =>
    match w.engine.startGrace w.instant user with
    | (engine, none) => ({ w with engine }, .brokeOff none)
    | (engine, some timer) =>
      let w := { w with engine }.startTimer (some timer)
      (w, .number w.engine.grace.pending.size)
  | .stop user =>
    let (engine, found) := w.engine.endGrace user
    ({ w with engine }, .flag found)
  | .follow kind user connection =>
    let c := match kind with
      | .disconnected => none
      | .connected | .reconnected => some (w.connection connection)
    let event : SessionEvent := ⟨kind, user, c⟩
    match w.engine.follow w.instant event with
    | (engine, .brokeOff) => ({ w with engine }, .brokeOff none)
    | (engine, followed) =>
      ({ w with engine }.startTimer followed.timer?, .sessionEvent (some event))
  | .deadlines =>
    (w, .deadlines (w.engine.grace.deadlines.map fun (user, t) => (user, t / millisecond)))
  | .stopAll =>
    let (grace, n) := w.engine.grace.shutdown
    ({ w with engine := { w.engine with grace } }, .number n)

/-- What a command on time, tasks or the whole engine does. -/
def runOnTasks (w : World) : TaskCommand → World × Answer
  | .advance ticks => (w.sleepUntil (w.runtime.wakeTick w.now (.ofMillis ticks)), .done)
  | .spawn name r => (w.schedule w.now ⟨name, .keep, .fresh r⟩, .done)
  | .spawnScoped name r hold ending =>
    (w.schedule w.now ⟨name, .hold hold ending, .fresh r⟩, .done)
  | .abort name =>
    match w.abort name with
    | (w, true) => (w, .done)
    | (w, false) => (w, .refused .noTask)
  | .shutdown =>
    if w.attachment = .running then
      let (engine, report) := w.engine.shutdown
      ({ w with engine, attachment := .stopped }, .report report)
    else (w, .refused .noEngine)

/-- What a command does and answers, before anything that is due by then. -/
def run (w : World) : Command → World × Answer
  | .onHandles c => w.runOnHandles c
  | .onLocks c => w.runOnLocks c
  | .onGraph c => w.runOnGraph c
  | .onSessions c => w.runOnSessions c
  | .onNotifications c => w.runOnNotifications c
  | .onGrace c => w.runOnGrace c
  | .onTasks c => w.runOnTasks c

end World

/-! ## Reports -/

/-- What is to be seen after a step. -/
structure Report where
  answer : Answer
  tick : Nat
  table : List Entry
  /-- The notifications queued since the last report, if nobody consumes them. -/
  queue : List Notification
  /-- The events received since the last report, by label. -/
  inbox : List (String × List Event)
  log : List Record
  finished : List Finished

namespace World

/-- The events of a user at the end of a list, in the order of their resources. -/
def sortTail {α : Type} (event : α → Event) (user : User) (xs : List α) : List α :=
  let tail := (xs.reverse.takeWhile fun x => (event x).user = user).reverse
  xs.take (xs.length - tail.length) ++
    tail.mergeSort fun x y => (event x).resource ≤ (event y).resource

/-- Whose events a command sends in no particular order. -/
def unordered? : Command → Option User
  | .onSessions (.login _ user) => some user
  | .onLocks (.replay _ user) => some user
  | _ => none

/-- Stores the handles of tasks that ended. -/
def collect (w : World) : World :=
  w.finished.foldl (fun w f =>
    match f.outcome with
    | .granted h => w.store f.name (.plain h)
    | _ => w) w

/-- Takes out what a report shows. -/
def report (w : World) (c : Command) (answer : Answer) : World × Report :=
  let w := w.collect
  let (w, table) := w.withLocks (·.read Table.rows)
  let sorted {α : Type} (event : α → Event) (xs : List α) : List α :=
    match unordered? c with
    | some user => sortTail event user xs
    | none => xs
  let e := w.engine
  let unread := e.mailboxes.toList.filter fun (_, box) => box.unread ≠ []
  let report : Report :=
    { answer, table, tick := w.now
      queue := sorted (·.event) e.locks.queue.pending
      inbox := unread.map fun (c, box) => (c.label, sorted id box.unread)
      log := e.locks.log
      finished := w.finished }
  let engine := { e with
    mailboxes := e.mailboxes.empty
    locks := { e.locks with queue := e.locks.queue.drain, log := [] } }
  ({ w with engine, finished := [] }, report)

/-- One step: the command, everything due, and the report, unless the command breaks off. -/
def step? (w : World) (c : Command) : Option (World × Report) :=
  match w.run c with
  | (_, .brokeOff _) => none
  | (w, answer) => some (w.settle.report c answer)

end World

/-- The world after a whole run, and its reports. A command that breaks off ends the run, and
nothing is left of it. -/
def runAll (w : World) : List Command → Option (World × List Report)
  | [] => some (w, [])
  | c :: cs => do
    let (w, report) ← w.step? c
    let (w, reports) ← runAll w cs
    some (w, report :: reports)

/-- The world of components without a broadcaster. -/
def bare (settings : Settings) (graph : Graph) : World :=
  { engine := .assemble settings graph, attachment := .bare }

/-- The world of a running engine. -/
def attached (settings : Settings) (graph : Graph) : Except ConfigError World :=
  (Engine.start settings graph).map fun engine => { engine, attachment := .running }

end SceneLocks.Simulation
