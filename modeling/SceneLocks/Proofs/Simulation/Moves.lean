import SceneLocks.Proofs.Locks.Runs
import SceneLocks.Proofs.Session.Sessions
import SceneLocks.Simulation.Run

/-!
# Moves of a running world

What can happen next while an engine runs: a call on the engine or on its locks, the broadcaster
at work, an appointment that comes to pass, or time going on up to the next appointment. A
chronicle keeps, beside the world, what was reported of the sessions and which users lost their
locks. Most moves leave time, sessions and grace periods alone (`Aside`).
-/

namespace SceneLocks

open Time

/-! ## The clock -/

namespace Time

theorem Runtime.le_wakeTick (r : Runtime) (now : Nat) (d : Duration) : now ≤ r.wakeTick now d := by
  simp only [Runtime.wakeTick, Instant.tick, Instant.ofTick, millisecond]
  omega

theorem Instant.eq_of_after? {now deadline : Instant} {d : Duration}
    (h : now.after? d = some deadline) : deadline = now + d.nanos := by
  unfold Instant.after? at h
  split at h
  · exact (Option.some.inj h).symm
  · cases h

end Time

/-! ## The broadcaster -/

namespace Delivery

theorem trap_step {d : Delivery} (h : d.queue.trap = none) (s : Sessions) (stopping : Bool) :
    (d.step s stopping).queue.trap = none := by
  unfold step dispatch
  split
  · split <;> simp [Queue.close, h]
  · split <;> simp [Queue.close, h]
  · split <;> simp [Queue.close, h]
  · exact h
  · exact h
  · exact h

theorem trap_steps {d : Delivery} (h : d.queue.trap = none) (s : Sessions) (stopping : Bool)
    (n : Nat) : (d.steps s stopping n).queue.trap = none := by
  induction n generalizing d with
  | zero => exact h
  | succ n ih => exact ih (trap_step h s stopping)

end Delivery

/-! ## Disconnects -/

namespace Engine

variable {e : Engine} {c : ConnectionId} {s : Sessions}

theorem disconnect_of_error {err : SessionError} (now : Instant)
    (h : e.sessions.logout c = .error err) : e.disconnect now c = (e, .refused err) := by
  simp [disconnect, leaveSession, h]

theorem disconnect_of_nobody (now : Instant) (h : e.sessions.logout c = .ok (s, none)) :
    e.disconnect now c = ({ e with sessions := s }, .nobody) := by
  simp [disconnect, leaveSession, h]

/-- Of a user who was logged in the grace period starts. -/
theorem disconnect_of_logout {now : Instant} {event : SessionEvent} {grace : Grace}
    {timer : Option GraceTimer} (h : e.sessions.logout c = .ok (s, some event))
    (hgrace : e.grace.onDisconnect now event.user = (grace, timer)) :
    e.disconnect now c = ({ e with sessions := s, grace }, .left event (.ofTimer timer)) := by
  have hkind := ((Sessions.loggedOut_of_logout h).kind event rfl).1
  simp [disconnect, leaveSession, h, follow, hkind, startGrace, hgrace]

end Engine

namespace Simulation

/-! ## Moves -/

/-- What happened to a user. -/
inductive Happening where
  /-- A session event was reported. -/
  | reported (kind : SessionEventKind)
  /-- The user's locks were taken away. -/
  | reclaimed
deriving DecidableEq

/-- What happened to a user, and when. -/
structure Note where
  tick : Nat
  user : User
  what : Happening
deriving DecidableEq

/-- A world with all that happened to its users, newest first. -/
structure Chronicle where
  world : World
  notes : List Note := []

/-- What can happen next. -/
inductive Move where
  | connect (label : String)
  | login (c : ConnectionId) (user : User)
  | disconnect (c : ConnectionId)
  | call (c : Call)
  | schedule (tick : Nat) (t : Task)
  | remould (g : Graph)
  | handOver
  /-- An appointment comes to pass. -/
  | act (p : Appointment)
  /-- Time goes on. -/
  | elapse (tick : Nat)

/-- What a step reports of the sessions. The registry has reported a user gone before the
disconnect breaks off. -/
def Answer.note? (tick : Nat) : Answer → Option Note
  | .sessionEvent (some e) | .brokeOff (some e) => some ⟨tick, e.user, .reported e.kind⟩
  | _ => none

/-- What an activity means for a user's locks. -/
def Activity.note? (w : World) : Activity → Option Note
  | .grace t => (w.engine.grace.claim? t).map fun _ => ⟨w.now, t.user, .reclaimed⟩
  | .task _ => none

namespace Chronicle

/-- Notes what a step reports. -/
def hear (c : Chronicle) (outcome : World × Answer) : Chronicle :=
  { world := outcome.1, notes := (outcome.2.note? c.world.now).toList ++ c.notes }

/-- The state after a move. An appointment comes to pass when its tick is there, and time does
not go beyond an appointment that has not come to pass. -/
def perform (c : Chronicle) : Move → Chronicle
  | .connect label => { c with world := c.world.connect label }
  | .login connection user => c.hear (c.world.login connection user)
  | .disconnect connection => c.hear (c.world.disconnect connection)
  | .call call => { c with world := (c.world.withLocks (Call.perform · call)).1 }
  | .schedule tick t => { c with world := c.world.schedule (max c.world.now tick) t }
  | .remould graph => { c with world.engine.graph := graph }
  | .handOver => { c with world := c.world.settleQueue }
  | .act p =>
    if p ∈ c.world.agenda ∧ p.tick ≤ c.world.now then
      let world := { c.world with agenda := c.world.agenda.erase p }
      { world := world.perform p.activity, notes := (p.activity.note? world).toList ++ c.notes }
    else c
  | .elapse tick =>
    if ∀ p ∈ c.world.agenda, tick ≤ p.tick then
      { c with world.now := max c.world.now tick }
    else c

/-- The state after some moves. -/
def run (c : Chronicle) (moves : List Move) : Chronicle := moves.foldl perform c

/-- A running engine to which nothing happened yet. -/
def start (runtime : Runtime) (settings : Settings) (graph : Graph) : Chronicle :=
  { world :=
      { engine := { Engine.assemble settings graph with broadcaster := some {} }
        attachment := .running
        runtime } }

/-- An engine that starts at all starts like this. -/
theorem start_of_attached {settings : Settings} {graph : Graph} {w : World}
    (h : attached settings graph = .ok w) : start {} settings graph = { world := w } := by
  unfold attached Engine.start at h
  cases hvalid : settings.validate with
  | error e => simp [hvalid, Except.map] at h
  | ok =>
    rw [hvalid] at h
    exact congrArg (Chronicle.mk · []) (Except.ok.inj h)

end Chronicle

/-! ## Beside the sessions -/

theorem Agenda.mem_add {a : Agenda} {tick : Nat} {activity : Activity} {p : Appointment} :
    p ∈ a.add tick activity ↔ p = ⟨tick, activity⟩ ∨ p ∈ a := by
  unfold Agenda.add
  rw [List.mem_append, List.mem_cons, or_left_comm, ← List.mem_append,
    List.takeWhile_append_dropWhile]

/-- The locks were worked on: it is not later, sessions and grace periods are as they were, and
the agenda has only gained tasks. -/
structure World.Aside (w w' : World) : Prop where
  attachment : w'.attachment = w.attachment
  runtime : w'.runtime = w.runtime
  now : w'.now = w.now
  sessions : w'.engine.sessions = w.engine.sessions
  connected : w'.engine.connected = w.engine.connected
  grace : w'.engine.grace = w.engine.grace
  trap : w.engine.locks.queue.trap = none → w'.engine.locks.queue.trap = none
  kept : ∀ p ∈ w.agenda, p ∈ w'.agenda
  added : ∀ p ∈ w'.agenda, p ∈ w.agenda ∨ (w.now ≤ p.tick ∧ ∃ t, p.activity = .task t)

namespace World

theorem aside_rfl (w : World) : w.Aside w :=
  ⟨rfl, rfl, rfl, rfl, rfl, rfl, id, fun _ => id, fun _ => .inl⟩

theorem Aside.trans {w w' w'' : World} (h : w.Aside w') (h' : w'.Aside w'') : w.Aside w'' where
  attachment := h'.attachment.trans h.attachment
  runtime := h'.runtime.trans h.runtime
  now := h'.now.trans h.now
  sessions := h'.sessions.trans h.sessions
  connected := h'.connected.trans h.connected
  grace := h'.grace.trans h.grace
  trap := h'.trap ∘ h.trap
  kept p hp := h'.kept p (h.kept p hp)
  added p hp := by
    rcases h'.added p hp with hp | ⟨htick, htask⟩
    · exact h.added p hp
    · exact .inr ⟨h.now ▸ htick, htask⟩

theorem aside_withLocks {α : Type} {w : World} {f : Locks → Locks × α}
    (hf : w.engine.locks.queue.trap = none → (f w.engine.locks).1.queue.trap = none) :
    w.Aside (w.withLocks f).1 :=
  ⟨rfl, rfl, rfl, rfl, rfl, rfl, hf, fun _ => id, fun _ => .inl⟩

theorem aside_call (w : World) (c : Call) : w.Aside (w.withLocks (Call.perform · c)).1 :=
  aside_withLocks fun htrap => Call.trap_perform htrap c

theorem aside_drop (w : World) (h : Holding) : w.Aside (w.drop h) := by
  refine aside_withLocks fun htrap => ?_
  rcases h with h | h
  · exact htrap
  · exact (Locks.enters_release w.engine.locks h).trap htrap

theorem aside_attempt (w : World) (a : Acquisition) : w.Aside (w.attempt a).1 :=
  aside_withLocks fun htrap => (Locks.enters_attempt w.engine.locks w.now a).trap htrap

theorem aside_finish (w : World) (name : String) (outcome : Outcome) :
    w.Aside (w.finish name outcome) :=
  ⟨rfl, rfl, rfl, rfl, rfl, rfl, id, fun _ => id, fun _ => .inl⟩

theorem aside_schedule {w : World} {tick : Nat} (htick : w.now ≤ tick) (t : Task) :
    w.Aside (w.schedule tick t) where
  attachment := rfl
  runtime := rfl
  now := rfl
  sessions := rfl
  connected := rfl
  grace := rfl
  trap := id
  kept _ hp := Agenda.mem_add.2 (.inr hp)
  added p hp := by
    rcases Agenda.mem_add.1 hp with rfl | hp
    · exact .inr ⟨htick, t, rfl⟩
    · exact .inl hp

theorem aside_settleQueue (w : World) : w.Aside w.settleQueue := by
  unfold settleQueue Engine.settleQueue Engine.withDelivery
  split
  · exact aside_rfl w
  · exact ⟨rfl, rfl, rfl, rfl, rfl, rfl, fun htrap => Delivery.trap_steps htrap _ _ _, fun _ => id,
      fun _ => .inl⟩

/-! ### Tasks -/

theorem aside_taskGranted (w : World) (t : Task) (h : Handle) : w.Aside (w.taskGranted t h) := by
  unfold taskGranted
  split
  · exact aside_finish w _ _
  · exact aside_schedule (w.runtime.le_wakeTick _ _) _

theorem aside_taskWaits (w : World) (t : Task) (a : Acquisition) (wait : Duration) :
    w.Aside (w.taskWaits t a wait) :=
  aside_schedule (w.runtime.le_wakeTick _ _) _

theorem aside_taskGoesOn (t : Task) (n : Nat) (w : World) (p : Progress) :
    w.Aside (taskGoesOn t n w p) := by
  -- the number bounds the attempts that follow at once, without any sleep in between
  induction n generalizing w p with
  | zero =>
    cases p with
    | granted h => exact aside_taskGranted w t h
    | failed e => exact aside_finish w _ _
    | waiting next e =>
      unfold taskGoesOn
      split
      · exact aside_finish w _ _
      · split
        · exact aside_finish w _ _
        · exact aside_taskWaits w t next _
  | succ n ih =>
    cases p with
    | granted h => exact aside_taskGranted w t h
    | failed e => exact aside_finish w _ _
    | waiting next e =>
      unfold taskGoesOn
      split
      · exact aside_finish w _ _
      · split
        · exact (aside_attempt w next).trans (ih _ _)
        · exact aside_taskWaits w t next _

theorem aside_taskEnds (w : World) (t : Task) (h : Handle) : w.Aside (w.taskEnds t h) := by
  have hdropped (outcome : Outcome) : w.Aside ((w.drop (.scoped h)).finish t.name outcome) :=
    (aside_drop w (.scoped h)).trans (aside_finish _ _ _)
  unfold taskEnds
  split
  · exact hdropped .succeeded
  · exact hdropped .succeeded
  · have hrelease : w.Aside (w.withLocks (·.release h)).1 :=
      aside_withLocks fun htrap => (Locks.enters_release w.engine.locks h).trap htrap
    split
    · next heq => exact (heq ▸ hrelease).trans (aside_finish _ _ _)
    · next heq => exact (heq ▸ hrelease).trans (aside_finish _ _ _)
  · exact hdropped .brokeOff

theorem aside_runTask (w : World) (t : Task) : w.Aside (w.runTask t) := by
  unfold runTask taskAttempts
  split
  · split
    · exact aside_finish w _ _
    · exact (aside_attempt w _).trans (aside_taskGoesOn _ _ _ _)
  · exact (aside_attempt w _).trans (aside_taskGoesOn _ _ _ _)
  · exact aside_taskEnds w t _

end World

/-! ## Sessions -/

namespace World

/-- A login fails, or it is reported, ends the user's grace period and tells what is locked. -/
theorem login_of_running {w : World} (hrunning : w.attachment = .running) (c : ConnectionId)
    (user : User) :
    (∃ e, w.login c user = (w, .failure (.session e))) ∨
    ∃ s event, w.engine.sessions.LoggedIn c user s event ∧
      w.login c user =
        ({ w with
            engine.sessions := s
            engine.grace := (w.engine.grace.onConnect user).1
            engine.locks := (w.engine.locks.replay c user).1 },
          .sessionEvent (some event)) := by
  unfold World.login Engine.login Engine.enterSession
  rw [if_pos hrunning]
  cases hlogin : w.engine.sessions.login c user with
  | error e => exact .inl ⟨e, rfl⟩
  | ok result =>
    obtain ⟨s, event⟩ := result
    have hloggedIn := Sessions.loggedIn_of_login hlogin
    -- the supervisor makes no difference between a new user and one who came back
    refine .inr ⟨s, event, hloggedIn, ?_⟩
    rcases hloggedIn.kind with ⟨hkind, -⟩ | ⟨hkind, -⟩ <;>
      simp [Engine.follow, Engine.endGrace, Engine.replay, hkind, hloggedIn.names.1]

/-- The world once a user has left: the grace periods as they are then, and the timer started. -/
def leave (w : World) (s : Sessions) (grace : Grace) (timer : Option GraceTimer) : World :=
  { w with engine := { w.engine with sessions := s, grace } }.startTimer timer

/-- The answer when a user leaves. Without a timer the disconnect broke off. -/
def departed (event : SessionEvent) : Option GraceTimer → Answer
  | some _ => .sessionEvent (some event)
  | none => .brokeOff (some event)

/-- The registry has reported the event in both cases. -/
theorem note?_departed (tick : Nat) (event : SessionEvent) (timer : Option GraceTimer) :
    (departed event timer).note? tick = some ⟨tick, event.user, .reported event.kind⟩ := by
  cases timer <;> rfl

/-- A disconnect fails, or nobody was logged in, or the user's grace period starts; without a
timer, that broke the disconnect off. -/
theorem disconnect_of_running {w : World} (hrunning : w.attachment = .running)
    (c : ConnectionId) :
    (∃ e, w.disconnect c = (w, .failure (.session e))) ∨
    (∃ s, w.engine.sessions.LoggedOut c s none ∧
      w.disconnect c = ({ w with engine.sessions := s }, .sessionEvent none)) ∨
    ∃ s event grace timer, w.engine.sessions.LoggedOut c s (some event) ∧
      w.engine.grace.onDisconnect w.instant event.user = (grace, timer) ∧
      w.disconnect c = (w.leave s grace timer, departed event timer) := by
  unfold World.disconnect
  rw [if_pos hrunning]
  cases hlogout : w.engine.sessions.logout c with
  | error e =>
    refine .inl ⟨e, ?_⟩
    simp only [Engine.disconnect_of_error w.instant hlogout]
  | ok result =>
    obtain ⟨s, event⟩ := result
    have hloggedOut := Sessions.loggedOut_of_logout hlogout
    cases event with
    | none =>
      refine .inr (.inl ⟨s, hloggedOut, ?_⟩)
      simp only [Engine.disconnect_of_nobody w.instant hlogout]
    | some event =>
      -- its result gets a name, so that nothing ever evaluates the deadline
      rcases hgrace : w.engine.grace.onDisconnect w.instant event.user with ⟨grace, timer⟩
      refine .inr (.inr ⟨s, event, grace, timer, hloggedOut, hgrace, ?_⟩)
      simp only [Engine.disconnect_of_logout hlogout hgrace]
      cases timer <;> rfl

end World

end Simulation

end SceneLocks
