import SceneLocks.Proofs.Engine.Teardown

/-!
# Shutting down

A shutdown ends the grace periods, counts the locks that are left, and then waits for the
broadcaster, which it asked to stop. Other tasks may go on all the while, and after it. What they
queued before the broadcaster was asked to stop is handed out, what they queue once it has stopped
is dropped, and no timer that was started before ever does anything again (`clean_shutdown`).
-/

namespace SceneLocks

open Time

namespace Engine

theorem withDelivery_id (e : Engine) : e.withDelivery id = e := by
  unfold withDelivery
  split
  · rfl
  · next hb => simp [← hb]

theorem withDelivery_withDelivery (e : Engine) (f f' : Delivery → Delivery) :
    (e.withDelivery f).withDelivery f' = e.withDelivery (f' ∘ f) := by
  unfold withDelivery
  cases hb : e.broadcaster <;> simp [hb]

theorem withDelivery_congr {e : Engine} {f f' : Delivery → Delivery}
    (h : ∀ b, f ⟨b, e.locks.queue, e.mailboxes⟩ = f' ⟨b, e.locks.queue, e.mailboxes⟩) :
    e.withDelivery f = e.withDelivery f' := by
  unfold withDelivery
  split
  · rfl
  · next b _ => rw [h b]

end Engine

/-! ## The steps of a shutdown -/

namespace Teardown

/-- The supervisor ends all grace periods. -/
def endGraces (w : Teardown) : Teardown :=
  w.mapEngine fun e => { e with grace := e.grace.shutdown.1 }

/-- The locks that are left are counted. -/
def count (w : Teardown) : Teardown :=
  w.mapEngine fun e => { e with locks := (e.locks.read Table.size).1 }

/-- The broadcaster is asked to stop. -/
def request (w : Teardown) : Teardown := { w with stopping := true }

variable {w w' : Teardown}

theorem Sound.follows_endGraces (h : w.Sound) : w.Follows w.endGraces :=
  h.follows_silent ⟨rfl, rfl, rfl, rfl⟩ rfl

theorem Sound.follows_count (h : w.Sound) : w.Follows w.count :=
  h.follows_silent ⟨rfl, rfl, rfl, rfl⟩ (Locks.queue_enter _)

theorem Sound.follows_request (h : w.Sound) : w.Follows w.request :=
  h.follows_act .stop rfl rfl rfl rfl h.trap

/-- The locks, the editor locks and the sessions stay as they are. -/
structure Keeps (w w' : Teardown) : Prop where
  table : w'.engine.locks.table = w.engine.locks.table
  sessions : w'.engine.sessions = w.engine.sessions

theorem keeps_count (w : Teardown) : w.Keeps w.count := ⟨Locks.table_enter _, rfl⟩

theorem keeps_deliver (w : Teardown) : w.Keeps w.deliver := by
  constructor <;> rw [engine_deliver]
  · rw [Engine.table_withDelivery]
  · rw [Engine.sessions_withDelivery]

theorem keeps_leave (w : Teardown) : w.Keeps (w.perform .leave) := by
  rw [perform]
  split
  · exact ⟨w.engine.table_withDelivery _, w.engine.sessions_withDelivery _⟩
  · exact ⟨rfl, rfl⟩

/-- No move asks the broadcaster to stop. -/
theorem stopping_run (w : Teardown) (moves : List Move) : (w.run moves).stopping = w.stopping := by
  induction moves generalizing w with
  | nil => rfl
  | cons move moves ih =>
    refine (ih (w.perform move)).trans ?_
    cases move with
    | turn t => cases t <;> rfl
    | breakOff p n fault => rfl
    | leave =>
      rw [perform]
      split <;> rfl

/-! ## The broadcaster left to itself -/

theorem engine_run_deliver (w : Teardown) (n : Nat) :
    (w.run (List.replicate n (.turn .deliver))).engine =
      w.engine.withDelivery (·.steps w.engine.sessions w.stopping n) := by
  induction n generalizing w with
  | zero => exact w.engine.withDelivery_id.symm
  | succ n ih =>
    refine (ih w.deliver).trans ?_
    rw [engine_deliver, Engine.sessions_withDelivery, Engine.withDelivery_withDelivery]
    rfl

theorem Sound.relay_run_deliver (h : w.Sound) (n : Nat) :
    (w.run (List.replicate n (.turn .deliver))).relay =
      w.relay.run (List.replicate n .consume) := by
  induction n generalizing w with
  | zero => rfl
  | succ n ih =>
    refine (ih (h.of_follows h.follows_deliver)).trans ?_
    rw [h.relay_deliver.1]
    rfl

/-- Once it was asked to stop, the broadcaster does so after the steps that are left. -/
theorem Sound.stops (h : w.Sound) (hasked : w.stopping = true) {n : Nat}
    (hn : w.engine.locks.queue.pending.length + 2 ≤ n) :
    (w.run (List.replicate n (.turn .deliver))).delivery.broadcaster.phase = .stopped := by
  obtain ⟨added, hrelay, -⟩ := h.serves
  have hremaining := w.relay.delivery.remaining_le
  have hstopped := hrelay.phase_run_consume hasked (Nat.le_trans hremaining hn)
  rwa [← h.relay_run_deliver] at hstopped

theorem Sound.unbroken (h : w.Sound) : w.delivery.broadcaster.phase ≠ .failed := by
  obtain ⟨added, hrelay, -⟩ := h.serves
  exact hrelay.whole

/-- As long as the broadcaster was not asked to stop, the queue takes what it is given. -/
theorem Sound.isOpen (h : w.Sound) (hunasked : w.stopping = false) :
    w.engine.locks.queue.isOpen = true := by
  obtain ⟨added, hrelay, -⟩ := h.serves
  have hasked := mt hrelay.asked (by simp [relay, hunasked])
  exact hrelay.isOpen.2 (not_not.1 hasked)

/-- Nothing is left in the queue when the broadcaster has stopped, and nothing gets there. -/
theorem Sound.drained (h : w.Sound) (hstopped : w.delivery.broadcaster.phase = .stopped) :
    w.engine.locks.queue.pending = [] ∧ w.engine.locks.queue.isOpen = false := by
  obtain ⟨added, hrelay, -⟩ := h.serves
  refine ⟨hrelay.drained hstopped, Bool.eq_false_iff.2 fun hopen => ?_⟩
  exact absurd ((hrelay.isOpen.1 hopen).symm.trans hstopped) nofun

theorem Sound.committed_of_stopped (h : w.Sound)
    (hstopped : w.delivery.broadcaster.phase = .stopped) :
    w.committed = w.handedOut.map (·.2) := by
  rw [committed, (h.drained hstopped).1, List.append_nil]

/-- What got into the queue stays in the account. -/
theorem Follows.committed (h : w.Follows w') : w.committed <+: w'.committed := by
  obtain ⟨acts, hrun, -⟩ := h.acts
  have haccepted := Relay.accepted_run w.relay acts
  rwa [← hrun] at haccepted

/-- A broadcaster that has stopped hands nothing out any more, and nothing gets into its queue. -/
theorem Sound.stays_stopped (h : w.Sound) (hstopped : w.delivery.broadcaster.phase = .stopped)
    (moves : List Move) :
    (w.run moves).delivery.broadcaster.phase = .stopped ∧
      (w.run moves).handedOut = w.handedOut ∧ (w.run moves).committed = w.committed := by
  obtain ⟨acts, hrun, -⟩ := (h.follows_run moves).acts
  obtain ⟨hphase, hsame⟩ := Relay.run_of_stopped (r := w.relay) hstopped acts
  obtain ⟨-, haccepted⟩ := Relay.run_of_closed (r := w.relay) (h.drained hstopped).2 acts
  rw [← hrun] at hphase hsame haccepted
  exact ⟨hphase, hsame, haccepted⟩

/-! ## Before a shutdown -/

/-- What holds of an engine that was not asked to shut down. -/
structure Running (w : Teardown) : Prop where
  sound : w.Sound
  recorded : w.traffic.Recorded
  spent : w.traffic.Spent
  unasked : w.stopping = false

theorem running_run (settings : Settings) (graph : Graph) (moves : List Move) :
    ((start settings graph).run moves).Running where
  sound := (sound_start settings graph).run moves
  recorded := recorded_run (Traffic.recorded_start settings graph) moves
  spent := spent_run (Traffic.spent_start settings graph) moves
  unasked := stopping_run (start settings graph) moves

/-! ## Timers that were started before -/

/-- The user is in the grace period: a timer of theirs stands. -/
def InGrace (w : Teardown) (user : User) : Prop :=
  ∃ t, t.user = user ∧ Standing w.traffic.past t

/-- After the shutdown of the supervisor no timer finds a record that was started before. -/
theorem not_registered_of_later (hspent : w.traffic.Spent) {t : GraceTimer}
    (hstarted : w.traffic.Started t) {g : Grace} (hlater : w.endGraces.engine.grace.Later g) :
    ¬ g.Registered t := by
  intro hregistered
  rcases hlater.registered t hregistered with ⟨p, hp, -⟩ | hnew
  · simp [endGraces, mapEngine, engine, Grace.shutdown] at hp
  · exact Nat.lt_irrefl _ (Nat.lt_of_lt_of_le hnew (hspent t hstarted))

/-- Those whose grace period is ended are the users who are in one. -/
theorem mem_pending_iff (hrecorded : w.traffic.Recorded) (user : User) :
    user ∈ w.engine.grace.pending.keys ↔ w.InGrace user := by
  rw [Std.ExtTreeMap.mem_keys, Std.ExtTreeMap.mem_iff_isSome_getElem?, Option.isSome_iff_exists]
  constructor
  · rintro ⟨p, hp⟩
    exact ⟨⟨user, p.generation⟩, rfl, (hrecorded.registered _).1 ⟨p, hp, rfl⟩⟩
  · rintro ⟨t, rfl, hstanding⟩
    obtain ⟨p, hp, -⟩ := (hrecorded.registered t).2 hstanding
    exact ⟨p, hp⟩

end Teardown

/-! ## A shutdown among other tasks -/

open Teardown

/-- A shutdown, and what else happens meanwhile. -/
structure Shutdown where
  /-- The state in which it is called for. -/
  called : Teardown
  /-- After the grace periods are ended and before the locks are counted. -/
  first : List Move := []
  /-- Then, before the broadcaster is asked to stop. -/
  second : List Move := []
  /-- From then on. -/
  third : List Move

namespace Shutdown

variable (d : Shutdown)

/-- When the locks are counted. -/
def beforeCount : Teardown := d.called.endGraces.run d.first

/-- When the broadcaster is asked to stop. -/
def beforeStop : Teardown := d.beforeCount.count.run d.second

def after : Teardown := d.beforeStop.request.run d.third

/-- What is reported when the wait for the broadcaster is over. -/
def report : ShutdownReport :=
  let cancelled := d.called.engine.grace.shutdown.2
  let held := (d.beforeCount.engine.locks.read Table.size).2
  match d.after.engine.broadcaster with
  | some ⟨.failed, _, _⟩ => { cancelled, held, warnings := [Engine.broadcasterWarning] }
  | some b => { cancelled, held, flushed := b.flushed }
  | none => { cancelled, held }

/-- The broadcaster has stopped, and the wait for it is over. -/
def Over : Prop := d.after.delivery.broadcaster.phase = .stopped

/-- A shutdown during which nothing else happens. -/
def alone (w : Teardown) : Shutdown where
  called := w
  third := List.replicate (w.engine.locks.queue.pending.length + 2) (.turn .deliver)

/-! ## From call to end -/

variable {d}

theorem sound_beforeCount (h : d.called.Sound) : d.beforeCount.Sound :=
  (h.of_follows h.follows_endGraces).run d.first

theorem sound_beforeStop (h : d.called.Sound) : d.beforeStop.Sound :=
  have hcount := sound_beforeCount h
  (hcount.of_follows hcount.follows_count).run d.second

theorem follows_after (h : d.called.Sound) : d.beforeStop.Follows d.after :=
  have hrequest := (sound_beforeStop h).follows_request
  hrequest.trans (((sound_beforeStop h).of_follows hrequest).follows_run d.third)

theorem sound_after (h : d.called.Sound) : d.after.Sound :=
  (sound_beforeStop h).of_follows (follows_after h)

theorem later_beforeCount (d : Shutdown) :
    d.called.endGraces.engine.grace.Later d.beforeCount.engine.grace :=
  later_run d.called.endGraces d.first

theorem later_beforeStop (d : Shutdown) :
    d.called.endGraces.engine.grace.Later d.beforeStop.engine.grace :=
  d.later_beforeCount.trans (later_run d.beforeCount.count d.second)

theorem later_after (d : Shutdown) :
    d.called.endGraces.engine.grace.Later d.after.engine.grace :=
  d.later_beforeStop.trans (later_run d.beforeStop.request d.third)

theorem report_of_unbroken (h : d.after.Sound) :
    d.report =
      { cancelled := d.called.engine.grace.pending.size
        held := d.beforeCount.engine.locks.table.size
        flushed := d.after.delivery.broadcaster.flushed } := by
  obtain ⟨⟨phase, processed, flushed⟩, hb⟩ := Option.isSome_iff_exists.1 h.consumer
  have hunbroken := h.unbroken
  unfold report
  simp only [delivery, hb, Option.getD_some] at hunbroken ⊢
  cases phase with
  | failed => exact absurd rfl hunbroken
  | _ => rfl

theorem engine_alone (w : Teardown) : (alone w).after.engine =
    ({ w.engine with
        grace := w.engine.grace.shutdown.1
        locks := (w.engine.locks.read Table.size).1 } : Engine).withDelivery
      (·.finish w.engine.sessions) := by
  have hrun := engine_run_deliver w.endGraces.count.request
    (w.engine.locks.queue.pending.length + 2)
  refine hrun.trans (Engine.withDelivery_congr fun b => ?_)
  -- counting leaves the queue as it was when the shutdown was called for
  have hqueue : w.endGraces.count.request.engine.locks.queue = w.engine.locks.queue :=
    Locks.queue_enter _
  rw [Delivery.finish, hqueue]
  rfl

/-- Nothing else happens when the engine shuts down by itself. -/
theorem shutdown_eq {w : Teardown}
    (hunbroken : (alone w).after.delivery.broadcaster.phase ≠ .failed) :
    w.engine.shutdown = ((alone w).after.engine, (alone w).report) := by
  unfold Engine.shutdown
  simp only [← engine_alone]
  unfold report
  unfold delivery at hunbroken
  cases hb : (alone w).after.engine.broadcaster with
  | none => rfl
  | some b =>
    obtain ⟨phase, processed, flushed⟩ := b
    rw [hb] at hunbroken
    cases phase with
    | failed => exact absurd rfl hunbroken
    | _ => rfl

/-! ## Clean shutdowns -/

/-- The list has each of these values once. -/
def Lists {α : Type} (l : List α) (P : α → Prop) : Prop := l.Nodup ∧ ∀ x, x ∈ l ↔ P x

/-- A call does and answers what it would with an open queue, and leaves the queue alone. -/
structure Unhindered (l : Locks) (c : Call) : Prop where
  reply : (c.perform l).2 = (c.perform { l with queue := {} }).2
  table : (c.perform l).1.table = (c.perform { l with queue := {} }).1.table
  queue : (c.perform l).1.queue = l.queue
  unbroken : (c.perform l).2 ≠ .broken ∧ ∀ reason, (c.perform l).2 ≠ .failed (.broken reason)

theorem unhindered_of_closed {l : Locks} (h : l.queue.isOpen = false) (c : Call) :
    Unhindered l c := by
  have hcomes := Call.comesTo_perform (l := l) (by simp [Queue.trap?, h]) c
  have hopen := Call.comesTo_perform (l := { l with queue := {} }) rfl c
  refine ⟨hcomes.reply.trans hopen.reply.symm, hcomes.table.trans hopen.table.symm, ?_, ?_⟩
  · rw [hcomes.queue, Queue.push_of_not_isOpen h]
  · rw [hcomes.reply]
    exact c.reply_outcome_ne_broken l.table

theorem lists_pending {w : Teardown} (h : w.traffic.Recorded) :
    Lists w.engine.grace.pending.keys w.InGrace :=
  ⟨Std.ExtTreeMap.nodup_keys, mem_pending_iff h⟩

theorem lists_entries (t : Table) : Lists t.entries.keys fun r => (t.lookup? r).isSome := by
  refine ⟨Std.ExtTreeMap.nodup_keys, fun r => ?_⟩
  rw [Std.ExtTreeMap.mem_keys, Std.ExtTreeMap.mem_iff_isSome_getElem?]
  rfl

/-- What is to be said of a shutdown. -/
structure Clean (d : Shutdown) : Prop where
  /-- The report counts the users in their grace period and the locked resources, and warns of
  nothing. -/
  report : ∃ users resources, Lists users d.called.InGrace ∧
    Lists resources (fun r => (d.beforeCount.engine.locks.table.lookup? r).isSome) ∧
    d.report =
      { cancelled := users.length, held := resources.length,
        flushed := d.after.delivery.broadcaster.flushed, warnings := [] }
  /-- The wait for the broadcaster comes to an end. -/
  ends : ∀ n, d.after.engine.locks.queue.pending.length + 2 ≤ n →
    (d.after.run (List.replicate n (.turn .deliver))).delivery.broadcaster.phase = .stopped
  /-- No step of the shutdown and no step of the broadcaster touches locks or sessions. -/
  keeps : d.called.Keeps d.called.endGraces ∧ d.beforeCount.Keeps d.beforeCount.count ∧
    d.beforeStop.Keeps d.beforeStop.request ∧
    ∀ moves, let w := d.beforeStop.request.run moves
      w.Keeps w.deliver ∧ w.Keeps (w.perform .leave)
  /-- Until the broadcaster is asked to stop, the queue takes whatever is announced. -/
  admitted : d.beforeStop.engine.locks.queue.isOpen = true
  /-- Whatever it took by then was handed out when the shutdown is over, in the order of the
  queue. -/
  dispatched : d.Over → d.beforeStop.committed <+: d.after.handedOut.map (·.2)
  /-- What is handed out reaches those in its audience who are registered and still listen. -/
  received : ∀ c, d.after.engine.mailboxes.accepts c →
    d.after.engine.mailboxes.unread c = d.after.relay.due c
  /-- A timer that was started before has no effect, whenever it fires. -/
  skips : ∀ t, d.called.traffic.Started t →
    d.beforeCount.engine.reclaim t = d.beforeCount.engine ∧
    d.beforeStop.engine.reclaim t = d.beforeStop.engine ∧
    ∀ more, (d.after.run more).engine.reclaim t = (d.after.run more).engine
  /-- Nothing is delivered afterwards, and nobody minds. -/
  silent : d.Over → ∀ more, let w := d.after.run more
    w.delivery.broadcaster.phase = .stopped ∧ w.handedOut = d.after.handedOut ∧
      w.committed = d.after.committed ∧ ∀ c, Unhindered w.engine.locks c
  /-- If nothing else happens, this is how the engine shuts down. -/
  uninterrupted :
    d.called.engine.shutdown = ((alone d.called).after.engine, (alone d.called).report)

theorem clean_of_running (h : d.called.Running) : d.Clean := by
  have hafter := sound_after h.sound
  constructor
  case report =>
    refine ⟨_, _, lists_pending h.recorded, lists_entries _, ?_⟩
    rw [report_of_unbroken hafter, Std.ExtTreeMap.length_keys, Std.ExtTreeMap.length_keys]
    rfl
  case ends =>
    have hasked : d.after.stopping = true := stopping_run d.beforeStop.request d.third
    exact fun n hn => hafter.stops hasked hn
  case keeps =>
    exact ⟨⟨rfl, rfl⟩, keeps_count _, ⟨rfl, rfl⟩, fun moves => ⟨keeps_deliver _, keeps_leave _⟩⟩
  case admitted =>
    have hunasked : d.beforeStop.stopping = false := by
      rw [beforeStop, stopping_run]
      exact (stopping_run d.called.endGraces d.first).trans h.unasked
    exact (sound_beforeStop h.sound).isOpen hunasked
  case dispatched =>
    -- nothing is left in the queue, so what was committed has been handed out
    intro hover
    have hcommitted := (follows_after h.sound).committed
    rwa [hafter.committed_of_stopped hover] at hcommitted
  case received =>
    intro c haccepts
    obtain ⟨added, hrelay, -⟩ := hafter.serves
    exact hrelay.received c haccepts
  case skips =>
    -- every later record has a generation that no timer from before was given
    intro t hstarted
    have hskips : ∀ e : Engine, d.called.endGraces.engine.grace.Later e.grace → e.reclaim t = e :=
      fun e hlater =>
        Engine.reclaim_of_not_registered (not_registered_of_later h.spent hstarted hlater)
    refine ⟨hskips _ d.later_beforeCount, hskips _ d.later_beforeStop, fun more => ?_⟩
    exact hskips _ (d.later_after.trans (later_run d.after more))
  case silent =>
    intro hover more w
    obtain ⟨hphase, hhandedOut, hcommitted⟩ := hafter.stays_stopped hover more
    have hclosed := ((hafter.run more).drained hphase).2
    exact ⟨hphase, hhandedOut, hcommitted, unhindered_of_closed hclosed⟩
  case uninterrupted =>
    have halone : (alone d.called).after.Sound := sound_after (d := alone d.called) h.sound
    exact shutdown_eq halone.unbroken

/-- Whenever a running engine shuts down, and whatever else happens meanwhile and afterwards, the
shutdown is clean. -/
theorem clean_shutdown (settings : Settings) (graph : Graph)
    (before first second third : List Move) :
    Clean { called := (start settings graph).run before, first, second, third } :=
  clean_of_running (running_run settings graph before)

/-- Alice has a lock, of which the broadcaster has not heard yet, and left. -/
def aliceLeft : List Move :=
  let desk : ConnectionId := ⟨"desk", 0⟩
  let g := Graph.withRoots.insert "ap_1" (some Resource.project)
  [.turn (.connect "desk"), .turn (.login desk "alice"),
    .turn (.proceed 0 (.inform 0 ⟨.connected, "alice", some desk⟩)),
    .turn (.call (.lock g 0 "ap_1" "alice" false)), .turn (.disconnect desk),
    .turn (.proceed 0 (.inform 1 ⟨.disconnected, "alice", none⟩))]

example : ((start {} .withRoots).run aliceLeft).engine.shutdown.2 =
    { cancelled := 1, held := 1 } := by decide +kernel

end Shutdown

end SceneLocks
