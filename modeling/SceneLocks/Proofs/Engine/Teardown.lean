import SceneLocks.Proofs.Engine.Delivery
import SceneLocks.Proofs.Engine.Overtaking
import SceneLocks.Proofs.Locks.Rollback
import SceneLocks.Proofs.Session.Broadcasting

/-!
# An engine whose broadcaster may be asked to stop

Calls, timers and the broadcaster go on side by side, critical sections may break off, and at some
time somebody asks the broadcaster to stop. What the broadcaster sees of all that are acts of a
relay (`Sound.follows_run`), and a timer whose record is gone never finds one again
(`later_run`).
-/

namespace SceneLocks

open Time

/-! ## What is queued -/

theorem Queue.disarm_of_trap_eq_none {q : Queue} (h : q.trap = none) : q.disarm = q := by
  cases q
  simp_all [disarm]

theorem Locks.Enters.queue {l l' : Locks} {p : Plan} {ok : Bool} (h : l.Enters p l' ok)
    (htrap : l.queue.trap? = none) : ∃ ns, l'.queue = l.queue.push ns := by
  have htransact := transact_of_trap?_eq_none htrap (p.edits ·)
  rw [h.1.2]
  split at htransact
  · exact ⟨[], by simp [htransact]⟩
  · next s _ => exact ⟨s.events.map (⟨.all, ·⟩), by simp [htransact, perform, Queue.broadcast]⟩

/-- What a section announced before it breaks off stays in the queue. -/
theorem Step.queue_breakOff {l : Locks} (htrap : l.queue.trap = none) (p : Plan) (n : Nat)
    (fault : Fault) : ∃ ns, ((Step.breakOff p n fault).perform l).queue = l.queue.push ns := by
  simp only [Step.perform]
  split
  · exact ⟨[], by simp⟩
  · next s _ =>
    obtain ⟨events, hqueue⟩ := (Locks.brokeOff_rollBack l s n fault).queue
    refine ⟨events.map (⟨.all, ·⟩), hqueue.trans ?_⟩
    exact Queue.disarm_of_trap_eq_none (by simp [Queue.broadcast, htrap])

/-- A step hands out what it takes off the queue, and sets no trap. -/
theorem Delivery.Steps.queue {d d' : Delivery} {s : Sessions} {stopping : Bool}
    (h : d.Steps s stopping d') : d.queue.pending = d.next?.toList ++ d'.queue.pending ∧
      (d.queue.trap = none → d'.queue.trap = none) := by
  cases h with
  | handsOut active pending => exact ⟨by simp [next?, active, pending, handOut], id⟩
  | shuts running pending asked =>
    exact ⟨by simp [next?, pending, shut, Queue.close], fun _ => rfl⟩
  | stops flushing pending => exact ⟨by simp [next?, pending], id⟩
  | waits running pending unasked => exact ⟨by simp [next?, pending], id⟩
  | rests inactive => exact ⟨by simp [next?, inactive], id⟩

/-! ## States and moves -/

/-- An engine with the calls under way, and with what its broadcaster was asked and did. -/
structure Teardown where
  traffic : Traffic
  /-- Whether the broadcaster was asked to stop. -/
  stopping : Bool := false
  /-- What was handed out, each with the sessions of that moment. -/
  handedOut : List (Sessions × Notification) := []

namespace Teardown

/-- A running engine on which nobody called yet. -/
def start (settings : Settings) (graph : Graph) : Teardown := { traffic := .start settings graph }

/-- What can happen next. -/
inductive Move where
  | turn (t : Turn)
  /-- A critical section breaks off after some of its edits. -/
  | breakOff (p : Plan) (n : Nat) (fault : Fault)
  /-- The broadcaster follows the request to stop, though something got into the queue since it
  looked. -/
  | leave

/-- The engine of the moment. -/
def engine (w : Teardown) : Engine := w.traffic.engine

/-- Changes the engine. -/
def mapEngine (f : Engine → Engine) (w : Teardown) : Teardown :=
  { w with traffic := { w.traffic with engine := f w.traffic.engine } }

/-- The broadcaster with what it works on. -/
def delivery (w : Teardown) : Delivery :=
  ⟨w.engine.broadcaster.getD {}, w.engine.locks.queue, w.engine.mailboxes⟩

/-- All that got into the queue so far, in this order: it was handed out, or it is still there. -/
def committed (w : Teardown) : List Notification :=
  w.handedOut.map (·.2) ++ w.engine.locks.queue.pending

/-- The broadcaster makes a step. -/
def deliver (w : Teardown) : Teardown :=
  { w.mapEngine (·.withDelivery (·.step w.engine.sessions w.stopping)) with
    handedOut := w.handedOut ++ (w.delivery.next?.map (w.engine.sessions, ·)).toList }

/-- The state after a move. -/
def perform (w : Teardown) : Move → Teardown
  | .turn .deliver => w.deliver
  | .turn t => { w with traffic := w.traffic.take t }
  | .breakOff p n fault =>
    w.mapEngine fun e => { e with locks := (Step.breakOff p n fault).perform e.locks }
  | .leave =>
    if w.stopping ∧ w.delivery.broadcaster.phase = .running then
      w.mapEngine (·.withDelivery (·.shut))
    else w

/-- The state after some moves. -/
def run (w : Teardown) (moves : List Move) : Teardown := moves.foldl perform w

/-- What the broadcaster sees of the engine. -/
def relay (w : Teardown) : Relay where
  delivery := w.delivery
  sessions := w.engine.sessions
  stopping := w.stopping
  accepted := w.committed
  handedOut := w.handedOut

variable {w w' w'' : Teardown}

/-! ## Seen from the broadcaster -/

/-- What the broadcaster sees of what went on between two states are acts of a relay, which add
only connections that were not there before. -/
structure Follows (w w' : Teardown) : Prop where
  acts : ∃ acts, w'.relay = w.relay.run acts ∧ (acts.filterMap Relay.Act.added?).Nodup ∧
    ∀ c ∈ acts.filterMap Relay.Act.added?,
      w.engine.connected ≤ c.serial ∧ c.serial < w'.engine.connected
  connected : w.engine.connected ≤ w'.engine.connected
  consumer : w'.engine.broadcaster.isSome
  trap : w'.engine.locks.queue.trap = none

theorem Follows.trans (h : w.Follows w') (h' : w'.Follows w'') : w.Follows w'' where
  acts := by
    obtain ⟨acts, hrun, hfresh, hnew⟩ := h.acts
    obtain ⟨acts', hrun', hfresh', hnew'⟩ := h'.acts
    refine ⟨acts ++ acts', ?_, ?_, fun c hc => ?_⟩
    · rw [hrun', hrun, Relay.run, Relay.run, Relay.run, List.foldl_append]
    · rw [List.filterMap_append]
      refine List.nodup_append.2 ⟨hfresh, hfresh', fun c hc c' hc' => ?_⟩
      rintro rfl
      exact Nat.lt_irrefl _ (Nat.lt_of_lt_of_le (hnew c hc).2 (hnew' c hc').1)
    · rw [List.filterMap_append] at hc
      rcases List.mem_append.1 hc with hc | hc
      · exact ⟨(hnew c hc).1, Nat.lt_of_lt_of_le (hnew c hc).2 h'.connected⟩
      · exact ⟨Nat.le_trans h.connected (hnew' c hc).1, (hnew' c hc).2⟩
  connected := Nat.le_trans h.connected h'.connected
  consumer := h'.consumer
  trap := h'.trap

/-- Nothing keeps the broadcaster from its work. -/
structure Sound (w : Teardown) : Prop where
  consumer : w.engine.broadcaster.isSome
  trap : w.engine.locks.queue.trap = none
  serves : ∃ added, w.relay.Sound added ∧ ∀ c ∈ added, c.serial < w.engine.connected

theorem sound_start (settings : Settings) (graph : Graph) : (start settings graph).Sound where
  consumer := rfl
  trap := rfl
  serves := ⟨[], Relay.sound_start, by simp⟩

theorem Sound.untrapped (h : w.Sound) : w.engine.mailboxes.Untrapped := by
  obtain ⟨added, hrelay, -⟩ := h.serves
  exact hrelay.untrapped

theorem Sound.trap? (h : w.Sound) : w.engine.locks.queue.trap? = none := by
  simp [Queue.trap?, h.trap]

theorem Sound.of_follows (h : w.Sound) (hfollows : w.Follows w') : w'.Sound where
  consumer := hfollows.consumer
  trap := hfollows.trap
  serves := by
    obtain ⟨added, hrelay, hserial⟩ := h.serves
    obtain ⟨acts, hrun, hfresh, hnew⟩ := hfollows.acts
    -- a serial is given out once, so a connection that is added was not there before
    have hunseen : ∀ c ∈ acts.filterMap Relay.Act.added?, c ∉ added := by
      intro c hc hold
      exact Nat.lt_irrefl _ (Nat.lt_of_lt_of_le (hserial c hold) (hnew c hc).1)
    refine ⟨_, hrun ▸ hrelay.run hfresh hunseen, fun c hc => ?_⟩
    rcases List.mem_append.1 hc with hc | hc
    · exact Nat.lt_of_lt_of_le (hserial c hc) hfollows.connected
    · exact (hnew c hc).2

theorem Sound.follows_rfl (h : w.Sound) : w.Follows w :=
  ⟨⟨[], rfl, by simp, by simp⟩, Nat.le_refl _, h.consumer, h.trap⟩

/-! ## Moves -/

/-- The broadcaster did not work between the two engines, and nobody connected, hung up, came or
went. -/
structure SameReach (e e' : Engine) : Prop where
  broadcaster : e'.broadcaster = e.broadcaster
  mailboxes : e'.mailboxes = e.mailboxes
  sessions : e'.sessions = e.sessions
  connected : e'.connected = e.connected

/-- Work on the locks is seen by what it puts into the queue. -/
theorem Sound.follows_push (h : w.Sound) {s : Traffic} (hreach : SameReach w.engine s.engine)
    (hqueue : ∃ ns, s.engine.locks.queue = w.engine.locks.queue.push ns) :
    w.Follows { w with traffic := s } := by
  obtain ⟨ns, hqueue⟩ := hqueue
  have hadded : [Relay.Act.enqueue ns].filterMap Relay.Act.added? = [] := rfl
  refine ⟨⟨[.enqueue ns], ?_, by simp [hadded], by simp [hadded]⟩,
    Nat.le_of_eq hreach.connected.symm, ?_, ?_⟩
  · simp only [relay, delivery, committed, engine, hreach.broadcaster, hreach.mailboxes,
      hreach.sessions, hqueue, Relay.run, List.foldl_cons, List.foldl_nil, Relay.Act.perform,
      Queue.pending_push]
    split <;> simp
  · exact hreach.broadcaster ▸ h.consumer
  · rw [engine, hqueue, Queue.trap_push]
    exact h.trap

/-- Nobody hears of a move that leaves the queue alone. -/
theorem Sound.follows_silent (h : w.Sound) {s : Traffic} (hreach : SameReach w.engine s.engine)
    (hqueue : s.engine.locks.queue = w.engine.locks.queue) :
    w.Follows { w with traffic := s } :=
  h.follows_push hreach ⟨[], by simpa using hqueue⟩

/-- An act by which no connection is made. -/
theorem Sound.follows_act (h : w.Sound) (act : Relay.Act) (hrelay : w'.relay = act.perform w.relay)
    (hadded : act.added? = none) (hconnected : w'.engine.connected = w.engine.connected)
    (hbroadcaster : w'.engine.broadcaster.isSome = w.engine.broadcaster.isSome)
    (htrap : w'.engine.locks.queue.trap = none) : w.Follows w' where
  acts := ⟨[act], hrelay, by simp [hadded], by simp [hadded]⟩
  connected := Nat.le_of_eq hconnected.symm
  consumer := hbroadcaster.trans h.consumer
  trap := htrap

theorem Sound.follows_connect (h : w.Sound) (label : String) :
    w.Follows (w.perform (.turn (.connect label))) where
  acts := by
    refine ⟨[.session (.connect ⟨label, w.engine.connected⟩)], rfl, ?_, ?_⟩
    · simp [Relay.Act.added?, SessionCall.added?]
    · simp [Relay.Act.added?, SessionCall.added?, engine, perform, Traffic.take, Engine.connect]
  connected := Nat.le_succ _
  consumer := h.consumer
  trap := h.trap

theorem Sound.follows_login (h : w.Sound) (c : ConnectionId) (user : User) :
    w.Follows (w.perform (.turn (.login c user))) := by
  cases hlogin : w.engine.sessions.login c user with
  | error e =>
    have hsame : w.perform (.turn (.login c user)) = w := by
      simp only [engine] at hlogin
      simp [perform, Traffic.take, hlogin]
    rw [hsame]
    exact h.follows_rfl
  | ok result =>
    have hissued : w.perform (.turn (.login c user)) =
        { w with traffic := w.traffic.issue result.1 result.2 } := by
      simp only [engine] at hlogin
      simp [perform, Traffic.take, hlogin]
    rw [hissued]
    refine h.follows_act (.session (.login c user)) ?_ rfl rfl rfl h.trap
    simp only [Relay.Act.perform, SessionCall.perform, relay, hlogin]
    rfl

theorem Sound.follows_disconnect (h : w.Sound) (c : ConnectionId) :
    w.Follows (w.perform (.turn (.disconnect c))) := by
  cases hlogout : w.engine.sessions.logout c with
  | error e =>
    have hsame : w.perform (.turn (.disconnect c)) = w := by
      simp only [engine] at hlogout
      simp [perform, Traffic.take, hlogout]
    rw [hsame]
    exact h.follows_rfl
  | ok result =>
    have hsessions : (w.perform (.turn (.disconnect c))).engine =
        { w.engine with sessions := result.1 } := by
      simp only [engine] at hlogout ⊢
      obtain ⟨sessions, event⟩ := result
      cases event <;> simp [perform, Traffic.take, hlogout, Traffic.issue]
    refine h.follows_act (.session (.logout c)) ?_ rfl ?_ ?_ ?_
    · simp only [Relay.Act.perform, SessionCall.perform, relay, hlogout]
      simp only [delivery, committed, hsessions]
      rfl
    · rw [hsessions]
    · rw [hsessions]
    · rw [hsessions]
      exact h.trap

theorem Sound.follows_proceed (h : w.Sound) (now : Nat) (errand : Errand) :
    w.Follows (w.perform (.turn (.proceed now errand))) := by
  simp only [perform, Traffic.take]
  split
  · cases errand with
    | inform n event =>
      obtain ⟨grace, followed, hfollow⟩ := w.traffic.engine.follow_eq (.ofTick now) event
      simp only [Traffic.proceed, hfollow]
      exact h.follows_silent ⟨rfl, rfl, rfl, rfl⟩ rfl
    | replay c user =>
      exact h.follows_push ⟨rfl, rfl, rfl, rfl⟩
        ⟨_, (Call.comesTo_perform h.trap? (.replay c user)).queue⟩
    | acquire a =>
      exact h.follows_push ⟨rfl, rfl, rfl, rfl⟩ ((Locks.enters_attempt _ now a).queue h.trap?)
  · exact h.follows_rfl

/-- A timer takes the locks of its user first, then the session. -/
theorem Sound.follows_fire (h : w.Sound) (t : GraceTimer) :
    w.Follows (w.perform (.turn (.fire t))) := by
  by_cases hdue : w.engine.grace.Registered t
  · have hreclaims := Engine.reclaims_of_registered hdue
    have hsessions := hreclaims.sessions
    rw [Locks.isOk_releaseAll h.trap, if_pos rfl] at hsessions
    have hqueue := hreclaims.locks.2.trans (Call.comesTo_perform h.trap? (.releaseAll t.user)).queue
    have hbroadcaster : (w.engine.reclaim t).broadcaster = w.engine.broadcaster :=
      (w.traffic.beside_fire t).broadcaster
    have hmailboxes : (w.engine.reclaim t).mailboxes = w.engine.mailboxes :=
      (w.traffic.beside_fire t).mailboxes
    -- to the broadcaster this is two acts: the locks are released, then the session is gone
    let released : Teardown :=
      w.mapEngine fun e => { e with locks := (w.engine.reclaim t).locks }
    have hreleased : w.Follows released := h.follows_push ⟨rfl, rfl, rfl, rfl⟩ ⟨_, hqueue⟩
    refine hreleased.trans ?_
    refine (h.of_follows hreleased).follows_act (.session (.forget t.user)) ?_ rfl
      (w.engine.connected_reclaim t) (congrArg Option.isSome hbroadcaster) hreleased.trap
    have hrelay : (w.perform (.turn (.fire t))).relay =
        { released.relay with
          delivery := { released.delivery with
            broadcaster := (w.engine.reclaim t).broadcaster.getD {}
            mailboxes := (w.engine.reclaim t).mailboxes }
          sessions := (w.engine.reclaim t).sessions } := rfl
    rw [hrelay, hbroadcaster, hmailboxes, hsessions]
    rfl
  · simp only [engine] at hdue
    simp only [perform, Traffic.take, Engine.reclaim_of_not_registered hdue]
    exact h.follows_silent ⟨rfl, rfl, rfl, rfl⟩ rfl

theorem delivery_withDelivery (h : w.engine.broadcaster.isSome) (f : Delivery → Delivery) :
    (w.mapEngine (·.withDelivery f)).delivery = f w.delivery := by
  obtain ⟨b, hb⟩ := Option.isSome_iff_exists.1 h
  simp only [engine] at hb
  simp [delivery, mapEngine, engine, Engine.withDelivery, hb]

theorem isSome_withDelivery (e : Engine) (f : Delivery → Delivery) :
    (e.withDelivery f).broadcaster.isSome = e.broadcaster.isSome := by
  unfold Engine.withDelivery
  split <;> simp_all

theorem engine_deliver (w : Teardown) :
    w.deliver.engine = w.engine.withDelivery (·.step w.engine.sessions w.stopping) := rfl

/-- What is handed out was in the queue, so nothing gets lost between the two. -/
theorem Sound.relay_deliver (h : w.Sound) :
    w.deliver.relay = Relay.Act.consume.perform w.relay ∧
      w.deliver.engine.locks.queue.trap = none := by
  have hsteps := Delivery.steps_step h.untrapped w.engine.sessions w.stopping (d := w.delivery)
  have hdelivery : w.deliver.delivery = w.delivery.step w.engine.sessions w.stopping :=
    delivery_withDelivery h.consumer (·.step w.engine.sessions w.stopping)
  have hsessions : w.deliver.engine.sessions = w.engine.sessions := by
    rw [engine_deliver, Engine.sessions_withDelivery]
  have hqueue : w.deliver.engine.locks.queue =
      (w.delivery.step w.engine.sessions w.stopping).queue := congrArg Delivery.queue hdelivery
  obtain ⟨htaken, htrap⟩ := hsteps.queue
  have hcommitted : w.deliver.committed = w.committed := by
    have hpending : w.engine.locks.queue.pending = _ := htaken
    rw [committed, committed, hqueue, hpending]
    cases hnext : w.delivery.next? <;> simp [deliver, hnext]
  refine ⟨?_, hqueue ▸ htrap h.trap⟩
  rw [relay, hdelivery, hsessions, hcommitted]
  rfl

theorem Sound.follows_deliver (h : w.Sound) : w.Follows w.deliver := by
  obtain ⟨hrelay, htrap⟩ := h.relay_deliver
  refine h.follows_act .consume hrelay rfl ?_ ?_ htrap
  · rw [engine_deliver, Engine.connected_withDelivery]
  · rw [engine_deliver, isSome_withDelivery]

theorem Sound.follows_leave (h : w.Sound) : w.Follows (w.perform .leave) := by
  by_cases hasked : w.stopping = true ∧ w.delivery.broadcaster.phase = .running
  · have hleft : w.perform .leave = w.mapEngine (·.withDelivery (·.shut)) := by
      rw [perform, if_pos hasked]
    have hdelivery := delivery_withDelivery h.consumer (·.shut)
    rw [← hleft] at hdelivery
    have hqueue : (w.perform .leave).engine.locks.queue = w.engine.locks.queue.close :=
      congrArg Delivery.queue hdelivery
    refine h.follows_act .leave ?_ rfl ?_ ?_ (by rw [hqueue]; rfl)
    · have hrelay : Relay.Act.leave.perform w.relay =
          { w.relay with delivery := w.delivery.shut } := if_pos hasked
      rw [hrelay, relay, hdelivery, committed, hqueue, hleft]
      simp only [relay, Relay.mk.injEq, true_and]
      exact ⟨Engine.sessions_withDelivery .., rfl, rfl, rfl⟩
    · rw [hleft]
      exact Engine.connected_withDelivery ..
    · rw [hleft]
      exact isSome_withDelivery ..
  · rw [perform, if_neg hasked]
    exact h.follows_rfl

/-- Whatever happens, the broadcaster sees acts of a relay. -/
theorem Sound.follows_perform (h : w.Sound) (move : Move) : w.Follows (w.perform move) := by
  cases move with
  | turn t =>
    cases t with
    | connect label => exact h.follows_connect label
    | close c => exact h.follows_act (.shut c) rfl rfl rfl rfl h.trap
    | login c user => exact h.follows_login c user
    | disconnect c => exact h.follows_disconnect c
    | ask now whole r =>
      simp only [perform, Traffic.take]
      split
      · exact h.follows_silent ⟨rfl, rfl, rfl, rfl⟩ rfl
      · exact h.follows_rfl
    | proceed now errand => exact h.follows_proceed now errand
    | abandon a => exact h.follows_silent ⟨rfl, rfl, rfl, rfl⟩ rfl
    | call c =>
      exact h.follows_push ⟨rfl, rfl, rfl, rfl⟩ ⟨_, (Call.comesTo_perform h.trap? c).queue⟩
    | fire t => exact h.follows_fire t
    | deliver => exact h.follows_deliver
    | remould graph => exact h.follows_silent ⟨rfl, rfl, rfl, rfl⟩ rfl
  | breakOff p n fault =>
    exact h.follows_push ⟨rfl, rfl, rfl, rfl⟩ (Step.queue_breakOff h.trap p n fault)
  | leave => exact h.follows_leave

theorem Sound.follows_run (h : w.Sound) (moves : List Move) : w.Follows (w.run moves) := by
  induction moves generalizing w with
  | nil => exact h.follows_rfl
  | cons move moves ih =>
    have hfirst := h.follows_perform move
    exact hfirst.trans (ih (h.of_follows hfirst))

theorem Sound.run (h : w.Sound) (moves : List Move) : (w.run moves).Sound :=
  h.of_follows (h.follows_run moves)

end Teardown

/-! ## Timers whose record is gone -/

namespace Grace

variable {g g' g'' : Grace}

/-- A timer for which a record waits later on had one before, or was started in between. -/
structure Later (g g' : Grace) : Prop where
  generation : g.generation ≤ g'.generation
  registered : ∀ t, g'.Registered t → g.Registered t ∨ g.generation < t.generation

theorem later_rfl (g : Grace) : g.Later g := ⟨Nat.le_refl _, fun _ => .inl⟩

theorem Later.trans (h : g.Later g') (h' : g'.Later g'') : g.Later g'' where
  generation := Nat.le_trans h.generation h'.generation
  registered t ht := by
    rcases h'.registered t ht with hold | hnew
    · exact h.registered t hold
    · exact .inr (Nat.lt_of_le_of_lt h.generation hnew)

theorem later_erase (g : Grace) (user : User) :
    g.Later { g with pending := g.pending.erase user } :=
  ⟨Nat.le_refl _, fun t ht => .inl ((registered_erase user t).1 ht).2⟩

theorem later_onDisconnect (g : Grace) (now : Instant) (user : User) :
    g.Later (g.onDisconnect now user).1 := by
  rcases g.onDisconnect_cases now user with ⟨deadline, -, hgrace⟩ | ⟨-, hgrace⟩ <;> rw [hgrace]
  · refine ⟨Nat.le_succ _, fun t ht => ?_⟩
    rcases (registered_insert user _ deadline t).1 ht with rfl | ⟨-, hold⟩
    · exact .inr (Nat.lt_succ_self _)
    · exact .inl hold
  · exact ⟨Nat.le_succ _, fun t ht => .inl ht⟩

end Grace

namespace Engine

theorem later_follow (e : Engine) (now : Instant) (event : SessionEvent) :
    e.grace.Later (e.follow now event).1.grace := by
  rcases e.follow_cases now event with ⟨-, h⟩ | ⟨-, h⟩ <;> rw [h]
  · exact e.grace.later_onDisconnect now event.user
  · exact e.grace.later_erase event.user

theorem later_reclaim (e : Engine) (t : GraceTimer) : e.grace.Later (e.reclaim t).grace := by
  by_cases hdue : e.grace.Registered t
  · rw [(reclaims_of_registered hdue).grace]
    exact e.grace.later_erase t.user
  · rw [reclaim_of_not_registered hdue]
    exact e.grace.later_rfl

end Engine

namespace Traffic

variable {s s' : Traffic} {turn : Turn}

theorem Takes.later (htakes : s.Takes turn s') : s.engine.grace.Later s'.engine.grace := by
  cases htakes with
  | fire t => exact s.engine.later_reclaim t
  | @proceed now errand =>
    cases errand with
    | inform n event => exact s.engine.later_follow (.ofTick now) event
    | replay | acquire => exact s.engine.grace.later_rfl
  | deliver =>
    dsimp only
    rw [s.engine.grace_withDelivery]
    exact s.engine.grace.later_rfl
  | idle | connect | close | login | hangUp | logout | ask | abandon | call | remould =>
    exact s.engine.grace.later_rfl

/-- The timer was started when the supervisor heard of an event. -/
def Started (s : Traffic) (t : GraceTimer) : Prop := ∃ n event, .heard n event (some t) ∈ s.past

/-- The generation of a timer is not given out again. -/
def Spent (s : Traffic) : Prop := ∀ t, s.Started t → t.generation ≤ s.engine.grace.generation

theorem spent_start (settings : Settings) (graph : Graph) : (start settings graph).Spent := by
  rintro t ⟨n, event, hmem⟩
  cases hmem

theorem Takes.spent (htakes : s.Takes turn s') (h : s.Spent) : s'.Spent := by
  have hold : ∀ t, s.Started t → t.generation ≤ s'.engine.grace.generation :=
    fun t ht => Nat.le_trans (h t ht) htakes.later.generation
  cases htakes with
  | fire t =>
    rintro t' ⟨n, event, hmem⟩
    exact hold t' ⟨n, event, (List.mem_cons.1 hmem).resolve_left nofun⟩
  | @proceed now errand =>
    cases errand with
    | inform n event =>
      rintro t ⟨m, event', hmem⟩
      rcases List.mem_cons.1 hmem with hnow | hmem
      · -- the timer that starts has the generation given out last
        obtain ⟨-, -, htimer⟩ := Incident.heard.inj hnow
        simp only [Traffic.proceed]
        rcases s.engine.follow_cases (.ofTick now) event with ⟨-, hfollow⟩ | ⟨-, hfollow⟩
        · rw [hfollow] at htimer ⊢
          rcases s.engine.grace.onDisconnect_cases (.ofTick now) event.user with
            ⟨deadline, -, hgrace⟩ | ⟨-, hgrace⟩ <;> rw [hgrace] at htimer ⊢
          · obtain rfl := Option.some.inj htimer
            exact Nat.le_refl _
          · cases htimer
        · rw [hfollow] at htimer
          cases htimer
      · exact hold t ⟨m, event', hmem⟩
    | replay | acquire => exact hold
  | idle | connect | close | login | hangUp | logout | ask | abandon | call | deliver | remould =>
    exact hold

end Traffic

namespace Teardown

variable {w : Teardown}

theorem perform_turn (w : Teardown) {t : Turn} (h : t ≠ .deliver) :
    w.perform (.turn t) = { w with traffic := w.traffic.take t } := by
  cases t with
  | deliver => exact absurd rfl h
  | _ => rfl

/-- What every turn keeps and what depends on the grace periods alone, every run keeps. -/
theorem invariant_run (Inv : Traffic → Prop)
    (hturn : ∀ s s' turn, s.Takes turn s' → Inv s → Inv s')
    (hgrace : ∀ s s' : Traffic, s'.engine.grace = s.engine.grace → s'.past = s.past →
      Inv s → Inv s')
    (h : Inv w.traffic) (moves : List Move) : Inv (w.run moves).traffic := by
  induction moves generalizing w with
  | nil => exact h
  | cons move moves ih =>
    refine ih (w := w.perform move) ?_
    cases move with
    | turn t =>
      by_cases hdeliver : t = .deliver
      · subst hdeliver
        exact hgrace w.traffic _ (w.engine.grace_withDelivery _) rfl h
      · rw [w.perform_turn hdeliver]
        exact hturn w.traffic _ t (w.traffic.takes_take t) h
    | breakOff p n fault => exact hgrace w.traffic _ rfl rfl h
    | leave =>
      simp only [perform]
      split
      · exact hgrace w.traffic _ (w.engine.grace_withDelivery _) rfl h
      · exact h

theorem later_run (w : Teardown) (moves : List Move) :
    w.engine.grace.Later (w.run moves).engine.grace :=
  invariant_run (w.engine.grace.Later ·.engine.grace)
    (fun _ _ _ htakes h => h.trans htakes.later)
    (fun _ _ hgrace _ h => hgrace.symm ▸ h) (w.engine.grace.later_rfl) moves

theorem spent_run (h : w.traffic.Spent) (moves : List Move) : (w.run moves).traffic.Spent := by
  refine invariant_run Traffic.Spent (fun _ _ _ htakes h => htakes.spent h)
    (fun s s' hgrace hpast h => ?_) h moves
  unfold Traffic.Spent Traffic.Started
  rw [hgrace, hpast]
  exact h

theorem recorded_run (h : w.traffic.Recorded) (moves : List Move) :
    (w.run moves).traffic.Recorded :=
  invariant_run Traffic.Recorded (fun _ _ _ htakes h => htakes.recorded h)
    (fun _ _ hgrace hpast h => h.congr hgrace hpast) h moves

end Teardown

end SceneLocks
