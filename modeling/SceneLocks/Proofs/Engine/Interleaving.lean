import SceneLocks.Proofs.Locks.Runs
import SceneLocks.Proofs.Session.Reclamation
import SceneLocks.Proofs.Session.Sessions

/-!
# Calls that interleave

Nothing keeps the calls of different users apart but the guards of the single steps: between two
steps of a login, between the two halves of a disconnect and between two attempts on a request
everything else may happen. What is left of a call that was begun is an errand, and errands are
run in any order. A login or a disconnect without interruption is its steps in a row
(`run_login`, `run_disconnect`).
-/

namespace SceneLocks

open Time

/-! ## Steps of the engine -/

namespace Engine

/-- The supervisor starts the grace period of a user who left, and else ends it. -/
theorem follow_cases (e : Engine) (now : Instant) (event : SessionEvent) :
    (event.kind = .disconnected ∧ e.follow now event =
      ({ e with grace := (e.grace.onDisconnect now event.user).1 },
        .ofTimer (e.grace.onDisconnect now event.user).2)) ∨
    (event.kind ≠ .disconnected ∧ e.follow now event =
      ({ e with grace := (e.grace.onConnect event.user).1 }, .ended)) := by
  unfold follow
  cases event.kind with
  | disconnected => exact .inl ⟨rfl, rfl⟩
  | connected | reconnected => exact .inr ⟨nofun, rfl⟩

/-- Nothing but the grace periods follows. The result gets a name, so that nothing ever evaluates
the deadline. -/
theorem follow_eq (e : Engine) (now : Instant) (event : SessionEvent) :
    ∃ grace followed, e.follow now event = ({ e with grace }, followed) := by
  rcases e.follow_cases now event with ⟨-, h⟩ | ⟨-, h⟩
  · exact ⟨_, _, h⟩
  · exact ⟨_, _, h⟩

theorem sessions_withDelivery (e : Engine) (f : Delivery → Delivery) :
    (e.withDelivery f).sessions = e.sessions := by
  unfold withDelivery
  split <;> rfl

theorem connected_withDelivery (e : Engine) (f : Delivery → Delivery) :
    (e.withDelivery f).connected = e.connected := by
  unfold withDelivery
  split <;> rfl

theorem grace_withDelivery (e : Engine) (f : Delivery → Delivery) :
    (e.withDelivery f).grace = e.grace := by
  unfold withDelivery
  split <;> rfl

theorem table_withDelivery (e : Engine) (f : Delivery → Delivery) :
    (e.withDelivery f).locks.table = e.locks.table := by
  unfold withDelivery
  split <;> rfl

theorem connections_reclaim (e : Engine) (t : GraceTimer) :
    (e.reclaim t).sessions.connections = e.sessions.connections := by
  unfold reclaim
  split
  · rfl
  · split
    · exact Sessions.connections_forget e.sessions t.user
    · rfl

/-- Only a disconnected user is forgotten. -/
theorem session?_reclaim (e : Engine) (t : GraceTimer) (user : User) (c : ConnectionId) :
    (e.reclaim t).sessions.session? user = some (some c) ↔
      e.sessions.session? user = some (some c) := by
  unfold reclaim
  split
  · rfl
  · split
    · dsimp only
      rw [Sessions.session?_forget]
      split
      · next h => simp [← h.1, h.2]
      · rfl
    · rfl

end Engine

/-! ## Errands and turns -/

/-- What is left to do of a call that was begun. -/
inductive Errand where
  /-- The supervisor is to hear of a session event. The tickets count the events in the order in
  which the users came and went. -/
  | inform (ticket : Nat) (event : SessionEvent)
  /-- The connection of a user who logged in is to be told what is locked. -/
  | replay (c : ConnectionId) (user : User)
  /-- A request waits for its next attempt. -/
  | acquire (a : Acquisition)
deriving DecidableEq

/-- What reached the supervisor. -/
inductive Incident where
  /-- It heard of a session event, and started a timer if the user left. -/
  | heard (ticket : Nat) (event : SessionEvent) (timer : Option GraceTimer)
  | fired (t : GraceTimer)
deriving DecidableEq

/-- An engine with the calls under way. -/
structure Traffic where
  engine : Engine
  errands : List Errand := []
  /-- The number of tickets given out. -/
  tickets : Nat := 0
  /-- All that reached the supervisor, newest first. -/
  past : List Incident := []

/-- What can happen next. -/
inductive Turn where
  | connect (label : String)
  /-- The receiving end of a connection is dropped. -/
  | close (c : ConnectionId)
  /-- A login begins: the user is entered. -/
  | login (c : ConnectionId) (user : User)
  /-- A disconnect begins: the connection is dropped. -/
  | disconnect (c : ConnectionId)
  /-- A request begins: its resource is looked up. -/
  | ask (now : Nat) (whole : Bool) (r : Request)
  /-- Some call goes on. -/
  | proceed (now : Nat) (errand : Errand)
  /-- Nobody waits for a request any more. -/
  | abandon (a : Acquisition)
  /-- A call of a single step on the locks. -/
  | call (c : Call)
  /-- A timer of a grace period fires, whether it was cancelled or not. -/
  | fire (t : GraceTimer)
  /-- The broadcaster hands out one notification, if there is one. -/
  | deliver
  | remould (g : Graph)

namespace Traffic

/-- A running engine on which nobody called yet. -/
def start (settings : Settings) (graph : Graph) : Traffic :=
  { engine := { Engine.assemble settings graph with broadcaster := some {} } }

/-- A session event happens, of which the supervisor is to hear. -/
def issue (s : Traffic) (sessions : Sessions) (event : SessionEvent) : Traffic :=
  { s with
    engine := { s.engine with sessions }
    errands := .inform s.tickets event :: s.errands
    tickets := s.tickets + 1 }

/-- The state after an errand was run. -/
def proceed (s : Traffic) (now : Nat) : Errand → Traffic
  | .inform n event =>
    let followed := s.engine.follow (.ofTick now) event
    { s with
      engine := followed.1
      errands := (event.connection.map (.replay · event.user)).toList ++
        s.errands.erase (.inform n event)
      past := .heard n event followed.2.timer? :: s.past }
  | .replay c user =>
    { s with
      engine := (s.engine.replay c user).1
      errands := s.errands.erase (.replay c user) }
  | .acquire a =>
    let attempted := s.engine.locks.attempt now a
    { s with
      engine := { s.engine with locks := attempted.1 }
      errands := (match attempted.2 with
        | .waiting next _ => [.acquire next]
        | .granted _ | .failed _ => []) ++ s.errands.erase (.acquire a) }

/-- The state after a turn. -/
def take (s : Traffic) : Turn → Traffic
  | .connect label => { s with engine := (s.engine.connect label).1 }
  | .close c => { s with engine := { s.engine with mailboxes := s.engine.mailboxes.shut c } }
  | .login c user =>
    match s.engine.sessions.login c user with
    | .ok (sessions, event) => s.issue sessions event
    | .error _ => s
  | .disconnect c =>
    match s.engine.sessions.logout c with
    | .ok (sessions, some event) => s.issue sessions event
    | .ok (sessions, none) => { s with engine := { s.engine with sessions } }
    | .error _ => s
  | .ask now whole r =>
    match s.engine.locks.begin s.engine.graph now whole r with
    | .ok a => { s with errands := .acquire a :: s.errands }
    | .error _ => s
  | .proceed now errand => if errand ∈ s.errands then s.proceed now errand else s
  | .abandon a => { s with errands := s.errands.erase (.acquire a) }
  | .call c => { s with engine := { s.engine with locks := (c.perform s.engine.locks).1 } }
  | .fire t => { s with engine := s.engine.reclaim t, past := .fired t :: s.past }
  | .deliver => { s with engine := s.engine.withDelivery (·.step s.engine.sessions false) }
  | .remould graph => { s with engine := { s.engine with graph } }

/-- The state after some turns. -/
def run (s : Traffic) (turns : List Turn) : Traffic := turns.foldl take s

/-! ## What a turn does -/

/-- What a turn can come to. -/
inductive Takes (s : Traffic) : Turn → Traffic → Prop where
  /-- What was asked for is not possible, or has nobody to do it. -/
  | idle (turn : Turn) : s.Takes turn s
  | connect (label : String) :
    s.Takes (.connect label) { s with engine := (s.engine.connect label).1 }
  | close (c : ConnectionId) :
    s.Takes (.close c) { s with engine := { s.engine with mailboxes := s.engine.mailboxes.shut c } }
  | login {c : ConnectionId} {user : User} {sessions : Sessions} {event : SessionEvent}
    (h : s.engine.sessions.LoggedIn c user sessions event) :
    s.Takes (.login c user) (s.issue sessions event)
  /-- Nobody was logged in on the connection. -/
  | hangUp {c : ConnectionId} {sessions : Sessions}
    (h : s.engine.sessions.LoggedOut c sessions none) :
    s.Takes (.disconnect c) { s with engine := { s.engine with sessions } }
  | logout {c : ConnectionId} {sessions : Sessions} {event : SessionEvent}
    (h : s.engine.sessions.LoggedOut c sessions (some event)) :
    s.Takes (.disconnect c) (s.issue sessions event)
  | ask {now : Nat} {whole : Bool} {r : Request} {a : Acquisition}
    (h : s.engine.locks.begin s.engine.graph now whole r = .ok a) :
    s.Takes (.ask now whole r) { s with errands := .acquire a :: s.errands }
  | proceed {now : Nat} {errand : Errand} (h : errand ∈ s.errands) :
    s.Takes (.proceed now errand) (s.proceed now errand)
  | abandon (a : Acquisition) :
    s.Takes (.abandon a) { s with errands := s.errands.erase (.acquire a) }
  | call (c : Call) :
    s.Takes (.call c) { s with engine := { s.engine with locks := (c.perform s.engine.locks).1 } }
  | fire (t : GraceTimer) :
    s.Takes (.fire t) { s with engine := s.engine.reclaim t, past := .fired t :: s.past }
  | deliver :
    s.Takes .deliver { s with engine := s.engine.withDelivery (·.step s.engine.sessions false) }
  | remould (graph : Graph) : s.Takes (.remould graph) { s with engine := { s.engine with graph } }

theorem takes_take (s : Traffic) (turn : Turn) : s.Takes turn (s.take turn) := by
  cases turn with
  | connect label => exact .connect label
  | close c => exact .close c
  | login c user =>
    simp only [take]
    split
    · next h => exact .login (Sessions.loggedIn_of_login h)
    · exact .idle _
  | disconnect c =>
    simp only [take]
    split
    · next h => exact .logout (Sessions.loggedOut_of_logout h)
    · next h => exact .hangUp (Sessions.loggedOut_of_logout h)
    · exact .idle _
  | ask now whole r =>
    simp only [take]
    split
    · next h => exact .ask h
    · exact .idle _
  | proceed now errand =>
    simp only [take]
    split
    · next h => exact .proceed h
    · exact .idle _
  | abandon a => exact .abandon a
  | call c => exact .call c
  | fire t => exact .fire t
  | deliver => exact .deliver
  | remould graph => exact .remould graph

/-- What every turn of a run keeps holds after the run. -/
theorem invariant_run {Inv : Traffic → Prop} {s : Traffic} {turns : List Turn}
    (hturn : ∀ s s' turn, turn ∈ turns → s.Takes turn s' → Inv s → Inv s') (h : Inv s) :
    Inv (s.run turns) := by
  induction turns generalizing s with
  | nil => exact h
  | cons turn turns ih =>
    apply ih
    · exact fun s s' t ht => hturn s s' t (List.mem_cons_of_mem turn ht)
    · exact hturn s (s.take turn) turn List.mem_cons_self (s.takes_take turn) h

/-! ## Session events under way -/

/-- The event happened under this ticket: the supervisor has heard of it, or is to hear. -/
def Issued (s : Traffic) (n : Nat) (event : SessionEvent) : Prop :=
  .inform n event ∈ s.errands ∨ ∃ timer, .heard n event timer ∈ s.past

variable {s s' : Traffic} {turn : Turn}

theorem issued_issue (s : Traffic) (sessions : Sessions) (event : SessionEvent) (n : Nat)
    (e : SessionEvent) :
    (s.issue sessions event).Issued n e ↔ n = s.tickets ∧ e = event ∨ s.Issued n e := by
  simp [Issued, issue, or_assoc]

/-- An errand of another kind has no part in the events under way. -/
theorem issued_congr (hpast : s'.past = s.past)
    (herrands : ∀ n e, .inform n e ∈ s'.errands ↔ .inform n e ∈ s.errands) (n : Nat)
    (e : SessionEvent) : s'.Issued n e ↔ s.Issued n e := by
  rw [Issued, Issued, hpast, herrands]

theorem issued_proceed {now : Nat} {errand : Errand} (h : errand ∈ s.errands) (n : Nat)
    (e : SessionEvent) : (s.proceed now errand).Issued n e ↔ s.Issued n e := by
  cases errand with
  | inform m event =>
    -- the event that is heard of leaves the errands for the past
    have hreplay : .inform n e ∉ (event.connection.map (Errand.replay · event.user)).toList := by
      cases event.connection <;> simp
    simp only [Issued, proceed, List.mem_append, hreplay, false_or, List.mem_cons,
      Incident.heard.injEq]
    by_cases hsame : n = m ∧ e = event
    · obtain ⟨rfl, rfl⟩ := hsame
      exact iff_of_true (.inr ⟨_, .inl ⟨rfl, rfl, rfl⟩⟩) (.inl h)
    · have hne : Errand.inform n e ≠ .inform m event := by
        rintro ⟨⟩
        exact hsame ⟨rfl, rfl⟩
      rw [List.mem_erase_of_ne hne]
      refine or_congr_right (exists_congr fun timer => or_iff_right ?_)
      exact fun hheard => hsame ⟨hheard.1, hheard.2.1⟩
  | replay c user =>
    apply issued_congr
    · rfl
    · exact fun n e => List.mem_erase_of_ne nofun
  | acquire a =>
    apply issued_congr
    · rfl
    · intro n e
      have hne : Errand.inform n e ≠ .acquire a := nofun
      rw [proceed, List.mem_append, List.mem_erase_of_ne hne]
      refine or_iff_right ?_
      split <;> simp

theorem sessions_proceed (s : Traffic) (now : Nat) (errand : Errand) :
    (s.proceed now errand).engine.sessions = s.engine.sessions := by
  cases errand with
  | inform n event =>
    obtain ⟨grace, followed, h⟩ := s.engine.follow_eq (.ofTick now) event
    simp [proceed, h]
  | replay | acquire => simp [proceed, Engine.replay]

theorem connected_proceed (s : Traffic) (now : Nat) (errand : Errand) :
    (s.proceed now errand).engine.connected = s.engine.connected := by
  cases errand with
  | inform n event =>
    obtain ⟨grace, followed, h⟩ := s.engine.follow_eq (.ofTick now) event
    simp [proceed, h]
  | replay | acquire => simp [proceed, Engine.replay]

/-- After a login was heard of it is the turn of its replay. -/
theorem replay_mem_proceed {now : Nat} {errand : Errand} (h : errand ∈ s.errands)
    {c : ConnectionId} {user : User} (hmem : .replay c user ∈ (s.proceed now errand).errands) :
    .replay c user ∈ s.errands ∨
      ∃ n event, s.Issued n event ∧ event.connection = some c ∧ event.user = user := by
  cases errand with
  | inform n event =>
    rcases List.mem_append.1 hmem with hmem | hmem
    · cases hconnection : event.connection with
      | none => simp [hconnection] at hmem
      | some c' =>
        simp only [hconnection, Option.map_some, Option.toList_some, List.mem_singleton,
          Errand.replay.injEq] at hmem
        obtain ⟨rfl, rfl⟩ := hmem
        exact .inr ⟨n, event, .inl h, hconnection, rfl⟩
    · exact .inl (List.mem_of_mem_erase hmem)
  | replay c' user' => exact .inl (List.mem_of_mem_erase hmem)
  | acquire a =>
    rcases List.mem_append.1 hmem with hmem | hmem
    · split at hmem <;> simp at hmem
    · exact .inl (List.mem_of_mem_erase hmem)

/-- Nobody came or went, as far as the session events tell. -/
structure Stays (s s' : Traffic) : Prop where
  tickets : s'.tickets = s.tickets
  issued : ∀ n event, s'.Issued n event ↔ s.Issued n event
  session : ∀ user c, s'.engine.sessions.session? user = some (some c) →
    s.engine.sessions.session? user = some (some c)
  /-- A connection on which nobody is logged in was like that before, or is new. -/
  guest : ∀ c : ConnectionId, s'.engine.sessions.connections[c]? = some none →
    s.engine.sessions.connections[c]? = some none ∨ s.engine.connected ≤ c.serial
  replay : ∀ c user, .replay c user ∈ s'.errands → .replay c user ∈ s.errands ∨
    ∃ n event, s.Issued n event ∧ event.connection = some c ∧ event.user = user
  connected : s.engine.connected ≤ s'.engine.connected

/-- Work beside the sessions. -/
theorem stays_of_sessions (htickets : s'.tickets = s.tickets)
    (hissued : ∀ n event, s'.Issued n event ↔ s.Issued n event)
    (hsessions : s'.engine.sessions = s.engine.sessions)
    (hreplay : ∀ c user, .replay c user ∈ s'.errands → .replay c user ∈ s.errands)
    (hconnected : s'.engine.connected = s.engine.connected) : s.Stays s' where
  tickets := htickets
  issued := hissued
  session := by rw [hsessions]; exact fun _ _ => id
  guest := by rw [hsessions]; exact fun _ => .inl
  replay c user h := .inl (hreplay c user h)
  connected := Nat.le_of_eq hconnected.symm

/-- With a turn somebody comes or goes, or nobody does. -/
theorem Takes.issued (h : s.Takes turn s') :
    (∃ c user sessions event, s.engine.sessions.LoggedIn c user sessions event ∧
      s' = s.issue sessions event) ∨
    (∃ c sessions event, s.engine.sessions.LoggedOut c sessions (some event) ∧
      s' = s.issue sessions event) ∨
    s.Stays s' := by
  cases h with
  | login h => exact .inl ⟨_, _, _, _, h, rfl⟩
  | logout h => exact .inr (.inl ⟨_, _, _, h, rfl⟩)
  | connect label =>
    -- the only turn that adds a connection: its number is the count before the turn
    refine .inr (.inr ⟨rfl, fun _ _ => Iff.rfl, fun _ _ => id, fun c hc => ?_, fun _ _ => .inl,
      Nat.le_succ _⟩)
    simp only [Engine.connect, Sessions.connect, Std.ExtTreeMap.getElem?_insert,
      Std.compare_eq_iff_eq] at hc
    split at hc
    · next hnew => exact .inr (hnew ▸ Nat.le_refl _)
    · exact .inl hc
  | hangUp h =>
    -- a connection nobody was logged in on takes no session away
    refine .inr (.inr ⟨rfl, fun _ _ => Iff.rfl, fun user c hsession => ?_, fun c hc => ?_,
      fun _ _ => .inl, Nat.le_refl _⟩)
    · rw [← hsession]
      exact (h.session? user).symm
    · rw [h.connections] at hc
      split at hc
      · cases hc
      · exact .inl hc
  | @proceed now errand h =>
    refine .inr (.inr ⟨?_, issued_proceed h, ?_, ?_, fun c user => replay_mem_proceed h, ?_⟩)
    · cases errand <;> rfl
    · rw [sessions_proceed]
      exact fun _ _ => id
    · rw [sessions_proceed]
      exact fun _ => .inl
    · exact Nat.le_of_eq (s.connected_proceed now errand).symm
  | ask h =>
    exact .inr (.inr (stays_of_sessions rfl (issued_congr rfl fun n e => by simp) rfl
      (fun c user => by simp) rfl))
  | abandon a =>
    refine .inr (.inr (stays_of_sessions rfl (issued_congr rfl fun n e => ?_) rfl
      (fun c user => List.mem_of_mem_erase) rfl))
    -- what is abandoned is an acquisition, no event that waits
    apply List.mem_erase_of_ne
    rintro ⟨⟩
  | fire t =>
    -- a timer forgets disconnected users only
    refine .inr (.inr ⟨rfl, fun n e => by simp [Issued], fun user c => ?_, ?_, fun _ _ => .inl, ?_⟩)
    · exact (s.engine.session?_reclaim t user c).1
    · rw [Engine.connections_reclaim]
      exact fun _ => .inl
    · exact Nat.le_of_eq (s.engine.connected_reclaim t).symm
  | deliver =>
    exact .inr (.inr (stays_of_sessions rfl (fun _ _ => Iff.rfl)
      (Engine.sessions_withDelivery ..) (fun _ _ => id) (Engine.connected_withDelivery ..)))
  | idle | close | call | remould =>
    exact .inr (.inr (stays_of_sessions rfl (fun _ _ => Iff.rfl) rfl (fun _ _ => id) rfl))

/-- What happened stays known. -/
theorem Takes.issued_mono (h : s.Takes turn s') {n : Nat} {event : SessionEvent}
    (hissued : s.Issued n event) : s'.Issued n event := by
  rcases h.issued with ⟨_, _, sessions, e, -, rfl⟩ | ⟨_, sessions, e, -, rfl⟩ | hstays
  · exact (s.issued_issue sessions e n event).2 (.inr hissued)
  · exact (s.issued_issue sessions e n event).2 (.inr hissued)
  · exact (hstays.issued n event).2 hissued

/-! ## Calls without interruption -/

/-- A login is its three steps, with nothing in between. -/
theorem run_login (s : Traffic) (now : Nat) (c : ConnectionId) (user : User) {e : Engine}
    {event : SessionEvent} (h : s.engine.login (.ofTick now) c user = (e, .ok event)) :
    let s' := s.run [.login c user, .proceed now (.inform s.tickets event),
      .proceed now (.replay c user)]
    s'.engine = e ∧ s'.errands = s.errands := by
  unfold Engine.login Engine.enterSession at h
  cases hlogin : s.engine.sessions.login c user with
  | error err => simp [hlogin] at h
  | ok result =>
    obtain ⟨sessions, event'⟩ := result
    have hnames := (Sessions.loggedIn_of_login hlogin).names
    simp only [hlogin, Prod.mk.injEq, Except.ok.injEq] at h
    obtain ⟨rfl, rfl⟩ := h
    simp [run, take, hlogin, issue, proceed, hnames]

/-- A disconnect of a user who was logged in is its two steps, with nothing in between. -/
theorem run_disconnect (s : Traffic) (now : Nat) (c : ConnectionId) {e : Engine}
    {event : SessionEvent} {followed : Engine.Followed}
    (h : s.engine.disconnect (.ofTick now) c = (e, .left event followed)) :
    let s' := s.run [.disconnect c, .proceed now (.inform s.tickets event)]
    s'.engine = e ∧ s'.errands = s.errands := by
  unfold Engine.disconnect Engine.leaveSession at h
  cases hlogout : s.engine.sessions.logout c with
  | error err => simp [hlogout] at h
  | ok result =>
    obtain ⟨sessions, _ | event'⟩ := result
    · simp [hlogout] at h
    · obtain ⟨-, hconnection⟩ := (Sessions.loggedOut_of_logout hlogout).kind event' rfl
      simp only [hlogout, Prod.mk.injEq, Engine.Departure.left.injEq] at h
      obtain ⟨rfl, rfl, -⟩ := h
      simp [run, take, hlogout, issue, proceed, hconnection]

end Traffic

end SceneLocks
