import SceneLocks.Proofs.Engine.Interleaving
import SceneLocks.Proofs.Locks.Rollback
import SceneLocks.Proofs.Locks.TreeExclusion

/-!
# Operations that fail

An operation that fails was refused before it changed anything, or its critical section broke off
and the table was put back. Whatever is done afterwards comes to what it would have come to without
that operation: all of it goes by the table, the sessions and the grace periods, and never by what
was queued or written before.
-/

namespace SceneLocks

open Time

namespace Engine

/-! ## Operations -/

/-- What can be done with an engine. The steps of a login and of a disconnect are there one by
one as well, since other operations may come between them. -/
inductive Operation where
  | connect (label : String)
  | login (now : Instant) (c : ConnectionId) (user : User)
  | disconnect (now : Instant) (c : ConnectionId)
  /-- The first step of a login. -/
  | enter (c : ConnectionId) (user : User)
  /-- The first step of a disconnect. -/
  | leave (c : ConnectionId)
  /-- The supervisor hears of a session event. -/
  | follow (now : Instant) (event : SessionEvent)
  /-- A request begins: its resource is looked up. -/
  | ask (now : Nat) (whole : Bool) (r : Request)
  /-- A single step on the locks, such as an attempt on a request. -/
  | call (c : Call)
  /-- A section breaks off after some of its edits. -/
  | breakOff (p : Plan) (n : Nat) (fault : Fault)
  /-- A timer of a grace period fires. -/
  | fire (t : GraceTimer)
  /-- The broadcaster takes notifications off the queue. -/
  | handOut (n : Nat)
  | remould (g : Graph)

/-- What the caller of an operation is told. -/
inductive Answer where
  | connected (c : ConnectionId)
  | session (event : Option SessionEvent) (timer : Option GraceTimer)
  | begun (a : Acquisition)
  | replied (r : Reply)
  | nothing
  /-- Not even an error, for the operation broke off: the clock does not reach a deadline. -/
  | brokeOff
deriving DecidableEq

namespace Answer

def ofExcept {ε α : Type} (fail : ε → Error) (f : α → Answer) : Except ε α → Except Error Answer
  | .ok a => .ok (f a)
  | .error err => .error (fail err)

def ofReply : Reply → Except Error Answer
  | .failed err => .error (.lock err)
  | r => .ok (.replied r)

def ofFollowed (event : Option SessionEvent) : Followed → Answer
  | .brokeOff => .brokeOff
  | followed => .session event followed.timer?

def ofDeparture : Departure → Except Error Answer
  | .refused err => .error (.session err)
  | .nobody => .ok (.session none none)
  | .left event followed => .ok (.ofFollowed (some event) followed)

end Answer

namespace Operation

/-- The engine after an operation, and what the caller is told. -/
def perform (e : Engine) : Operation → Engine × Except Error Answer
  | .connect label => (e.connect label).map id (.ok ∘ .connected)
  | .login now c user =>
    (e.login now c user).map id (Answer.ofExcept .session fun event => .session (some event) none)
  | .disconnect now c => (e.disconnect now c).map id Answer.ofDeparture
  | .enter c user =>
    (e.enterSession c user).map id
      (Answer.ofExcept .session fun event => .session (some event) none)
  | .leave c =>
    (e.leaveSession c).map id (Answer.ofExcept .session fun event => .session event none)
  | .follow now event => (e.follow now event).map id (.ok ∘ Answer.ofFollowed none)
  | .ask now whole r =>
    (e, Answer.ofExcept .lock Answer.begun (e.locks.begin e.graph now whole r))
  | .call c => ({ e with locks := (c.perform e.locks).1 }, Answer.ofReply (c.perform e.locks).2)
  | .breakOff p n fault =>
    match p.edits e.locks.table with
    | .error err => ({ e with locks := e.locks.enter }, .error (.lock err))
    | .ok s =>
      ({ e with
          locks := ((s.take n).foldl Locks.edit e.locks.enter).restore e.locks.table fault },
        .error (.lock (Locks.brokenOff fault)))
  | .fire t => (e.reclaim t, .ok .nothing)
  | .handOut n =>
    ({ e with
        locks := { e.locks with
          queue := { e.locks.queue with pending := e.locks.queue.pending.drop n } } },
      .ok .nothing)
  | .remould graph => ({ e with graph }, .ok .nothing)

end Operation

/-- What an operation came to. -/
structure Outcome where
  answer : Except Error Answer
  /-- The notifications that it queued. -/
  queued : List Notification
  /-- The resources whose cached data it dropped. -/
  dropped : List Resource
deriving DecidableEq

/-- The notifications queued between two states of an engine. -/
def queuedUntil (e f : Engine) : List Notification :=
  f.locks.queue.pending.drop e.locks.queue.pending.length

/-- The resources whose cached data was dropped between two states of an engine. -/
def droppedUntil (e f : Engine) : List Resource :=
  f.locks.invalidated.drop e.locks.invalidated.length

def Operation.outcome (e : Engine) (op : Operation) : Outcome :=
  { answer := (op.perform e).2
    queued := e.queuedUntil (op.perform e).1
    dropped := e.droppedUntil (op.perform e).1 }

/-- The engine after some operations. -/
def run (e : Engine) (ops : List Operation) : Engine := ops.foldl (fun e op => (op.perform e).1) e

/-- What some operations come to, one after the other. -/
def outcomes (e : Engine) : List Operation → List Outcome
  | [] => []
  | op :: ops => op.outcome e :: (op.perform e).1.outcomes ops

/-! ## Engines that are alike -/

/-- Two engines that differ only in what was queued, handed out, written and dropped so far. -/
structure Alike (e e' : Engine) : Prop where
  graph : e.graph = e'.graph
  locks : e.locks.Alike e'.locks
  sessions : e.sessions = e'.sessions
  grace : e.grace = e'.grace
  connected : e.connected = e'.connected

/-- What was done to two engines leaves them alike, and queued and dropped the same. -/
structure Parallel (e e' f f' : Engine) : Prop where
  alike : f.Alike f'
  queued : e.queuedUntil f = e'.queuedUntil f'
  dropped : e.droppedUntil f = e'.droppedUntil f'

variable {e e' f f' : Engine}

theorem parallel_of_locks (hlocks : e.locks.Parallel e'.locks f.locks f'.locks)
    (hgraph : f.graph = f'.graph) (hsessions : f.sessions = f'.sessions)
    (hgrace : f.grace = f'.grace) (hconnected : f.connected = f'.connected) :
    e.Parallel e' f f' := by
  obtain ⟨halike, ⟨ns, hqueued, hqueued'⟩, ⟨rs, hdropped, hdropped'⟩⟩ := hlocks
  refine ⟨⟨hgraph, halike, hsessions, hgrace, hconnected⟩, ?_, ?_⟩
  · unfold queuedUntil
    rw [hqueued, hqueued', List.drop_left, List.drop_left]
  · unfold droppedUntil
    rw [hdropped, hdropped', List.drop_left, List.drop_left]

theorem Alike.still (h : e.Alike e') : e.locks.Parallel e'.locks e.locks e'.locks :=
  ⟨h.locks, ⟨[], by simp⟩, ⟨[], by simp⟩⟩

theorem Alike.enterSession (h : e.Alike e') (c : ConnectionId) (user : User) :
    (∃ err, e.enterSession c user = (e, .error err) ∧
      e'.enterSession c user = (e', .error err)) ∨
    ∃ sessions event, e.enterSession c user = ({ e with sessions }, .ok event) ∧
      e'.enterSession c user = ({ e' with sessions }, .ok event) := by
  unfold Engine.enterSession
  rw [h.sessions]
  cases e'.sessions.login c user with
  | error err => exact .inl ⟨err, rfl, rfl⟩
  | ok entered => exact .inr ⟨entered.1, entered.2, rfl, rfl⟩

theorem Alike.leaveSession (h : e.Alike e') (c : ConnectionId) :
    (∃ err, e.leaveSession c = (e, .error err) ∧ e'.leaveSession c = (e', .error err)) ∨
    ∃ sessions event, e.leaveSession c = ({ e with sessions }, .ok event) ∧
      e'.leaveSession c = ({ e' with sessions }, .ok event) := by
  unfold Engine.leaveSession
  rw [h.sessions]
  cases e'.sessions.logout c with
  | error err => exact .inl ⟨err, rfl, rfl⟩
  | ok left => exact .inr ⟨left.1, left.2, rfl, rfl⟩

/-- What the supervisor does goes by the grace periods. -/
theorem follow_congr (e e' : Engine) (h : e.grace = e'.grace) (now : Instant)
    (event : SessionEvent) :
    ∃ grace followed, e.follow now event = ({ e with grace }, followed) ∧
      e'.follow now event = ({ e' with grace }, followed) := by
  rcases e.follow_cases now event with ⟨hkind, hfollow⟩ | ⟨hkind, hfollow⟩
  · rcases e'.follow_cases now event with ⟨-, hfollow'⟩ | ⟨hother, -⟩
    · rw [← h] at hfollow'
      exact ⟨_, _, hfollow, hfollow'⟩
    · exact absurd hkind hother
  · rcases e'.follow_cases now event with ⟨hother, -⟩ | ⟨-, hfollow'⟩
    · exact absurd hother hkind
    · rw [← h] at hfollow'
      exact ⟨_, _, hfollow, hfollow'⟩

theorem Alike.replay (h : e.Alike e') (hf : f.locks = e.locks) (hf' : f'.locks = e'.locks)
    (c : ConnectionId) (user : User) :
    e.locks.Parallel e'.locks (f.replay c user).1.locks (f'.replay c user).1.locks := by
  have hreplay := Call.parallel_perform h.locks (.replay c user)
  rw [← hf, ← hf'] at hreplay ⊢
  exact hreplay

theorem Alike.login (h : e.Alike e') (now : Instant) (c : ConnectionId) (user : User) :
    (e.login now c user).2 = (e'.login now c user).2 ∧
      e.Parallel e' (e.login now c user).1 (e'.login now c user).1 := by
  unfold Engine.login
  rcases h.enterSession c user with ⟨err, henter, henter'⟩ | ⟨sessions, event, henter, henter'⟩
  · rw [henter, henter']
    exact ⟨rfl, parallel_of_locks h.still h.graph h.sessions h.grace h.connected⟩
  · obtain ⟨grace, followed, hfollow, hfollow'⟩ :=
      follow_congr { e with sessions } { e' with sessions } h.grace now event
    simp only [henter, henter', hfollow, hfollow', true_and]
    exact parallel_of_locks (h.replay rfl rfl c user) h.graph rfl rfl h.connected

theorem Alike.disconnect (h : e.Alike e') (now : Instant) (c : ConnectionId) :
    (e.disconnect now c).2 = (e'.disconnect now c).2 ∧
      e.Parallel e' (e.disconnect now c).1 (e'.disconnect now c).1 := by
  unfold Engine.disconnect
  rcases h.leaveSession c with ⟨err, hleave, hleave'⟩ | ⟨sessions, event, hleave, hleave'⟩
  · rw [hleave, hleave']
    exact ⟨rfl, parallel_of_locks h.still h.graph h.sessions h.grace h.connected⟩
  · rw [hleave, hleave']
    cases event with
    | none => exact ⟨rfl, parallel_of_locks h.still h.graph rfl h.grace h.connected⟩
    | some event =>
      obtain ⟨grace, followed, hfollow, hfollow'⟩ :=
        follow_congr { e with sessions } { e' with sessions } h.grace now event
      simp only [hfollow, hfollow', true_and]
      exact parallel_of_locks h.still h.graph rfl rfl h.connected

theorem Alike.reclaim (h : e.Alike e') (t : GraceTimer) :
    e.Parallel e' (e.reclaim t) (e'.reclaim t) := by
  obtain ⟨hreply, -⟩ := Call.alongside_perform h.locks (.releaseAll t.user)
  have hparallel : e.locks.Parallel e'.locks (e.locks.releaseAll t.user).1
    (e'.locks.releaseAll t.user).1 := Call.parallel_perform h.locks (.releaseAll t.user)
  unfold Engine.reclaim
  rw [h.grace]
  cases e'.grace.claim? t with
  | none => exact parallel_of_locks h.still h.graph h.sessions h.grace h.connected
  | some grace =>
    simp only [Call.perform, Prod.map_snd] at hreply
    generalize e.locks.releaseAll t.user = released at hreply hparallel ⊢
    generalize e'.locks.releaseAll t.user = released' at hreply hparallel ⊢
    obtain ⟨locks, result⟩ := released
    obtain ⟨locks', result'⟩ := released'
    cases result <;> cases result' <;> cases hreply
    · exact parallel_of_locks (hparallel.record _ _) h.graph h.sessions rfl h.connected
    · refine parallel_of_locks hparallel h.graph ?_ rfl h.connected
      simp only [h.sessions]

/-- The caller of an operation is told the same in both engines, and it does the same to them. -/
abbrev SameIn (e e' : Engine) (op : Operation) : Prop :=
  (op.perform e).2 = (op.perform e').2 ∧ e.Parallel e' (op.perform e).1 (op.perform e').1

theorem Alike.sameIn_connect (h : e.Alike e') (label : String) :
    e.SameIn e' (.connect label) := by
  constructor
  · simp only [Operation.perform, Engine.connect, h.connected]
    rfl
  · refine parallel_of_locks h.still h.graph ?_ h.grace ?_
    · simp only [Operation.perform, Engine.connect, Prod.map_fst, id, h.sessions, h.connected]
    · exact congrArg (· + 1) h.connected

theorem Alike.sameIn_enter (h : e.Alike e') (c : ConnectionId) (user : User) :
    e.SameIn e' (.enter c user) := by
  simp only [SameIn, Operation.perform]
  rcases h.enterSession c user with ⟨err, henter, henter'⟩ | ⟨sessions, event, henter, henter'⟩
  · rw [henter, henter']
    exact ⟨rfl, parallel_of_locks h.still h.graph h.sessions h.grace h.connected⟩
  · rw [henter, henter']
    exact ⟨rfl, parallel_of_locks h.still h.graph rfl h.grace h.connected⟩

theorem Alike.sameIn_leave (h : e.Alike e') (c : ConnectionId) : e.SameIn e' (.leave c) := by
  simp only [SameIn, Operation.perform]
  rcases h.leaveSession c with ⟨err, hleave, hleave'⟩ | ⟨sessions, event, hleave, hleave'⟩
  · rw [hleave, hleave']
    exact ⟨rfl, parallel_of_locks h.still h.graph h.sessions h.grace h.connected⟩
  · rw [hleave, hleave']
    exact ⟨rfl, parallel_of_locks h.still h.graph rfl h.grace h.connected⟩

theorem Alike.sameIn_follow (h : e.Alike e') (now : Instant) (event : SessionEvent) :
    e.SameIn e' (.follow now event) := by
  obtain ⟨grace, followed, hfollow, hfollow'⟩ := follow_congr e e' h.grace now event
  simp only [SameIn, Operation.perform]
  rw [hfollow, hfollow']
  exact ⟨rfl, parallel_of_locks h.still h.graph h.sessions rfl h.connected⟩

theorem Alike.sameIn_breakOff (h : e.Alike e') (p : Plan) (n : Nat) (fault : Fault) :
    e.SameIn e' (.breakOff p n fault) := by
  have hedits : p.edits e.locks.table = p.edits e'.locks.table := h.locks.table ▸ rfl
  simp only [SameIn, Operation.perform, hedits]
  cases p.edits e'.locks.table with
  | error err =>
    have hentered := h.locks.alongside (Locks.agree_enter _) (Locks.agree_enter _)
    have hparallel := hentered.parallel h.locks (Locks.sameRest_enter _) (Locks.sameRest_enter _)
    exact ⟨rfl, parallel_of_locks hparallel h.graph h.sessions h.grace h.connected⟩
  | ok s =>
    have hparallel := h.locks.breakOff s n fault
    exact ⟨rfl, parallel_of_locks hparallel h.graph h.sessions h.grace h.connected⟩

/-- Taking notifications off the queue is no news to anybody. -/
theorem Alike.sameIn_handOut (h : e.Alike e') (n : Nat) : e.SameIn e' (.handOut n) := by
  have hqueued : ∀ e : Engine, e.queuedUntil ((Operation.handOut n).perform e).1 = [] := by
    intro e
    apply List.drop_eq_nil_of_le
    exact (List.drop_sublist n e.locks.queue.pending).length_le
  refine ⟨rfl, ⟨h.graph, ⟨h.locks.settings, h.locks.table, h.locks.isOpen, h.locks.trap⟩,
    h.sessions, h.grace, h.connected⟩, ?_, ?_⟩
  · rw [hqueued, hqueued]
  · simp only [droppedUntil, Operation.perform, List.drop_length]

theorem Alike.sameIn (h : e.Alike e') (op : Operation) : e.SameIn e' op := by
  cases op with
  | connect label => exact h.sameIn_connect label
  | login now c user =>
    obtain ⟨hresult, hparallel⟩ := h.login now c user
    exact ⟨congrArg (Answer.ofExcept .session _) hresult, hparallel⟩
  | disconnect now c =>
    obtain ⟨hresult, hparallel⟩ := h.disconnect now c
    refine ⟨?_, hparallel⟩
    simp only [Operation.perform, Prod.map_snd, hresult]
  | enter c user => exact h.sameIn_enter c user
  | leave c => exact h.sameIn_leave c
  | follow now event => exact h.sameIn_follow now event
  | ask now whole r =>
    refine ⟨?_, parallel_of_locks h.still h.graph h.sessions h.grace h.connected⟩
    simp only [Operation.perform, Locks.begin, Locks.policyFor, h.graph, h.locks.settings]
  | call c =>
    obtain ⟨hreply, -⟩ := Call.alongside_perform h.locks c
    refine ⟨congrArg Answer.ofReply hreply, ?_⟩
    exact parallel_of_locks (Call.parallel_perform h.locks c) h.graph h.sessions h.grace h.connected
  | breakOff p n fault => exact h.sameIn_breakOff p n fault
  | fire t => exact ⟨rfl, h.reclaim t⟩
  | handOut n => exact h.sameIn_handOut n
  | remould graph =>
    exact ⟨rfl, parallel_of_locks h.still rfl h.sessions h.grace h.connected⟩

/-- An operation comes to the same in engines that are alike, and leaves them alike. -/
theorem Alike.perform (h : e.Alike e') (op : Operation) :
    op.outcome e = op.outcome e' ∧ (op.perform e).1.Alike (op.perform e').1 := by
  obtain ⟨hanswer, halike, hqueued, hdropped⟩ := h.sameIn op
  refine ⟨?_, halike⟩
  simp only [Operation.outcome, hanswer, hqueued, hdropped]

theorem alike_rfl (e : Engine) : e.Alike e := ⟨rfl, ⟨rfl, rfl, rfl, rfl⟩, rfl, rfl, rfl⟩

/-- Engines that are alike stay so, whatever is done with both of them. -/
theorem Alike.run (h : e.Alike e') (ops : List Operation) :
    e.outcomes ops = e'.outcomes ops ∧ (e.run ops).Alike (e'.run ops) := by
  induction ops generalizing e e' with
  | nil => exact ⟨rfl, h⟩
  | cons op ops ih =>
    obtain ⟨houtcome, halike⟩ := h.perform op
    obtain ⟨houtcomes, hrun⟩ := ih halike
    refine ⟨?_, hrun⟩
    rw [outcomes, outcomes, houtcome, houtcomes]

/-! ## Failures -/

/-- What an operation that failed did: nothing, or its section broke off. -/
structure Spared (e : Engine) (error : Error) (f : Engine) : Prop where
  others : ∃ locks, f = { e with locks }
  rest : f.locks.SameRest e.locks
  locks : ((∀ reason, error ≠ .lock (.broken reason)) ∧ f.locks.Agree e.locks) ∨
    ((∃ reason, error = .lock (.broken reason)) ∧ e.locks.BrokeOff f.locks)

variable {error : Error}

theorem spared_rfl (e : Engine) (h : ∀ reason, error ≠ .lock (.broken reason)) :
    e.Spared error e :=
  ⟨⟨e.locks, rfl⟩, Locks.sameRest_rfl _, .inl ⟨h, Locks.agree_rfl _⟩⟩

/-- A session operation that is refused did nothing. -/
theorem spared_refused (e : Engine) (err : SessionError) : e.Spared (.session err) e :=
  spared_rfl e nofun

theorem Spared.of_session {α : Type} {result : Except SessionError α} {g : α → Answer}
    (hsame : ∀ err, result = .error err → f = e)
    (h : Answer.ofExcept .session g result = .error error) : e.Spared error f := by
  cases result with
  | ok a => cases h
  | error err =>
    obtain rfl : .session err = error := Except.error.inj h
    rw [hsame err rfl]
    exact spared_refused e err

theorem fst_enterSession {c : ConnectionId} {user : User} {err : SessionError}
    (h : (e.enterSession c user).2 = .error err) : (e.enterSession c user).1 = e := by
  rcases (alike_rfl e).enterSession c user with ⟨err', henter, -⟩ | ⟨sessions, event, henter, -⟩
  · rw [henter]
  · rw [henter] at h
    cases h

theorem fst_leaveSession {c : ConnectionId} {err : SessionError}
    (h : (e.leaveSession c).2 = .error err) : (e.leaveSession c).1 = e := by
  rcases (alike_rfl e).leaveSession c with ⟨err', hleave, -⟩ | ⟨sessions, event, hleave, -⟩
  · rw [hleave]
  · rw [hleave] at h
    cases h

/-- A login that fails ends with its first step. -/
theorem fst_login {now : Instant} {c : ConnectionId} {user : User} {err : SessionError}
    (h : (e.login now c user).2 = .error err) : (e.login now c user).1 = e := by
  unfold login at h ⊢
  rcases (alike_rfl e).enterSession c user with ⟨err', henter, -⟩ | ⟨sessions, event, henter, -⟩
  · rw [henter]
  · rw [henter] at h
    cases h

/-- A disconnect that fails ends with its first step. -/
theorem fst_disconnect {now : Instant} {c : ConnectionId} {err : SessionError}
    (h : (e.disconnect now c).2 = .refused err) : (e.disconnect now c).1 = e := by
  unfold disconnect at h ⊢
  rcases (alike_rfl e).leaveSession c with ⟨err', hleave, -⟩ | ⟨sessions, event, hleave, -⟩
  · rw [hleave]
  · rw [hleave] at h
    cases event <;> cases h

theorem spared_disconnect {now : Instant} {c : ConnectionId}
    (h : Answer.ofDeparture (e.disconnect now c).2 = .error error) :
    e.Spared error (e.disconnect now c).1 := by
  cases hdeparture : (e.disconnect now c).2 with
  | refused err =>
    rw [hdeparture] at h
    obtain rfl : .session err = error := Except.error.inj h
    rw [fst_disconnect hdeparture]
    exact spared_refused e err
  | nobody | left =>
    rw [hdeparture] at h
    cases h

theorem begin_ne_broken {l : Locks} {g : Graph} {now : Nat} {whole : Bool} {r : Request}
    (h : Answer.ofExcept .lock Answer.begun (l.begin g now whole r) = .error error)
    (reason : String) : error ≠ .lock (.broken reason) := by
  intro hbroken
  subst hbroken
  unfold Locks.begin Locks.resolve at h
  cases hscope : g.scope? r.resource <;> simp [hscope, bind, Except.bind, Answer.ofExcept] at h

theorem spared_call {c : Call} {err : LockError} (h : (c.perform e.locks).2 = .failed err) :
    e.Spared (.lock err) { e with locks := (c.perform e.locks).1 } := by
  refine ⟨⟨_, rfl⟩, ⟨c.settings_perform e.locks, ?_⟩, ?_⟩
  · rw [c.invalidated_perform, h, Call.invalidation_failed, List.append_nil]
  · rcases Call.perform_failed h with ⟨hrefused, hagree⟩ | ⟨⟨fault, rfl⟩, hbroke⟩
    · refine .inl ⟨fun reason hbroken => ?_, hagree⟩
      exact hrefused reason (Error.lock.inj hbroken)
    · exact .inr ⟨⟨_, rfl⟩, hbroke⟩

/-- A section that breaks off has the table put back; one that is refused never started. -/
theorem spared_breakOff {p : Plan} {n : Nat} {fault : Fault}
    (h : ((Operation.breakOff p n fault).perform e).2 = .error error) :
    e.Spared error ((Operation.breakOff p n fault).perform e).1 := by
  simp only [Operation.perform] at h ⊢
  cases hs : p.edits e.locks.table with
  | error err =>
    rw [hs] at h
    obtain rfl : .lock err = error := Except.error.inj h
    refine ⟨⟨_, rfl⟩, Locks.sameRest_enter e.locks, .inl ⟨?_, Locks.agree_enter e.locks⟩⟩
    intro reason hbroken
    exact p.edits_ne_broken e.locks.table reason (Error.lock.inj hbroken ▸ hs)
  | ok s =>
    rw [hs] at h
    obtain rfl := Except.error.inj h
    have hundone := e.locks.restore_eq_rollBack s n fault
    have hbroke := e.locks.brokeOff_rollBack s n fault
    rw [← hundone] at hbroke
    refine ⟨⟨_, rfl⟩, ?_, .inr ⟨⟨_, rfl⟩, hbroke⟩⟩
    dsimp only
    rw [hundone]
    exact Locks.sameRest_enter e.locks

/-- An operation that fails was refused before it did anything, or its section broke off. -/
theorem Operation.spared_perform {op : Operation} (h : (op.perform e).2 = .error error) :
    e.Spared error (op.perform e).1 := by
  cases op with
  | connect label => cases h
  | login now c user => exact .of_session (fun err => fst_login) h
  | disconnect now c => exact spared_disconnect h
  | enter c user => exact .of_session (fun err => fst_enterSession) h
  | leave c => exact .of_session (fun err => fst_leaveSession) h
  | follow now event => cases h
  | ask now whole r => exact spared_rfl e (begin_ne_broken h)
  | call c =>
    simp only [perform] at h
    cases hreply : (c.perform e.locks).2 with
    | failed err =>
      rw [hreply] at h
      cases h
      exact spared_call hreply
    | _ =>
      rw [hreply] at h
      cases h
  | breakOff p n fault => exact spared_breakOff h
  | fire t => cases h
  | handOut n => cases h
  | remould graph => cases h

/-- The engine once the fault that an error reports is over. -/
def overcome (e : Engine) : Error → Engine
  | .lock (.broken _) => { e with locks := { e.locks with queue := e.locks.queue.disarm } }
  | _ => e

theorem overcome_of_ne (h : ∀ reason, error ≠ .lock (.broken reason)) : e.overcome error = e := by
  unfold overcome
  split
  · next reason => exact absurd rfl (h reason)
  · rfl

/-- What is left of an operation that failed is as good as nothing. -/
theorem Spared.alike (h : e.Spared error f) : f.Alike (e.overcome error) := by
  obtain ⟨⟨locks, rfl⟩, ⟨hsettings, -⟩, hlocks⟩ := h
  rcases hlocks with ⟨hrefused, htable, hqueue⟩ | ⟨⟨reason, rfl⟩, htable, events, hqueue⟩
  · rw [overcome_of_ne hrefused]
    exact ⟨rfl, ⟨hsettings, htable, congrArg _ hqueue, congrArg _ hqueue⟩, rfl, rfl, rfl⟩
  · refine ⟨rfl, ⟨hsettings, htable, ?_, (congrArg Queue.trap hqueue).trans rfl⟩, rfl, rfl, rfl⟩
    exact (congrArg Queue.isOpen hqueue).trans (Queue.isOpen_push _ _)

/-- What an operation that failed with `error` leaves of the engine `e`. -/
structure NoTrace (e : Engine) (error : Error) (f : Engine) : Prop where
  /-- The entries and the record of the editor locks. -/
  table : f.locks.table = e.locks.table
  sessions : f.sessions = e.sessions
  /-- Who is to lose their locks, and when. -/
  grace : f.grace = e.grace
  invalidated : f.locks.invalidated = e.locks.invalidated
  /-- Only a section that broke off may have announced something before. -/
  queue : (∀ reason, error ≠ .lock (.broken reason)) → f.locks.queue = e.locks.queue
  /-- What is done later comes to the same, and leads to the same, as without the operation. -/
  later : ∀ ops, f.outcomes ops = (e.overcome error).outcomes ops ∧
    (f.run ops).Alike ((e.overcome error).run ops)

/-- An operation that fails leaves no trace, be it that it was refused or that its section broke
off after any number of its edits. The sections of all operations are performed edit by edit, on
the table itself, and the table is put back when one of them breaks off. -/
theorem noTrace_perform (e : Engine) (op : Operation) (error : Error)
    (hfailed : (op.perform e).2 = .error error) :
    e.NoTrace error (op.perform e).1 ∧
      ∀ s, e.locks.commit s = Locks.execute e.locks.table s e.locks := by
  have hspared := Operation.spared_perform hfailed
  have halike := hspared.alike
  obtain ⟨⟨locks, hf⟩, ⟨-, hdropped⟩, hlocks⟩ := hspared
  refine ⟨⟨?_, ?_, ?_, hdropped, ?_, halike.run⟩, e.locks.commit_eq_execute⟩
  · rcases hlocks with ⟨-, hsame⟩ | ⟨-, hbroke⟩
    · exact hsame.1
    · exact hbroke.table
  · rw [hf]
  · rw [hf]
  · intro hrefused
    rcases hlocks with ⟨-, hsame⟩ | ⟨⟨reason, hbroken⟩, -⟩
    · exact hsame.2
    · exact absurd hbroken (hrefused reason)

/-- An engine in which the next announcement breaks its sender off. -/
def trapped : Engine :=
  let e := assemble {} Locks.cupOnTable
  { e with locks := { e.locks with queue := { trap := some (.spoken "boom") } } }

/-- Alice asks for the tree around the cup. -/
def aliceLocks : Operation := .call (.lock Locks.cupOnTable 0 "cup" "alice" true)

/-- Her grant breaks off with the first of its two announcements. When she tries again, she is told
what she would have been told without that. -/
theorem noTrace_perform_aliceLocks :
    let f := (aliceLocks.perform trapped).1
    f.locks.queue.pending = [⟨.all, .locked "cup" "alice"⟩] ∧
      f.locks.table = trapped.locks.table ∧
      f.outcomes [aliceLocks] = [{
        answer := .ok (.replied .done)
        queued := [⟨.all, .locked "cup" "alice"⟩, ⟨.all, .locked "table" "alice"⟩]
        dropped := [] }] := by
  intro f
  have hfailed : (aliceLocks.perform trapped).2 =
      .error (.lock (.broken "lock table operation aborted: boom")) := by decide +kernel
  obtain ⟨hnoTrace, -⟩ := noTrace_perform trapped aliceLocks _ hfailed
  refine ⟨by decide +kernel, hnoTrace.table, ?_⟩
  obtain ⟨houtcomes, -⟩ := hnoTrace.later [aliceLocks]
  rw [houtcomes]
  decide +kernel

end Engine

end SceneLocks
