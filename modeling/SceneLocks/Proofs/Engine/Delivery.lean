import SceneLocks.Proofs.Engine.Interleaving
import SceneLocks.Proofs.Locks.Coverage
import SceneLocks.Proofs.Session.Mailboxes

/-!
# What is on its way to the connections

Every turn adds some notifications at one end of the queue, and takes some off at the other. What
is added tells what was done to the table (`Sends`), and what is taken off has arrived at every
connection that still listens (`Flows`).
-/

namespace SceneLocks

/-! ## What is put into the queue -/

/-- What was put into the queue, and what was done to the table by that. A replay speaks to one
connection, in the name of one user. -/
inductive Sends (t t' : Table) (Replays : ConnectionId → User → Prop) :
    List Notification → Prop where
  | nothing (h : t' = t) : Sends t t' Replays []
  | performs {p : Plan} {s : Section} (hp : p.Resolved) (hs : p.edits t = .ok s)
    (h : t' = s.result t) : Sends t t' Replays (s.events.map (⟨.all, ·⟩))
  | replays {c : ConnectionId} {user : User} (hreplays : Replays c user) (h : t' = t) :
    Sends t t' Replays ((Locks.replayEvents t user).map (⟨.only c, ·⟩))

theorem Sends.mono {t t' : Table} {R R' : ConnectionId → User → Prop} {added : List Notification}
    (h : Sends t t' R added) (hR : ∀ c user, R c user → R' c user) : Sends t t' R' added := by
  cases h with
  | nothing h => exact .nothing h
  | performs hp hs h => exact .performs hp hs h
  | replays hreplays h => exact .replays (hR _ _ hreplays) h

theorem Sends.consistent {t t' : Table} {R : ConnectionId → User → Prop}
    {added : List Notification} (h : Sends t t' R added) (ht : t.Consistent) : t'.Consistent := by
  cases h with
  | nothing h => exact h ▸ ht
  | performs hp hs h => exact h ▸ ht.result hp hs
  | replays _ h => exact h ▸ ht

namespace Locks

/-- The notifications went into the queue, and nothing else happened to it. -/
structure Sent (l l' : Locks) (R : ConnectionId → User → Prop) (added : List Notification) :
    Prop where
  sends : Sends l.table l'.table R added
  queue : l'.queue = l.queue.push added

variable {l l' : Locks} {R : ConnectionId → User → Prop} {added : List Notification}

theorem sent_rfl (l : Locks) (R : ConnectionId → User → Prop) : l.Sent l R [] :=
  ⟨.nothing rfl, (Queue.push_nil l.queue).symm⟩

theorem Sent.quiet (h : l.Sent l' R added) (hquiet : l.Quiet) : l'.Quiet := by
  constructor
  · rw [h.queue, Queue.isOpen_push]
    exact hquiet.isOpen
  · rw [h.queue, Queue.trap_push]
    exact hquiet.trap

theorem Sent.pending (h : l.Sent l' R added) (hquiet : l.Quiet) :
    l'.queue.pending = l.queue.pending ++ added := by
  rw [h.queue, Queue.pending_push_of_isOpen hquiet.isOpen]

theorem Sent.mono {R' : ConnectionId → User → Prop} (h : l.Sent l' R added)
    (hR : ∀ c user, R c user → R' c user) : l.Sent l' R' added :=
  ⟨h.sends.mono hR, h.queue⟩

theorem Sent.agree {l'' : Locks} (h : l.Sent l' R added) (hagree : l''.Agree l') :
    l.Sent l'' R added :=
  ⟨hagree.1.symm ▸ h.sends, hagree.2.trans h.queue⟩

theorem sent_replay (hquiet : l.Quiet) {c : ConnectionId} {user : User} (h : R c user) :
    l.Sent (l.replay c user).1 R ((replayEvents l.table user).map (⟨.only c, ·⟩)) := by
  refine ⟨.replays h (table_replay l c user), ?_⟩
  simp [replay, hquiet.trap?]

end Locks

/-- A call puts the events of its section into the queue, or what a replay says, or nothing. -/
theorem Call.sent {l : Locks} (hquiet : l.Quiet) (c : Call) :
    ∃ added, l.Sent (c.perform l).1 (fun c' user => c = .replay c' user) added := by
  cases hplan : c.plan? l.table with
  | none =>
    rcases agree_perform hplan with ⟨htable, hqueue⟩ | ⟨c', user, rfl⟩
    · exact ⟨[], .nothing htable, by rw [hqueue, Queue.push_nil]⟩
    · exact ⟨_, Locks.sent_replay hquiet rfl⟩
  | some p =>
    obtain ⟨⟨htable, hqueue⟩, -⟩ := enters_perform hplan
    have htransact := Locks.transact_of_trap?_eq_none hquiet.trap? (p.edits ·)
    cases hs : p.edits l.table with
    | error e =>
      simp only [hs] at htransact
      rw [htransact, Locks.table_enter] at htable
      rw [htransact, Locks.queue_enter] at hqueue
      exact ⟨[], .nothing htable, by rw [hqueue, Queue.push_nil]⟩
    | ok s =>
      simp only [hs] at htransact
      rw [htransact] at htable hqueue
      simp only [Locks.perform, Locks.table_enter, Locks.queue_enter] at htable hqueue
      exact ⟨_, .performs (resolved_of_plan? hplan) hs htable, hqueue⟩

namespace Traffic

/-! ## What is taken off the queue -/

/-- What is in the queue, oldest first. -/
def pending (s : Traffic) : List Notification := s.engine.locks.queue.pending

/-- The number of notifications that were taken off the queue. -/
def processed (s : Traffic) : Nat := (s.engine.broadcaster.map (·.processed)).getD 0

/-- All that arrived at a connection since it was made: nobody empties the mailboxes here. -/
def unread (s : Traffic) (c : ConnectionId) : List Event := s.engine.mailboxes.unread c

/-- The connection is live, and its receiving end is there. -/
def Listens (s : Traffic) (c : ConnectionId) : Prop :=
  c ∈ s.engine.sessions.connections ∧ s.engine.mailboxes.accepts c

/-- Some notifications were taken off the queue and others added to it. What was taken off
arrived at whoever still listens. -/
structure Flows (s s' : Traffic) (taken added : List Notification) : Prop where
  pending : s.pending ++ added = taken ++ s'.pending
  processed : s'.processed = s.processed + taken.length
  connected : s.engine.connected ≤ s'.engine.connected
  unread : ∀ c, c.serial < s.engine.connected → s'.Listens c →
    s.Listens c ∧ s'.unread c = s.unread c ++ heardBy c taken

/-- Nothing keeps the broadcaster from handing out what the locks put into the queue. -/
structure Sound (s : Traffic) : Prop where
  quiet : s.engine.locks.Quiet
  running : ∃ b, s.engine.broadcaster = some b ∧ b.phase = .running
  untrapped : s.engine.mailboxes.Untrapped
  consistent : s.engine.locks.table.Consistent
  resolved : ∀ a, .acquire a ∈ s.errands → a.scope.resource = a.request.resource
  /-- A connection that is live was made before. -/
  serial : ∀ c ∈ s.engine.sessions.connections, c.serial < s.engine.connected
  /-- Nothing arrived at a connection that was not made yet. -/
  silent : s.engine.mailboxes.SilentFrom s.engine.connected

theorem sound_start (settings : Settings) (graph : Graph) : (start settings graph).Sound where
  quiet := Locks.quiet_fresh settings.locking
  running := ⟨{}, rfl, rfl⟩
  untrapped := by simp [start, Engine.assemble, Mailboxes.Untrapped]
  consistent := ⟨Table.coherent_empty, Table.covered_empty⟩
  resolved := by simp [start]
  serial := by simp [start, Engine.assemble, Sessions.empty]
  silent := by simp [start, Engine.assemble, Mailboxes.SilentFrom, Mailboxes.unread]

variable {s s' s'' : Traffic} {turn : Turn} {taken taken' added added' : List Notification}

theorem flows_rfl (s : Traffic) : s.Flows s [] [] :=
  ⟨by simp, rfl, Nat.le_refl _, fun c _ hlistens => ⟨hlistens, by simp [heardBy]⟩⟩

theorem Flows.trans (h : s.Flows s' taken added) (h' : s'.Flows s'' taken' added') :
    s.Flows s'' (taken ++ taken') (added ++ added') where
  pending := by
    rw [← List.append_assoc, h.pending, List.append_assoc, h'.pending, List.append_assoc]
  processed := by
    rw [h'.processed, h.processed, List.length_append, Nat.add_assoc]
  connected := Nat.le_trans h.connected h'.connected
  unread c hserial hlistens := by
    obtain ⟨hbetween, hunread'⟩ := h'.unread c (Nat.lt_of_lt_of_le hserial h.connected) hlistens
    obtain ⟨hlistens, hunread⟩ := h.unread c hserial hbetween
    refine ⟨hlistens, ?_⟩
    rw [hunread', hunread, heardBy_append, List.append_assoc]

/-! ## Turns -/

/-- The mailboxes and the broadcaster are as they were, and no connection was made. -/
structure Beside (s s' : Traffic) : Prop where
  mailboxes : s'.engine.mailboxes = s.engine.mailboxes
  broadcaster : s'.engine.broadcaster = s.engine.broadcaster
  connected : s'.engine.connected = s.engine.connected
  live : ∀ c ∈ s'.engine.sessions.connections, c ∈ s.engine.sessions.connections

/-- The turn goes on with a replay, or is one. -/
def Replays (s : Traffic) (turn : Turn) (c : ConnectionId) (user : User) : Prop :=
  .replay c user ∈ s.errands ∨ turn = .call (.replay c user)

/-- What a turn comes to for the queue and for the connections. -/
structure Moves (s : Traffic) (turn : Turn) (s' : Traffic) : Prop where
  sound : s'.Sound
  flows : ∃ taken added, s.Flows s' taken added ∧
    Sends s.engine.locks.table s'.engine.locks.table (s.Replays turn) added
  /-- A connection that is made by the turn starts with nothing. -/
  silent : s'.engine.mailboxes.SilentFrom s.engine.connected

/-- Work on the locks only adds to the queue. -/
theorem Sound.sent (h : s.Sound)
    (hsent : s.engine.locks.Sent s'.engine.locks (s.Replays turn) added) (hbeside : s.Beside s')
    (hresolved : ∀ a, .acquire a ∈ s'.errands → a.scope.resource = a.request.resource) :
    s.Moves turn s' where
  sound :=
    { quiet := hsent.quiet h.quiet
      running := by rw [hbeside.broadcaster]; exact h.running
      untrapped := by rw [hbeside.mailboxes]; exact h.untrapped
      consistent := hsent.sends.consistent h.consistent
      resolved := hresolved
      serial := fun c hc => by rw [hbeside.connected]; exact h.serial c (hbeside.live c hc)
      silent := by rw [hbeside.connected, hbeside.mailboxes]; exact h.silent }
  silent := by rw [hbeside.mailboxes]; exact h.silent
  flows := by
    refine ⟨[], added, ⟨(hsent.pending h.quiet).symm, ?_, ?_, ?_⟩, hsent.sends⟩
    · simp [Traffic.processed, hbeside.broadcaster]
    · exact Nat.le_of_eq hbeside.connected.symm
    · rintro c - ⟨hlive, haccepts⟩
      rw [hbeside.mailboxes] at haccepts
      exact ⟨⟨hbeside.live c hlive, haccepts⟩, by
        simp [Traffic.unread, hbeside.mailboxes, heardBy]⟩

/-- A turn that leaves the locks alone adds nothing. -/
theorem Sound.beside (h : s.Sound) (hlocks : s'.engine.locks = s.engine.locks)
    (hbeside : s.Beside s')
    (hresolved : ∀ a, .acquire a ∈ s'.errands → a.scope.resource = a.request.resource) :
    s.Moves turn s' := by
  have hsent : s.engine.locks.Sent s'.engine.locks (s.Replays turn) [] := by
    rw [hlocks]
    exact Locks.sent_rfl _ _
  exact h.sent hsent hbeside hresolved

theorem beside_rfl (s : Traffic) : s.Beside s := ⟨rfl, rfl, rfl, fun _ => id⟩

theorem Sound.connect (h : s.Sound) (label : String) :
    s.Moves (.connect label) { s with engine := (s.engine.connect label).1 } where
  sound :=
    { quiet := h.quiet
      running := h.running
      untrapped := h.untrapped.insert _ rfl
      consistent := h.consistent
      resolved := h.resolved
      serial := fun c hc => by
        rcases Std.ExtTreeMap.mem_insert.1 hc with hnew | hold
        · rw [← Std.LawfulEqOrd.eq_of_compare hnew]
          exact Nat.lt_succ_self _
        · exact Nat.lt_succ_of_lt (h.serial c hold)
      silent := fun c hc => h.silent.insert _ rfl c (Nat.le_of_succ_le hc) }
  silent := h.silent.insert _ rfl
  flows := by
    refine ⟨[], [], ⟨List.append_nil _, rfl, Nat.le_succ _, fun c hserial hlistens => ?_⟩,
      .nothing rfl⟩
    -- the connection that was made has a number of its own
    have hne : (⟨label, s.engine.connected⟩ : ConnectionId) ≠ c := by
      rintro rfl
      exact Nat.lt_irrefl _ hserial
    obtain ⟨hlive, haccepts⟩ := hlistens
    simp only [Engine.connect, Sessions.connect, Std.ExtTreeMap.mem_insert,
      Std.compare_eq_iff_eq, hne, false_or] at hlive
    simp only [Engine.connect, Mailboxes.accepts, Mailboxes.add, Std.ExtTreeMap.getElem?_insert,
      Std.compare_eq_iff_eq, hne, if_false] at haccepts
    refine ⟨⟨hlive, haccepts⟩, ?_⟩
    refine (Mailboxes.unread_insert _ _ c _).trans ?_
    rw [if_neg hne, heardBy, List.filterMap_nil, List.append_nil]
    rfl

theorem Sound.close (h : s.Sound) (c : ConnectionId) :
    s.Moves (.close c)
      { s with engine := { s.engine with mailboxes := s.engine.mailboxes.shut c } } where
  sound :=
    { quiet := h.quiet
      running := h.running
      untrapped := h.untrapped.insert c rfl
      consistent := h.consistent
      resolved := h.resolved
      serial := h.serial
      silent := h.silent.insert c rfl }
  silent := h.silent.insert c rfl
  flows := by
    refine ⟨[], [], ⟨List.append_nil _, rfl, Nat.le_refl _, fun c' _ hlistens => ?_⟩,
      .nothing rfl⟩
    obtain ⟨hlive, haccepts⟩ := hlistens
    have hne : c ≠ c' := by
      rintro rfl
      simp [Mailboxes.accepts, Mailboxes.shut] at haccepts
    simp only [Mailboxes.accepts, Mailboxes.shut, Std.ExtTreeMap.getElem?_insert,
      Std.compare_eq_iff_eq, hne, if_false] at haccepts
    refine ⟨⟨hlive, haccepts⟩, ?_⟩
    refine (Mailboxes.unread_insert _ c c' _).trans ?_
    rw [if_neg hne, heardBy, List.filterMap_nil, List.append_nil]
    rfl

/-- The broadcaster hands out the oldest notification. -/
theorem Sound.engine_deliver (h : s.Sound) {n : Notification} {rest : List Notification}
    (hpending : s.pending = n :: rest) :
    ∃ b, s.engine.broadcaster = some b ∧ b.phase = .running ∧
      s.engine.withDelivery (·.step s.engine.sessions false) =
        { s.engine with
          broadcaster := some { b with processed := b.processed + 1 }
          mailboxes := s.engine.mailboxes.deliver s.engine.sessions n
          locks := { s.engine.locks with
            queue := { s.engine.locks.queue with pending := rest } } } := by
  obtain ⟨b, hb, hrunning⟩ := h.running
  have hstep := Delivery.step_of_pending_eq_cons (d := ⟨b, s.engine.locks.queue,
    s.engine.mailboxes⟩) hrunning hpending h.untrapped s.engine.sessions
  refine ⟨b, hb, hrunning, ?_⟩
  unfold Engine.withDelivery
  rw [hb]
  dsimp only
  rw [hstep]

/-- The broadcaster takes at most one notification off the queue. -/
theorem Sound.deliver (h : s.Sound) :
    s.Moves .deliver
      { s with engine := s.engine.withDelivery (·.step s.engine.sessions false) } := by
  cases hpending : s.pending with
  | nil =>
    obtain ⟨b, hb, hrunning⟩ := h.running
    -- with an empty queue the consumer has nothing to do
    have hidle : s.engine.withDelivery (·.step s.engine.sessions false) = s.engine := by
      unfold Engine.withDelivery
      rw [hb]
      dsimp only
      rw [Delivery.step_of_pending_eq_nil hrunning hpending, ← hb]
    rw [hidle]
    exact h.beside rfl s.beside_rfl h.resolved
  | cons n rest =>
    obtain ⟨b, hb, hrunning, hengine⟩ := h.engine_deliver hpending
    rw [hengine]
    -- a number not given out yet is no live connection, so it gets nothing
    have hsilent : (s.engine.mailboxes.deliver s.engine.sessions n).SilentFrom
        s.engine.connected := by
      intro c hc
      refine (Mailboxes.unread_deliver_of_not_mem fun hlive => ?_).trans (h.silent c hc)
      exact Nat.not_lt.2 hc (h.serial c hlive)
    refine ⟨?_, ?_, hsilent⟩
    · exact
        { quiet := ⟨h.quiet.isOpen, h.quiet.trap⟩
          running := ⟨_, rfl, hrunning⟩
          untrapped := h.untrapped.deliver _ _
          consistent := h.consistent
          resolved := h.resolved
          serial := h.serial
          silent := hsilent }
    · refine ⟨[n], [], ⟨?_, ?_, Nat.le_refl _, fun c _ hlistens => ?_⟩, .nothing rfl⟩
      · rw [hpending, List.append_nil]
        rfl
      · simp [Traffic.processed, hb]
      · obtain ⟨hlive, haccepts⟩ := hlistens
        rw [Mailboxes.accepts_deliver] at haccepts
        exact ⟨⟨hlive, haccepts⟩, Mailboxes.unread_deliver_of_listens hlive haccepts⟩

theorem beside_fire (s : Traffic) (t : GraceTimer) : s.Beside (s.take (.fire t)) where
  mailboxes := by
    simp only [take, Engine.reclaim]
    split
    · rfl
    · split <;> rfl
  broadcaster := by
    simp only [take, Engine.reclaim]
    split
    · rfl
    · split <;> rfl
  connected := s.engine.connected_reclaim t
  live c hc := by
    rwa [take, Engine.connections_reclaim] at hc

theorem Sound.fire (h : s.Sound) (t : GraceTimer) : s.Moves (.fire t) (s.take (.fire t)) := by
  by_cases hdue : s.engine.grace.Registered t
  · obtain ⟨added, hsent⟩ := Call.sent h.quiet (.releaseAll t.user)
    have hlocks := hsent.agree (Engine.reclaims_of_registered hdue).locks
    exact h.sent (hlocks.mono fun _ _ => nofun) (s.beside_fire t) h.resolved
  · refine h.beside ?_ (s.beside_fire t) h.resolved
    rw [take, Engine.reclaim_of_not_registered hdue]

theorem Sound.proceed (h : s.Sound) (now : Nat) {errand : Errand} (hmem : errand ∈ s.errands) :
    s.Moves (.proceed now errand) (s.proceed now errand) := by
  have hkept : ∀ a, .acquire a ∈ s.errands.erase errand → a.scope.resource = a.request.resource :=
    fun a ha => h.resolved a (List.mem_of_mem_erase ha)
  cases errand with
  | inform n event =>
    have hresolved : ∀ a, .acquire a ∈ (s.proceed now (.inform n event)).errands →
        a.scope.resource = a.request.resource := by
      intro a ha
      rcases List.mem_append.1 ha with ha | ha
      · cases hc : event.connection <;> simp [hc] at ha
      · exact hkept a ha
    obtain ⟨grace, followed, hfollow⟩ := s.engine.follow_eq (.ofTick now) event
    refine h.beside ?_ ?_ hresolved
    · simp [Traffic.proceed, hfollow]
    · simp only [Traffic.proceed, hfollow]
      exact ⟨rfl, rfl, rfl, fun _ => id⟩
  | replay c user =>
    have hreplays : s.Replays (.proceed now (.replay c user)) c user := .inl hmem
    exact h.sent (Locks.sent_replay h.quiet hreplays) ⟨rfl, rfl, rfl, fun _ => id⟩ hkept
  | acquire a =>
    obtain ⟨added, hsent⟩ := Call.sent h.quiet (.attempt now a (h.resolved a hmem))
    refine h.sent (hsent.mono (by rintro c user ⟨⟩)) ⟨rfl, rfl, rfl, fun _ => id⟩
      fun next hnext => ?_
    rcases List.mem_append.1 hnext with hnext | hnext
    · split at hnext
      · next hwaiting =>
        obtain ⟨hrequest, -, hscope⟩ := Locks.attempt_waiting hwaiting
        obtain rfl := Errand.acquire.inj (List.mem_singleton.1 hnext)
        rw [hrequest, hscope]
        exact h.resolved a hmem
      · simp at hnext
      · simp at hnext
    · exact hkept next hnext

/-- Every turn adds to the queue what it did to the table, and what it takes off has arrived. -/
theorem Takes.moves (htakes : s.Takes turn s') (h : s.Sound) : s.Moves turn s' := by
  cases htakes with
  | idle => exact h.beside rfl s.beside_rfl h.resolved
  | connect label => exact h.connect label
  | close c => exact h.close c
  | login hlogin =>
    refine h.beside rfl ⟨rfl, rfl, rfl, fun c hc => ?_⟩ (by simpa [issue] using h.resolved)
    -- who logs in was connected before
    rw [issue, Std.ExtTreeMap.mem_iff_isSome_getElem?, hlogin.connections] at hc
    rw [Std.ExtTreeMap.mem_iff_isSome_getElem?]
    split at hc
    · next hsame => simp [← hsame, hlogin.free]
    · exact hc
  | hangUp hlogout => exact h.beside rfl ⟨rfl, rfl, rfl, fun c => hlogout.live⟩ h.resolved
  | logout hlogout =>
    exact h.beside rfl ⟨rfl, rfl, rfl, fun c => hlogout.live⟩
      (by simpa [issue] using h.resolved)
  | ask hbegin =>
    refine h.beside rfl ⟨rfl, rfl, rfl, fun _ => id⟩ fun a ha => ?_
    rcases List.mem_cons.1 ha with heq | ha
    · obtain rfl := Errand.acquire.inj heq
      obtain ⟨hrequest, -, hscope⟩ := Locks.of_begin hbegin
      rw [hrequest]
      exact Graph.resource_scope? hscope
    · exact h.resolved a ha
  | proceed hmem => exact h.proceed _ hmem
  | abandon a =>
    exact h.beside rfl ⟨rfl, rfl, rfl, fun _ => id⟩ fun a' ha' =>
      h.resolved a' (List.mem_of_mem_erase ha')
  | call c =>
    obtain ⟨added, hsent⟩ := Call.sent h.quiet c
    exact h.sent (hsent.mono fun _ _ hc => .inr (congrArg Turn.call hc))
      ⟨rfl, rfl, rfl, fun _ => id⟩ h.resolved
  | fire t => exact h.fire t
  | deliver => exact h.deliver
  | remould graph => exact h.beside rfl ⟨rfl, rfl, rfl, fun _ => id⟩ h.resolved

theorem Sound.run (h : s.Sound) (turns : List Turn) : (s.run turns).Sound :=
  invariant_run (fun _ _ _ _ htakes h => (htakes.moves h).sound) h

/-- Left to itself, the broadcaster hands out all that is queued, and nobody stops listening. -/
theorem Sound.run_deliver (h : s.Sound) :
    let f := s.run (List.replicate s.pending.length .deliver)
    f.processed = s.processed + s.pending.length ∧ ∀ c, s.Listens c → f.Listens c := by
  induction hpending : s.pending generalizing s with
  | nil => exact ⟨rfl, fun _ => id⟩
  | cons n rest ih =>
    have hsound := (s.takes_take .deliver).moves h |>.sound
    obtain ⟨b, hb, -, hengine⟩ := h.engine_deliver hpending
    have hrest : (s.take .deliver).pending = rest := by
      simp only [take, hengine, Traffic.pending]
    have hprocessed : (s.take .deliver).processed = s.processed + 1 := by
      simp only [take, hengine, Traffic.processed, hb]
      rfl
    have hlistens : ∀ c, s.Listens c → (s.take .deliver).Listens c := by
      rintro c ⟨hlive, haccepts⟩
      simp only [take, hengine, Listens]
      exact ⟨hlive, (Mailboxes.accepts_deliver _ _ _ _).trans haccepts⟩
    obtain ⟨hcount, hstay⟩ := ih hsound hrest
    refine ⟨?_, fun c hc => hstay c (hlistens c hc)⟩
    refine hcount.trans ?_
    rw [hprocessed, List.length_cons, Nat.add_assoc, Nat.add_comm 1]

/-- What a run takes off the queue has arrived at whoever still listens. -/
theorem Sound.flows_run (h : s.Sound) (turns : List Turn) :
    ∃ taken added, s.Flows (s.run turns) taken added := by
  induction turns generalizing s with
  | nil => exact ⟨[], [], s.flows_rfl⟩
  | cons turn turns ih =>
    have hmoves := (s.takes_take turn).moves h
    obtain ⟨taken, added, hfirst, -⟩ := hmoves.flows
    obtain ⟨taken', added', hrest⟩ := ih hmoves.sound
    exact ⟨_, _, hfirst.trans hrest⟩

end Traffic

end SceneLocks
