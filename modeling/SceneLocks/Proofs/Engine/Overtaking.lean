import SceneLocks.Proofs.Engine.Interleaving

/-!
# Events that overtake

The registry of the sessions and the supervisor of the grace periods are guarded one by one, and
a session event is on its way between the two. So the supervisor may hear of a login before it
hears of an earlier disconnect of the same user, and then starts a grace period of a user who is
there. Nothing else puts a connected user on the list (`isSome_pending_run_iff`).
-/

namespace SceneLocks

open Time

/-! ## Timers that stand -/

/-- The record of the timer goes, or another one takes its place: its user came, left again, or
the timer fired. -/
def Incident.Settles (t : GraceTimer) : Incident → Prop
  | .heard _ event timer => event.user = t.user ∧ (event.kind = .disconnected → timer.isSome)
  | .fired t' => t' = t

/-- The timer was started, and nothing has settled it since. -/
def Standing (past : List Incident) (t : GraceTimer) : Prop :=
  ∃ since before n event, past = since ++ .heard n event (some t) :: before ∧
    ∀ i ∈ since, ¬ i.Settles t

theorem standing_cons {i : Incident} {past : List Incident} {t : GraceTimer} :
    Standing (i :: past) t ↔
      (∃ n event, i = .heard n event (some t)) ∨ Standing past t ∧ ¬ i.Settles t := by
  constructor
  · rintro ⟨since, before, n, event, hpast, hsince⟩
    -- the timer was started just now, or it stood before
    cases since with
    | nil =>
      obtain ⟨rfl, -⟩ := List.cons.inj hpast
      exact .inl ⟨n, event, rfl⟩
    | cons i' since =>
      obtain ⟨rfl, rfl⟩ := List.cons.inj hpast
      simp only [List.mem_cons, forall_eq_or_imp] at hsince
      exact .inr ⟨⟨since, before, n, event, rfl, hsince.2⟩, hsince.1⟩
  · rintro (⟨n, event, rfl⟩ | ⟨⟨since, before, n, event, rfl, hsince⟩, hi⟩)
    · exact ⟨[], past, n, event, rfl, by simp⟩
    · refine ⟨i :: since, before, n, event, rfl, ?_⟩
      simpa only [List.mem_cons, forall_eq_or_imp] using ⟨hi, hsince⟩

namespace Traffic

variable {s s' : Traffic} {turn : Turn}

/-! ## The records of the supervisor -/

/-- The records of the supervisor are those of the timers that stand. -/
structure Recorded (s : Traffic) : Prop where
  started : ∀ n event t, .heard n event (some t) ∈ s.past →
    event.kind = .disconnected ∧ event.user = t.user
  registered : ∀ t, s.engine.grace.Registered t ↔ Standing s.past t

theorem recorded_start (settings : Settings) (graph : Graph) : (start settings graph).Recorded where
  started := by simp [start]
  registered t := by simp [start, Engine.assemble, Grace.Registered, Standing]

theorem Recorded.congr (h : s.Recorded) (hgrace : s'.engine.grace = s.engine.grace)
    (hpast : s'.past = s.past) : s'.Recorded :=
  ⟨hpast ▸ h.started, by rw [hgrace, hpast]; exact h.registered⟩

/-- What a timer's record needs follows from the event that the supervisor hears of. -/
theorem Recorded.heard (h : s.Recorded) (n : Nat) (event : SessionEvent)
    (timer : Option GraceTimer) (hpast : s'.past = .heard n event timer :: s.past)
    (hstarted : ∀ t, timer = some t → event.kind = .disconnected ∧ event.user = t.user)
    (hregistered : ∀ t, s'.engine.grace.Registered t ↔
      timer = some t ∨ s.engine.grace.Registered t ∧
        ¬ (event.user = t.user ∧ (event.kind = .disconnected → timer.isSome))) :
    s'.Recorded where
  started m e t hmem := by
    rw [hpast, List.mem_cons] at hmem
    rcases hmem with heq | hmem
    · cases heq
      exact hstarted t rfl
    · exact h.started m e t hmem
  registered t := by
    rw [hregistered, hpast, standing_cons, h.registered]
    simp [Incident.Settles]

theorem Recorded.inform (h : s.Recorded) (now n : Nat) (event : SessionEvent) :
    (s.proceed now (.inform n event)).Recorded := by
  rcases s.engine.follow_cases (.ofTick now) event with ⟨hkind, hfollow⟩ | ⟨hkind, hfollow⟩
  · rcases s.engine.grace.onDisconnect_cases (.ofTick now) event.user with
      ⟨deadline, -, hgrace⟩ | ⟨-, hgrace⟩
    · refine h.heard n event (some ⟨event.user, s.engine.grace.generation + 1⟩)
        (by simp [proceed, hfollow, hgrace]) ?_ fun t => ?_
      · rintro t ⟨⟩
        exact ⟨hkind, rfl⟩
      · simp only [proceed, hfollow, hgrace, Grace.registered_insert]
        grind
    · -- the clock does not reach the deadline, and the records stay as they are
      refine h.heard n event none (by simp [proceed, hfollow, hgrace]) (by simp) fun t => ?_
      have hstays : ¬ (event.kind = .disconnected → (none : Option GraceTimer).isSome) := by
        simp [hkind]
      simp only [proceed, hfollow, hgrace, hstays]
      simp [Grace.Registered]
  · refine h.heard n event none (by simp [proceed, hfollow]) (by simp) fun t => ?_
    simp only [proceed, hfollow, Grace.onConnect, Grace.registered_erase]
    grind

theorem Recorded.fire (h : s.Recorded) (t : GraceTimer) : (s.take (.fire t)).Recorded where
  started n event t' hmem := by
    simp only [take, List.mem_cons, reduceCtorEq, false_or] at hmem
    exact h.started n event t' hmem
  registered t' := by
    have hsettles : (Incident.fired t).Settles t' ↔ t = t' := Iff.rfl
    simp only [take, standing_cons, reduceCtorEq, exists_false, false_or, hsettles, ← h.registered]
    by_cases hdue : s.engine.grace.Registered t
    · -- the record that goes is the user's only one
      rw [(Engine.reclaims_of_registered hdue).grace, Grace.registered_erase]
      constructor
      · rintro ⟨huser, hregistered⟩
        exact ⟨hregistered, fun h => huser (h ▸ rfl)⟩
      · rintro ⟨hregistered, hne⟩
        exact ⟨fun huser => hne (hdue.eq hregistered huser), hregistered⟩
    · rw [Engine.reclaim_of_not_registered hdue, iff_self_and]
      rintro hregistered rfl
      exact hdue hregistered

theorem Takes.recorded (htakes : s.Takes turn s') (h : s.Recorded) : s'.Recorded := by
  cases htakes with
  | fire t => exact h.fire t
  | @proceed now errand =>
    cases errand with
    | inform n event => exact h.inform now n event
    | replay | acquire => exact h.congr rfl rfl
  | deliver => exact h.congr (s.engine.grace_withDelivery _) rfl
  | idle => exact h
  | connect | close | login | hangUp | logout | ask | abandon | call | remould =>
    exact h.congr rfl rfl

/-! ## The order of the tickets -/

/-- The tickets tell the session events apart, and of the events of a connected user the login
has the last ticket. -/
structure Orderly (s : Traffic) : Prop where
  fresh : ∀ n event, s.Issued n event → n < s.tickets
  distinct : ∀ n event event', s.Issued n event → s.Issued n event' → event = event'
  /-- Who comes has a connection, and who left has none. -/
  kind : ∀ n event, s.Issued n event → (event.kind = .disconnected ↔ event.connection = none)
  latest : ∀ user c, s.engine.sessions.session? user = some (some c) →
    ∃ n event, s.Issued n event ∧ event.user = user ∧ event.connection = some c ∧
      ∀ n' event', s.Issued n' event' → event'.user = user → n' ≤ n

theorem orderly_start (settings : Settings) (graph : Graph) : (start settings graph).Orderly where
  fresh := by simp [start, Issued]
  distinct := by simp [start, Issued]
  kind := by simp [start, Issued]
  latest := by simp [start, Engine.assemble, Sessions.session?, Sessions.empty]

/-- A new event gets the last ticket of all; the user it is about is the only one to come or go. -/
theorem Orderly.issue (h : s.Orderly) (sessions : Sessions) (event : SessionEvent)
    (hkind : event.kind = .disconnected ↔ event.connection = none)
    (hsession : ∀ user c, sessions.session? user = some (some c) →
      event.user = user ∧ event.connection = some c ∨
      event.user ≠ user ∧ s.engine.sessions.session? user = some (some c)) :
    (s.issue sessions event).Orderly where
  fresh n e he := by
    rcases (s.issued_issue sessions event n e).1 he with ⟨rfl, -⟩ | he
    · exact Nat.lt_succ_self _
    · exact Nat.lt_succ_of_lt (h.fresh n e he)
  distinct n e e' he he' := by
    rcases (s.issued_issue sessions event n e).1 he with ⟨hn, hnew⟩ | hold
    · rcases (s.issued_issue sessions event n e').1 he' with ⟨-, hnew'⟩ | hold'
      · exact hnew.trans hnew'.symm
      · exact absurd (h.fresh n e' hold') (Nat.not_lt.2 (Nat.le_of_eq hn.symm))
    · rcases (s.issued_issue sessions event n e').1 he' with ⟨hn, -⟩ | hold'
      · exact absurd (h.fresh n e hold) (Nat.not_lt.2 (Nat.le_of_eq hn.symm))
      · exact h.distinct n e e' hold hold'
  kind n e he := by
    rcases (s.issued_issue sessions event n e).1 he with ⟨-, rfl⟩ | he
    · exact hkind
    · exact h.kind n e he
  latest user c hconnected := by
    -- the new ticket is the highest; for other users the latest stays the latest
    rcases hsession user c hconnected with ⟨huser, hc⟩ | ⟨huser, hbefore⟩
    · refine ⟨s.tickets, event, (s.issued_issue sessions event _ _).2 (.inl ⟨rfl, rfl⟩), huser, hc,
        fun n' e' he' _ => ?_⟩
      rcases (s.issued_issue sessions event n' e').1 he' with ⟨rfl, -⟩ | he'
      · exact Nat.le_refl _
      · exact Nat.le_of_lt (h.fresh n' e' he')
    · obtain ⟨n, e, he, hname, hc, hlatest⟩ := h.latest user c hbefore
      refine ⟨n, e, (s.issued_issue sessions event n e).2 (.inr he), hname, hc,
        fun n' e' he' hname' => ?_⟩
      rcases (s.issued_issue sessions event n' e').1 he' with ⟨-, rfl⟩ | he'
      · exact absurd hname' huser
      · exact hlatest n' e' he' hname'

theorem Takes.orderly (htakes : s.Takes turn s') (h : s.Orderly) : s'.Orderly := by
  rcases htakes.issued with ⟨c, user, sessions, event, hlogin, rfl⟩ |
    ⟨c, sessions, event, hlogout, rfl⟩ | hstays
  · obtain ⟨huser, hconnection⟩ := hlogin.names
    apply h.issue
    · rcases hlogin.kind with ⟨hkind, -⟩ | ⟨hkind, -⟩ <;> simp [hkind, hconnection]
    · intro user' c' hconnected
      rw [hlogin.session?] at hconnected
      split at hconnected
      · next hsame =>
        exact .inl ⟨huser.trans hsame, hconnection.trans (Option.some.inj hconnected)⟩
      · next hother => exact .inr ⟨huser ▸ hother, hconnected⟩
  · obtain ⟨hkind, hconnection⟩ := hlogout.kind event rfl
    apply h.issue
    · simp [hkind, hconnection]
    · intro user' c' hconnected
      rw [hlogout.session?_eq] at hconnected
      split at hconnected
      · cases hknown : s.engine.sessions.session? user' <;> simp [hknown] at hconnected
      · next hother => exact .inr ⟨hother, hconnected⟩
  · have hlatest := fun user c hconnected => h.latest user c (hstays.session user c hconnected)
    refine ⟨?_, ?_, ?_, ?_⟩
    · simpa only [hstays.issued, hstays.tickets] using h.fresh
    · simpa only [hstays.issued] using h.distinct
    · simpa only [hstays.issued] using h.kind
    · simpa only [hstays.issued] using hlatest

/-! ## Connected users with a record -/

/-- The supervisor heard of the user's login on the connection before it heard of a disconnect
of the user that came earlier, and the timer that it started then stands. -/
def Overtaken (past : List Incident) (user : User) (c : ConnectionId) : Prop :=
  ∃ since before d l left came timer,
    past = since ++ .heard d left (some timer) :: before ∧ (∀ i ∈ since, ¬ i.Settles timer) ∧
    left.kind = .disconnected ∧ left.user = user ∧
    .heard l came none ∈ before ∧ came.user = user ∧ came.connection = some c ∧ d < l

/-- Once the supervisor has heard of all that happened to a user, a user who is connected is to
lose the locks just when a disconnect overtook the login. -/
theorem isSome_pending_run_iff (settings : Settings) (graph : Graph) (turns : List Turn)
    (user : User) (c : ConnectionId) :
    let s := (start settings graph).run turns
    (∀ n event, .inform n event ∈ s.errands → event.user ≠ user) →
    s.engine.sessions.session? user = some (some c) →
    (s.engine.grace.pending[user]?.isSome ↔ Overtaken s.past user c) := by
  intro s hdone hconnected
  have hrecorded : s.Recorded :=
    invariant_run (fun _ _ _ _ htakes => htakes.recorded) (recorded_start settings graph)
  have horderly : s.Orderly :=
    invariant_run (fun _ _ _ _ htakes => htakes.orderly) (orderly_start settings graph)
  constructor
  · intro hpending
    obtain ⟨p, hp⟩ := Option.isSome_iff_exists.1 hpending
    obtain ⟨since, before, d, left, hpast, hsince⟩ :=
      (hrecorded.registered ⟨user, p.generation⟩).1 ⟨p, hp, rfl⟩
    have hleft : .heard d left (some ⟨user, p.generation⟩) ∈ s.past := by simp [hpast]
    obtain ⟨hkind, hname⟩ := hrecorded.started d left _ hleft
    obtain ⟨l, came, hissued, hcame, hc, hlatest⟩ := horderly.latest user c hconnected
    have hlogin : came.kind ≠ .disconnected := by
      rw [Ne, horderly.kind l came hissued, hc]
      nofun
    -- the login was heard of, but not since the timer started: it would have settled it
    obtain ⟨timer, hheard⟩ := hissued.resolve_left fun hinform => hdone l came hinform hcame
    have htimer : timer = none := by
      rw [Option.eq_none_iff_forall_ne_some]
      rintro t rfl
      exact hlogin (hrecorded.started l came t hheard).1
    subst htimer
    have hbefore : .heard l came none ∈ before := by
      rw [hpast, List.mem_append, List.mem_cons] at hheard
      rcases hheard with hheard | hheard | hheard
      · exact absurd ⟨hcame, fun hgone => absurd hgone hlogin⟩ (hsince _ hheard)
      · cases hheard
      · exact hheard
    have hearlier : d < l := by
      refine Nat.lt_of_le_of_ne (hlatest d left (.inr ⟨_, hleft⟩) hname) ?_
      rintro rfl
      exact hlogin (horderly.distinct d came left hissued (.inr ⟨_, hleft⟩) ▸ hkind)
    exact ⟨since, before, d, l, left, came, _, hpast, hsince, hkind, hname, hbefore, hcame, hc,
      hearlier⟩
  · rintro ⟨since, before, d, l, left, came, timer, hpast, hsince, -, hname, -⟩
    obtain ⟨p, hp, -⟩ := (hrecorded.registered timer).2 ⟨since, before, d, left, hpast, hsince⟩
    have hleft : .heard d left (some timer) ∈ s.past := by simp [hpast]
    rw [← hname, (hrecorded.started d left timer hleft).2, hp]
    rfl

/-- Alice leaves on one connection and is back on another, but the supervisor hears of that the
other way round. -/
def overtaking : List Turn :=
  let desk : ConnectionId := ⟨"desk", 0⟩
  let laptop : ConnectionId := ⟨"laptop", 1⟩
  let g := Graph.withRoots.insert "ap_1" (some Resource.project)
  [.connect "desk", .login desk "alice", .proceed 0 (.inform 0 ⟨.connected, "alice", some desk⟩),
    .proceed 0 (.replay desk "alice"), .call (.lock g 0 "ap_1" "alice" false),
    .connect "laptop", .disconnect desk, .login laptop "alice",
    .proceed 0 (.inform 2 ⟨.reconnected, "alice", some laptop⟩),
    .proceed 0 (.replay laptop "alice"), .proceed 0 (.inform 1 ⟨.disconnected, "alice", none⟩)]

/-- No call is under way any more and Alice is connected, yet the timer that fires five minutes
later takes her lock away. -/
theorem isSome_pending_run_iff_overtaking :
    let s := (start {} .withRoots).run overtaking
    let laptop : ConnectionId := ⟨"laptop", 1⟩
    s.errands = [] ∧ s.engine.sessions.session? "alice" = some (some laptop) ∧
      Overtaken s.past "alice" laptop ∧ s.engine.grace.pending["alice"]?.isSome ∧
      s.engine.locks.table.size = 1 ∧
      (s.take (.fire ⟨"alice", 1⟩)).engine.locks.table.size = 0 ∧
      (s.take (.fire ⟨"alice", 1⟩)).engine.sessions.session? "alice" = some (some laptop) := by
  intro s laptop
  have herrands : s.errands = [] := by decide +kernel
  have hconnected : s.engine.sessions.session? "alice" = some (some laptop) := by decide +kernel
  have hpending : s.engine.grace.pending["alice"]?.isSome := by decide +kernel
  have hiff := isSome_pending_run_iff {} .withRoots overtaking "alice" laptop
    (by simp [show ((start {} .withRoots).run overtaking).errands = [] from herrands]) hconnected
  exact ⟨herrands, hconnected, hiff.1 hpending, hpending, by decide +kernel, by decide +kernel,
    by decide +kernel⟩

end Traffic

end SceneLocks
