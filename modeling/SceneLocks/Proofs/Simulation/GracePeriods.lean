import SceneLocks.Proofs.Locks.Ledger
import SceneLocks.Proofs.Session.Reclamation
import SceneLocks.Proofs.Session.Sessions
import SceneLocks.Proofs.Simulation.Moves

/-!
# Grace periods follow the sessions

Sessions, grace periods and the agenda keep three records of one fact: a user whose newest note
is a disconnect has a disconnected session, a pending reclamation and an appointment for it. So
every reclamation follows a disconnect directly, at the tick at which the sleep of its timer
ends. A deadline that the clock does not reach is never entered, and no sleep is longer than the
longest one of the runtime, whatever the deadline says.
-/

namespace SceneLocks.Simulation

open Time

/-! ## Notes -/

/-- The newest note about a user. -/
def latest? (notes : List Note) (user : User) : Option Note := notes.find? (·.user = user)

theorem latest?_cons (n : Note) (notes : List Note) (user : User) :
    latest? (n :: notes) user = if n.user = user then some n else latest? notes user := by
  unfold latest?
  split
  · next h => rw [List.find?_cons_of_pos (by simpa using h)]
  · next h => rw [List.find?_cons_of_neg (by simpa using h)]

/-- A note goes on from the one before about the same user: a session that was reclaimed starts
anew, one that is disconnected can come back, and a reclamation follows a disconnect at its
deadline, or at the end of the longest sleep if that is sooner. -/
def Note.Follows (r : Runtime) (timeout : Duration) (n : Note) (previous : Option Note) : Prop :=
  match n.what with
  | .reported .connected => ∀ m ∈ previous, m.what = .reclaimed
  | .reported .reconnected => ∃ m ∈ previous, m.what = .reported .disconnected
  | .reported .disconnected =>
    ∃ m ∈ previous, m.what = .reported .connected ∨ m.what = .reported .reconnected
  | .reclaimed =>
    ∃ m ∈ previous, m.what = .reported .disconnected ∧
      ∃ deadline, (Instant.ofTick m.tick).after? timeout = some deadline ∧
        n.tick = min (Instant.tick deadline) (m.tick + r.longestSleep)

/-! ## What is kept about a user -/

namespace World

/-- What sessions, grace periods and agenda keep about a user, by the newest note. -/
def Keeps (w : World) (user : User) : Option Note → Prop
  | some ⟨tick, _, .reported .disconnected⟩ =>
    w.engine.sessions.session? user = some none ∧
    w.engine.grace.pending[user]?.map (·.deadline) =
      (Instant.ofTick tick).after? w.engine.grace.timeout ∧
    ∀ p, w.engine.grace.pending[user]? = some p →
      ⟨w.runtime.wakeTick tick w.engine.grace.timeout, .grace ⟨user, p.generation⟩⟩ ∈ w.agenda
  | some ⟨_, _, .reported .connected⟩ | some ⟨_, _, .reported .reconnected⟩ =>
    (∃ c, w.engine.sessions.session? user = some (some c)) ∧
    w.engine.grace.pending[user]? = none
  | some ⟨_, _, .reclaimed⟩ | none =>
    w.engine.sessions.session? user = none ∧ w.engine.grace.pending[user]? = none

variable {w w' : World} {user : User} {previous : Option Note}

/-- What is kept about a user depends on nothing but the user's own records. -/
theorem Keeps.congr (h : w.Keeps user previous)
    (hsession : w'.engine.sessions.session? user = w.engine.sessions.session? user)
    (hruntime : w'.runtime = w.runtime)
    (htimeout : w'.engine.grace.timeout = w.engine.grace.timeout)
    (hpending : w'.engine.grace.pending[user]? = w.engine.grace.pending[user]?)
    (hagenda : ∀ tick t, t.user = user → w.engine.grace.Registered t →
      ⟨tick, .grace t⟩ ∈ w.agenda → ⟨tick, .grace t⟩ ∈ w'.agenda) :
    w'.Keeps user previous := by
  unfold Keeps at h ⊢
  split at h
  · -- only after a disconnect the agenda matters
    obtain ⟨hdisconnected, hdeadline, happointed⟩ := h
    rw [hsession, hpending, hruntime, htimeout]
    exact ⟨hdisconnected, hdeadline, fun p hp => hagenda _ _ rfl ⟨p, hp, rfl⟩ (happointed p hp)⟩
  all_goals simpa only [hsession, hpending] using h

theorem Keeps.disconnected_iff (h : w.Keeps user previous) :
    w.engine.sessions.session? user = some none ↔
      ∃ n ∈ previous, n.what = .reported .disconnected := by
  unfold Keeps at h
  split at h
  · simp [h.1]
  · obtain ⟨⟨c, hc⟩, -⟩ := h
    simp [hc]
  · obtain ⟨⟨c, hc⟩, -⟩ := h
    simp [hc]
  · simp [h.1]
  · simp [h.1]

theorem Keeps.connected_iff (h : w.Keeps user previous) :
    (∃ c, w.engine.sessions.session? user = some (some c)) ↔
      ∃ n ∈ previous, n.what = .reported .connected ∨ n.what = .reported .reconnected := by
  unfold Keeps at h
  split at h
  · simp [h.1]
  · simp [h.1]
  · simp [h.1]
  · simp [h.1]
  · simp [h.1]

theorem Keeps.unknown_iff (h : w.Keeps user previous) :
    w.engine.sessions.session? user = none ↔ ∀ n ∈ previous, n.what = .reclaimed := by
  unfold Keeps at h
  split at h
  · simp [h.1]
  · obtain ⟨⟨c, hc⟩, -⟩ := h
    simp [hc]
  · obtain ⟨⟨c, hc⟩, -⟩ := h
    simp [hc]
  · simp [h.1]
  · simp [h.1]

/-- What a disconnect leaves behind: its deadline, if the clock gets there, with a timer. -/
theorem Keeps.of_disconnected (h : w.Keeps user previous) {n : Note} (hn : n ∈ previous)
    (hwhat : n.what = .reported .disconnected) :
    w.engine.grace.pending[user]?.map (·.deadline) =
      (Instant.ofTick n.tick).after? w.engine.grace.timeout ∧
    ∀ p, w.engine.grace.pending[user]? = some p →
      ⟨w.runtime.wakeTick n.tick w.engine.grace.timeout, .grace ⟨user, p.generation⟩⟩ ∈
        w.agenda := by
  obtain ⟨tick, other, what⟩ := n
  cases hwhat
  cases hn
  exact h.2

/-- A pending reclamation belongs to a disconnect. -/
theorem Keeps.pending (h : w.Keeps user previous) {p : Pending}
    (hp : w.engine.grace.pending[user]? = some p) :
    ∃ n ∈ previous, n.what = .reported .disconnected ∧
      (Instant.ofTick n.tick).after? w.engine.grace.timeout = some p.deadline ∧
      ⟨w.runtime.wakeTick n.tick w.engine.grace.timeout, .grace ⟨user, p.generation⟩⟩ ∈
        w.agenda := by
  unfold Keeps at h
  split at h
  · obtain ⟨-, hdeadline, happointed⟩ := h
    rw [hp] at hdeadline
    exact ⟨_, rfl, rfl, hdeadline.symm, happointed p hp⟩
  · simp [hp] at h
  · simp [hp] at h
  · simp [hp] at h
  · simp [hp] at h

/-- Nothing is pending for a user who is connected. -/
theorem Keeps.pending_of_connected (h : w.Keeps user previous)
    (hconnected : ∃ c, w.engine.sessions.session? user = some (some c)) :
    w.engine.grace.pending[user]? = none := by
  obtain ⟨c, hc⟩ := hconnected
  rw [Option.eq_none_iff_forall_ne_some]
  intro p hp
  -- what is pending belongs to a disconnect, after which nobody is connected
  obtain ⟨n, hn, hwhat, -⟩ := h.pending hp
  have hdisconnected := h.disconnected_iff.2 ⟨n, hn, hwhat⟩
  simp [hc] at hdisconnected

end World

/-! ## Timers on the agenda -/

namespace Agenda

/-- No timer has two appointments. -/
def Single (a : Agenda) : Prop :=
  ∀ tick tick' t, ⟨tick, .grace t⟩ ∈ a → ⟨tick', .grace t⟩ ∈ a → tick = tick'

theorem Single.of_subset {a a' : Agenda} (h : a.Single)
    (hsubset : ∀ tick t, ⟨tick, .grace t⟩ ∈ a' → ⟨tick, .grace t⟩ ∈ a) : a'.Single :=
  fun tick tick' t ht ht' => h tick tick' t (hsubset tick t ht) (hsubset tick' t ht')

/-- A timer that is new to the agenda gets one appointment. -/
theorem Single.add {a : Agenda} (h : a.Single) {t : GraceTimer}
    (hnew : ∀ tick, ⟨tick, .grace t⟩ ∉ a) (tick : Nat) : (a.add tick (.grace t)).Single := by
  intro tick₁ tick₂ t' h₁ h₂
  rcases mem_add.1 h₁ with heq₁ | h₁ <;> rcases mem_add.1 h₂ with heq₂ | h₂
  · cases heq₁
    cases heq₂
    rfl
  · cases heq₁
    exact absurd h₂ (hnew tick₂)
  · cases heq₂
    exact absurd h₁ (hnew tick₁)
  · exact h tick₁ tick₂ t' h₁ h₂

end Agenda

/-! ## Soundness -/

/-- A running world without traps: its connections and timers are numbered, and no appointment
was missed. -/
structure World.Sane (r : Runtime) (timeout : Duration) (w : World) : Prop where
  running : w.attachment = .running
  runtime : w.runtime = r
  configured : w.engine.grace.timeout = timeout
  trap : w.engine.locks.queue.trap = none
  sessions : w.engine.sessions.Coherent
  /-- The next connection is a new one. -/
  connected : ∀ c : ConnectionId, w.engine.sessions.connections[c]?.isSome →
    c.serial < w.engine.connected
  agenda : ∀ p ∈ w.agenda, w.now ≤ p.tick
  /-- The next timer is a new one. -/
  spent : ∀ tick t, ⟨tick, .grace t⟩ ∈ w.agenda → t.generation ≤ w.engine.grace.generation
  single : w.agenda.Single

/-- A timer of a new generation gets its appointment. -/
theorem World.Sane.startTimer {r : Runtime} {timeout : Duration} {w : World}
    (h : w.Sane r timeout) (user : User) (pending : Std.ExtTreeMap User Pending) :
    ({ w with
        engine.grace.generation := w.engine.grace.generation + 1
        engine.grace.pending := pending }.startTimer
      (some ⟨user, w.engine.grace.generation + 1⟩)).Sane r timeout where
  running := h.running
  runtime := h.runtime
  configured := h.configured
  trap := h.trap
  sessions := h.sessions
  connected := h.connected
  agenda p hp := by
    rcases Agenda.mem_add.1 hp with rfl | hp
    · exact w.runtime.le_wakeTick _ _
    · exact h.agenda p hp
  spent tick t ht := by
    rcases Agenda.mem_add.1 ht with heq | ht
    · cases heq
      exact Nat.le_refl _
    · exact Nat.le_succ_of_le (h.spent tick t ht)
  -- the generations on the agenda so far are all smaller
  single := h.single.add (fun tick ht => absurd (h.spent tick _ ht) (Nat.not_succ_le_self _)) _

namespace Chronicle

/-- What every chronicle of a running engine keeps to. -/
structure Sound (r : Runtime) (timeout : Duration) (c : Chronicle) : Prop
    extends c.world.Sane r timeout where
  keeps : ∀ user, c.world.Keeps user (latest? c.notes user)
  follows : ∀ n before, n :: before <:+ c.notes → n.Follows r timeout (latest? before n.user)

theorem sound_start (r : Runtime) (settings : Settings) (graph : Graph) :
    (start r settings graph).Sound r settings.locking.gracePeriod where
  running := rfl
  runtime := rfl
  configured := rfl
  trap := rfl
  sessions := Sessions.coherent_empty
  connected c h := by simp [start, Engine.assemble, Sessions.empty] at h
  agenda p h := by simp [start] at h
  spent tick t h := by simp [start] at h
  single tick tick' t h := by simp [start] at h
  keeps user := by
    simp [start, World.Keeps, latest?, Engine.assemble, Sessions.empty, Sessions.session?]
  follows n before h := by simp [start] at h

namespace Sound

variable {r : Runtime} {timeout : Duration} {c : Chronicle}

/-- Nothing happened to the sessions and the grace periods; the agenda gained tasks, and lost no
timer that a record waits for. -/
theorem beside (h : c.Sound r timeout) {w' : World}
    (hattachment : w'.attachment = c.world.attachment) (hruntime : w'.runtime = c.world.runtime)
    (hsessions : w'.engine.sessions = c.world.engine.sessions)
    (hconnected : w'.engine.connected = c.world.engine.connected)
    (hgrace : w'.engine.grace = c.world.engine.grace)
    (htrap : w'.engine.locks.queue.trap = none)
    (hagenda : ∀ p ∈ w'.agenda, w'.now ≤ p.tick)
    (hadded : ∀ tick t, ⟨tick, .grace t⟩ ∈ w'.agenda → ⟨tick, .grace t⟩ ∈ c.world.agenda)
    (hkept : ∀ tick t, c.world.engine.grace.Registered t → ⟨tick, .grace t⟩ ∈ c.world.agenda →
      ⟨tick, .grace t⟩ ∈ w'.agenda) : ({ c with world := w' } : Chronicle).Sound r timeout where
  running := hattachment.trans h.running
  runtime := hruntime.trans h.runtime
  configured := hgrace ▸ h.configured
  trap := htrap
  sessions := hsessions ▸ h.sessions
  connected := by
    dsimp only
    rw [hsessions, hconnected]
    exact h.connected
  agenda := hagenda
  spent tick t ht := by
    dsimp only at ht ⊢
    rw [hgrace]
    exact h.spent tick t (hadded tick t ht)
  single := h.single.of_subset hadded
  keeps user := (h.keeps user).congr (by rw [hsessions]) hruntime (by rw [hgrace])
    (by rw [hgrace]) fun tick t _ => hkept tick t
  follows := h.follows

theorem aside (h : c.Sound r timeout) {w' : World} (haside : c.world.Aside w') :
    ({ c with world := w' } : Chronicle).Sound r timeout := by
  refine h.beside haside.attachment haside.runtime haside.sessions haside.connected haside.grace
    (haside.trap h.trap) (fun p hp => ?_) (fun tick t ht => ?_) fun tick t _ => haside.kept _
  · rw [haside.now]
    rcases haside.added p hp with hp | ⟨htick, -⟩
    · exact h.agenda p hp
    · exact htick
  · rcases haside.added _ ht with ht | ⟨-, task, htask⟩
    · exact ht
    · cases htask

/-- Something happened to one user, and was noted. -/
theorem note (h : c.Sound r timeout) {w' : World} {n : Note} (hsane : w'.Sane r timeout)
    (hothers : ∀ user, user ≠ n.user →
      w'.engine.sessions.session? user = c.world.engine.sessions.session? user ∧
      w'.engine.grace.pending[user]? = c.world.engine.grace.pending[user]?)
    (hkept : ∀ tick t, t.user ≠ n.user → ⟨tick, .grace t⟩ ∈ c.world.agenda →
      ⟨tick, .grace t⟩ ∈ w'.agenda)
    (hkeeps : w'.Keeps n.user (some n))
    (hfollows : n.Follows r timeout (latest? c.notes n.user)) :
    ({ world := w', notes := n :: c.notes } : Chronicle).Sound r timeout where
  toSane := hsane
  keeps user := by
    rw [latest?_cons]
    split
    · next huser => exact huser ▸ hkeeps
    · next huser =>
      -- for the others all is as it was
      obtain ⟨hsession, hpending⟩ := hothers user (Ne.symm huser)
      refine (h.keeps user).congr hsession (hsane.runtime.trans h.runtime.symm)
        (hsane.configured.trans h.configured.symm) hpending fun tick t ht _ => ?_
      exact hkept tick t (by rw [ht]; exact Ne.symm huser)
  follows m before hsuffix := by
    rcases List.suffix_cons_iff.1 hsuffix with heq | hsuffix
    · obtain ⟨rfl, rfl⟩ := List.cons.inj heq
      exact hfollows
    · exact h.follows m before hsuffix

/-! ### Sessions -/

theorem connect (h : c.Sound r timeout) (label : String) :
    (c.perform (.connect label)).Sound r timeout := by
  let new : ConnectionId := ⟨label, c.world.engine.connected⟩
  have hnew : c.world.engine.sessions.connections[new]? = none := by
    -- the serial numbers of known connections are all smaller
    by_contra hknown
    exact absurd (h.connected new (Option.isSome_iff_ne_none.2 hknown)) (Nat.lt_irrefl _)
  refine { h with
    sessions := h.sessions.connect hnew
    connected := fun connection hconnection => ?_ }
  have hinsert : (c.world.engine.sessions.connections.insert new none)[connection]?.isSome :=
    hconnection
  rw [Std.ExtTreeMap.getElem?_insert] at hinsert
  change connection.serial < c.world.engine.connected + 1
  split at hinsert
  · next heq =>
    rw [← Std.compare_eq_iff_eq.1 heq]
    exact Nat.lt_succ_self _
  · exact Nat.lt_succ_of_lt (h.connected connection hinsert)

theorem login (h : c.Sound r timeout) (connection : ConnectionId) (user : User) :
    (c.perform (.login connection user)).Sound r timeout := by
  rcases World.login_of_running h.running connection user with ⟨e, hlogin⟩ | ⟨s, event, hlogin, heq⟩
  · simpa [perform, hear, hlogin, Answer.note?] using h
  · have huser := hlogin.names.1
    simp only [perform, hear, heq, Answer.note?, Option.toList_some, List.singleton_append]
    refine h.note ?_ (fun user' huser' => ?_) (fun _ _ _ => id) ?_ ?_
    · refine { h.toSane with
        trap := Call.trap_perform h.trap (.replay connection user)
        sessions := h.sessions.login hlogin
        connected := fun connection' hconnection => ?_ }
      dsimp only at hconnection
      rw [hlogin.connections] at hconnection
      split at hconnection
      · next hc =>
        rw [← hc]
        exact h.connected connection (by simp [hlogin.free])
      · exact h.connected connection' hconnection
    · rw [huser] at huser'
      refine ⟨?_, ?_⟩
      · dsimp only
        rw [hlogin.session?, if_neg (Ne.symm huser')]
      · simp [Grace.onConnect, Std.ExtTreeMap.getElem?_erase, Ne.symm huser']
    · -- the user is connected now, and nothing is pending for them
      have hconnected : s.session? user = some (some connection) := by
        rw [hlogin.session?, if_pos rfl]
      have hended : (c.world.engine.grace.pending.erase user)[user]? = none := by simp
      dsimp only
      rw [huser]
      rcases hlogin.kind with ⟨hkind, -⟩ | ⟨hkind, -⟩ <;> rw [hkind] <;>
        exact ⟨⟨connection, hconnected⟩, hended⟩
    · -- what is reported is what was known of the user
      dsimp only
      rw [huser]
      rcases hlogin.kind with ⟨hkind, hsession⟩ | ⟨hkind, hsession⟩ <;> rw [hkind]
      · exact (h.keeps user).disconnected_iff.1 hsession
      · exact (h.keeps user).unknown_iff.1 hsession

theorem connected_logout (h : c.Sound r timeout) {connection : ConnectionId} {s : Sessions}
    {event : Option SessionEvent} (hlogout : c.world.engine.sessions.LoggedOut connection s event)
    (connection' : ConnectionId) (hconnection : s.connections[connection']?.isSome) :
    connection'.serial < c.world.engine.connected := by
  rw [hlogout.connections] at hconnection
  split at hconnection
  · cases hconnection
  · exact h.connected connection' hconnection

/-- A user who was connected leaves: the grace period starts, unless its deadline is beyond the
clock. -/
theorem leave (h : c.Sound r timeout) {connection : ConnectionId} {s : Sessions}
    {event : SessionEvent} {grace : Grace} {timer : Option GraceTimer}
    (hlogout : c.world.engine.sessions.LoggedOut connection s (some event))
    (hgrace : c.world.engine.grace.onDisconnect c.world.instant event.user = (grace, timer)) :
    ({ world := c.world.leave s grace timer
       notes := ⟨c.world.now, event.user, .reported event.kind⟩ :: c.notes } :
      Chronicle).Sound r timeout := by
  have hsession : c.world.engine.sessions.session? event.user = some (some connection) :=
    (h.sessions _ _).1 hlogout.found
  have hleft : s.session? event.user = some none := by
    rw [hlogout.session?_eq, if_pos rfl, hsession]
    rfl
  have hothers (user : User) (huser : user ≠ event.user) :
      s.session? user = c.world.engine.sessions.session? user := by
    rw [hlogout.session?_eq, if_neg (Ne.symm huser)]
  have hfollows := (h.keeps event.user).connected_iff.1 ⟨connection, hsession⟩
  rw [(hlogout.kind event rfl).1]
  -- split by whether the deadline fits the clock: only then is anything registered
  rcases c.world.engine.grace.onDisconnect_cases c.world.instant event.user with
    ⟨deadline, hdeadline, hcase⟩ | ⟨hdeadline, hcase⟩ <;>
    obtain ⟨rfl, rfl⟩ := Prod.mk.inj (hgrace.symm.trans hcase) <;>
    simp only [World.leave, World.startTimer]
  · refine h.note ?_ (fun user huser => ⟨hothers user huser, ?_⟩)
      (fun tick t _ ht => Agenda.mem_add.2 (.inr ht)) ⟨hleft, ?_, fun p hp => ?_⟩ hfollows
    · exact { h.toSane.startTimer event.user _ with
        sessions := h.sessions.logout hlogout
        connected := h.connected_logout hlogout }
    · simp [Std.ExtTreeMap.getElem?_insert, Ne.symm huser]
    · dsimp only
      rw [Std.ExtTreeMap.getElem?_insert_self]
      exact hdeadline.symm
    · rw [Std.ExtTreeMap.getElem?_insert_self] at hp
      cases hp
      exact Agenda.mem_add.2 (.inl rfl)
  · -- nothing was pending for a user who was connected
    have hnone := (h.keeps event.user).pending_of_connected ⟨connection, hsession⟩
    refine h.note ?_ (fun user huser => ⟨hothers user huser, rfl⟩) (fun _ _ _ => id)
      ⟨hleft, ?_, fun p hp => ?_⟩ hfollows
    · exact { h.toSane with
        sessions := h.sessions.logout hlogout
        connected := h.connected_logout hlogout
        spent := fun tick t ht => Nat.le_succ_of_le (h.spent tick t ht) }
    · dsimp only
      rw [hnone]
      exact hdeadline.symm
    · simp [hnone] at hp

theorem disconnect (h : c.Sound r timeout) (connection : ConnectionId) :
    (c.perform (.disconnect connection)).Sound r timeout := by
  rcases World.disconnect_of_running h.running connection with
    ⟨e, heq⟩ | ⟨s, hlogout, heq⟩ | ⟨s, event, grace, timer, hlogout, hgrace, heq⟩
  · simpa [perform, hear, heq, Answer.note?] using h
  · simp only [perform, hear, heq, Answer.note?, Option.toList_none, List.nil_append]
    exact { h with
      sessions := h.sessions.logout hlogout
      connected := h.connected_logout hlogout
      keeps := fun user =>
        (h.keeps user).congr (hlogout.session? user) rfl rfl rfl fun _ _ _ _ => id }
  · simp only [perform, hear, heq, World.note?_departed, Option.toList_some,
      List.singleton_append]
    exact h.leave hlogout hgrace

/-! ### Time -/

theorem elapse (h : c.Sound r timeout) (tick : Nat) :
    (c.perform (.elapse tick)).Sound r timeout := by
  simp only [perform]
  split
  · next hnext =>
    exact h.beside rfl rfl rfl rfl rfl h.trap (fun p hp => Nat.max_le.2 ⟨h.agenda p hp, hnext p hp⟩)
      (fun _ _ => id) fun _ _ _ => id
  · exact h

/-- A timer that a record waits for fires when its sleep is over. -/
theorem tick_of_registered (h : c.Sound r timeout) {tick : Nat} {t : GraceTimer}
    (hregistered : c.world.engine.grace.Registered t)
    (hp : ⟨tick, .grace t⟩ ∈ c.world.agenda) :
    ∃ n ∈ latest? c.notes t.user, n.what = .reported .disconnected ∧
      ∃ deadline, (Instant.ofTick n.tick).after? timeout = some deadline ∧
        tick = min (Instant.tick deadline) (n.tick + r.longestSleep) := by
  obtain ⟨p, hpending, hgeneration⟩ := hregistered
  obtain ⟨n, hn, hwhat, hdeadline, happointed⟩ := (h.keeps t.user).pending hpending
  rw [h.configured] at hdeadline happointed
  rw [hgeneration] at happointed
  refine ⟨n, hn, hwhat, p.deadline, hdeadline, ?_⟩
  rw [h.single _ _ _ hp happointed, h.runtime, Runtime.wakeTick, ← Instant.eq_of_after? hdeadline]

/-- A timer that a record waits for takes the locks of its user and ends the session. -/
theorem reclaim (h : c.Sound r timeout) {t : GraceTimer}
    (hregistered : c.world.engine.grace.Registered t)
    (hp : ⟨c.world.now, .grace t⟩ ∈ c.world.agenda) :
    ({ world :=
        { c.world with
          agenda := c.world.agenda.erase ⟨c.world.now, .grace t⟩
          engine := c.world.engine.reclaim t }
       notes := ⟨c.world.now, t.user, .reclaimed⟩ :: c.notes } : Chronicle).Sound r timeout := by
  have hreclaims := Engine.reclaims_of_registered hregistered
  have hsessions := hreclaims.sessions
  rw [if_pos (Locks.isOk_releaseAll h.trap t.user)] at hsessions
  have hfollows := h.tick_of_registered hregistered hp
  have hdisconnected : c.world.engine.sessions.session? t.user = some none := by
    -- a registered timer belongs to a user whose last note is a disconnect
    obtain ⟨n, hn, hwhat, -⟩ := hfollows
    exact (h.keeps t.user).disconnected_iff.2 ⟨n, hn, hwhat⟩
  refine h.note ?_ (fun user huser => ⟨?_, ?_⟩)
    (fun tick t' ht' hq => (List.mem_erase_of_ne ?_).2 hq) ⟨?_, ?_⟩ hfollows
  · refine
      { running := h.running
        runtime := h.runtime
        configured := (congrArg Grace.timeout hreclaims.grace).trans h.configured
        trap := ?_
        sessions := hsessions ▸ h.sessions.forget t.user
        connected := fun connection hconnection => ?_
        agenda := fun q hq => h.agenda q (List.mem_of_mem_erase hq)
        spent := fun tick t' ht' => ?_
        single := h.single.of_subset fun _ _ => List.mem_of_mem_erase }
    · rw [hreclaims.locks.2]
      exact (Locks.enters_releaseAll _ _).trap h.trap
    · rw [hsessions, Sessions.connections_forget] at hconnection
      rw [Engine.connected_reclaim]
      exact h.connected connection hconnection
    · simp only [hreclaims.grace]
      exact h.spent tick t' (List.mem_of_mem_erase ht')
  · rw [hsessions, Sessions.session?_forget, if_neg fun h => huser h.1.symm]
  · simp only [hreclaims.grace]
    rw [Std.ExtTreeMap.getElem?_erase, if_neg]
    simpa using Ne.symm huser
  · -- the timer that fired is this user's and no other's
    rintro heq
    cases heq
    exact ht' rfl
  · rw [hsessions, Sessions.session?_forget, if_pos ⟨rfl, hdisconnected⟩]
  · simp only [hreclaims.grace]
    exact Std.ExtTreeMap.getElem?_erase_self

theorem act (h : c.Sound r timeout) (p : Appointment) : (c.perform (.act p)).Sound r timeout := by
  simp only [perform]
  split
  · next hdue =>
    obtain ⟨hp, hdue⟩ := hdue
    have hagenda : ∀ q ∈ c.world.agenda.erase p, c.world.now ≤ q.tick :=
      fun q hq => h.agenda q (List.mem_of_mem_erase hq)
    have hkept : ∀ q ∈ c.world.agenda, q ≠ p → q ∈ c.world.agenda.erase p :=
      fun q hq hne => (List.mem_erase_of_ne hne).2 hq
    obtain ⟨tick, t | task⟩ := p
    · by_cases hregistered : c.world.engine.grace.Registered t
      · obtain rfl : tick = c.world.now := Nat.le_antisymm hdue (h.agenda _ hp)
        have hclaim := Grace.claim?_of_registered hregistered
        -- time has not gone beyond the appointment, so it comes to pass at its tick
        simp only [World.perform, Activity.note?, hclaim, Option.map_some, Option.toList_some,
          List.singleton_append]
        exact h.reclaim hregistered hp
      · have hclaim := Grace.claim?_of_not_registered hregistered
        simp only [World.perform, Engine.reclaim_of_not_registered hregistered, Activity.note?,
          hclaim, Option.map_none, Option.toList_none, List.nil_append]
        refine h.beside rfl rfl rfl rfl rfl h.trap hagenda (fun _ _ => List.mem_of_mem_erase)
          fun tick' t' ht' hq => hkept _ hq ?_
        rintro heq
        cases heq
        exact hregistered ht'
    · -- a task works on the locks only
      have herased : ({ c with world.agenda := c.world.agenda.erase ⟨tick, .task task⟩ } :
          Chronicle).Sound r timeout :=
        h.beside rfl rfl rfl rfl rfl h.trap hagenda (fun _ _ => List.mem_of_mem_erase)
          fun _ _ _ hq => hkept _ hq (by rintro ⟨⟩)
      exact herased.aside (World.aside_runTask _ task)
  · exact h

theorem perform (h : c.Sound r timeout) (move : Move) : (c.perform move).Sound r timeout := by
  cases move with
  | connect label => exact h.connect label
  | login connection user => exact h.login connection user
  | disconnect connection => exact h.disconnect connection
  | call call => exact h.aside (World.aside_call c.world call)
  | schedule tick t => exact h.aside (World.aside_schedule (Nat.le_max_left _ _) t)
  | remould graph => exact h.aside ⟨rfl, rfl, rfl, rfl, rfl, rfl, id, fun _ => id, fun _ => .inl⟩
  | handOver => exact h.aside (World.aside_settleQueue c.world)
  | act p => exact h.act p
  | elapse tick => exact h.elapse tick

theorem run (h : c.Sound r timeout) (moves : List Move) : (c.run moves).Sound r timeout := by
  induction moves generalizing c with
  | nil => exact h
  | cons move moves ih => exact ih (h.perform move)

end Sound

/-! ## In step -/

/-- A user lost all locks, and the session was forgotten. -/
structure Reclaims (c c' : Chronicle) (user : User) : Prop where
  noted : c'.notes = ⟨c.world.now, user, .reclaimed⟩ :: c.notes
  locks : c'.world.engine.locks.Agree (c.world.engine.locks.releaseAll user).1
  grants : ∀ resource, c'.world.engine.locks.table.grants resource user = 0
  session : c'.world.engine.sessions.session? user = none

/-- The grace periods are in step with the sessions. -/
structure InStep (r : Runtime) (timeout : Duration) (c : Chronicle) : Prop where
  /-- A session is disconnected when the newest note about its user is a disconnect. -/
  disconnected : ∀ user, c.world.engine.sessions.session? user = some none ↔
    ∃ n ∈ latest? c.notes user, n.what = .reported .disconnected
  /-- Then its reclamation is pending for the deadline, if the clock gets there, and no other
  reclamation is pending. -/
  pending : ∀ user deadline, (user, deadline) ∈ c.world.engine.grace.deadlines ↔
    ∃ n ∈ latest? c.notes user, n.what = .reported .disconnected ∧
      (Instant.ofTick n.tick).after? timeout = some deadline
  /-- Its appointment is at the deadline, or at the end of the longest sleep if that is sooner.
  Time does not go beyond it, and when it is there the user loses all locks. -/
  appointed : ∀ user, ∀ n ∈ latest? c.notes user, n.what = .reported .disconnected →
    ∀ deadline, (Instant.ofTick n.tick).after? timeout = some deadline →
      ∃ p ∈ c.world.agenda,
        p.tick = min (Instant.tick deadline) (n.tick + r.longestSleep) ∧
        c.world.now ≤ p.tick ∧
        (c.world.now = p.tick → c.Reclaims (c.perform (.act p)) user)
  /-- Each event, and each reclamation, goes on from the note before about its user. -/
  follows : ∀ n before, n :: before <:+ c.notes → n.Follows r timeout (latest? before n.user)
  /-- A timer that fires has its user lose all locks, or leaves everything as it was. -/
  fires : ∀ p ∈ c.world.agenda, p.tick ≤ c.world.now → ∀ t, p.activity = .grace t →
    c.Reclaims (c.perform (.act p)) t.user ∨
      c.perform (.act p) = { c with world.agenda := c.world.agenda.erase p }

variable {r : Runtime} {timeout : Duration} {c : Chronicle}

theorem mem_deadlines {g : Grace} {user : User} {deadline : Instant} :
    (user, deadline) ∈ g.deadlines ↔ g.pending[user]?.map (·.deadline) = some deadline := by
  simp [Grace.deadlines, Std.ExtTreeMap.mem_toList_iff_getElem?_eq_some]

theorem Sound.reclaims_act (h : c.Sound r timeout) {p : Appointment} {t : GraceTimer}
    (hp : p ∈ c.world.agenda) (hdue : p.tick ≤ c.world.now) (ht : p.activity = .grace t)
    (hregistered : c.world.engine.grace.Registered t) :
    c.Reclaims (c.perform (.act p)) t.user := by
  obtain ⟨tick, activity⟩ := p
  cases ht
  simp only [Chronicle.perform, hp, hdue, and_self, if_true, World.perform, Activity.note?,
    Grace.claim?_of_registered hregistered]
  have hreclaims := Engine.reclaims_of_registered hregistered
  have hok := Locks.isOk_releaseAll h.trap t.user
  have hsessions := hreclaims.sessions
  rw [if_pos hok] at hsessions
  obtain ⟨n, hn, hwhat, -⟩ := h.tick_of_registered hregistered hp
  refine ⟨rfl, hreclaims.locks, fun resource => ?_, ?_⟩
  · rw [hreclaims.locks.1]
    exact Locks.grants_releaseAll hok resource
  · rw [hsessions, Sessions.session?_forget,
      if_pos ⟨rfl, (h.keeps t.user).disconnected_iff.2 ⟨n, hn, hwhat⟩⟩]

/-- A timer that no record waits for does nothing when it fires. -/
theorem perform_act_of_not_registered {p : Appointment} {t : GraceTimer}
    (hp : p ∈ c.world.agenda) (hdue : p.tick ≤ c.world.now) (ht : p.activity = .grace t)
    (hregistered : ¬ c.world.engine.grace.Registered t) :
    c.perform (.act p) = { c with world.agenda := c.world.agenda.erase p } := by
  obtain ⟨tick, activity⟩ := p
  cases ht
  simp only [Chronicle.perform, hp, hdue, and_self, if_true, World.perform, Activity.note?,
    Grace.claim?_of_not_registered hregistered, Engine.reclaim_of_not_registered hregistered]
  rfl

/-- In every chronicle of a running engine the grace periods are in step with the sessions. -/
theorem inStep_run (r : Runtime) (settings : Settings) (graph : Graph) (moves : List Move) :
    ((start r settings graph).run moves).InStep r settings.locking.gracePeriod := by
  have h := (sound_start r settings graph).run moves
  generalize (start r settings graph).run moves = c at h
  refine ⟨fun user => (h.keeps user).disconnected_iff, fun user deadline => ?_,
    fun user n hn hwhat deadline hdeadline => ?_, h.follows, fun p hp hdue t ht => ?_⟩
  · rw [mem_deadlines]
    constructor
    · intro hpending
      obtain ⟨p, hp, rfl⟩ := Option.map_eq_some_iff.1 hpending
      obtain ⟨n, hn, hwhat, hdeadline, -⟩ := (h.keeps user).pending hp
      exact ⟨n, hn, hwhat, h.configured ▸ hdeadline⟩
    · rintro ⟨n, hn, hwhat, hdeadline⟩
      rw [((h.keeps user).of_disconnected hn hwhat).1, h.configured, hdeadline]
  · obtain ⟨hpending, happointed⟩ := (h.keeps user).of_disconnected hn hwhat
    rw [h.configured] at hpending happointed
    obtain ⟨p, hp, -⟩ := Option.map_eq_some_iff.1 (hpending.trans hdeadline)
    refine ⟨_, happointed p hp, ?_, h.agenda _ (happointed p hp), fun hnow => ?_⟩
    · rw [Instant.eq_of_after? hdeadline, h.runtime, Runtime.wakeTick]
    · exact h.reclaims_act (t := ⟨user, p.generation⟩) (happointed p hp) (Nat.le_of_eq hnow.symm)
        rfl ⟨p, hp, rfl⟩
  · by_cases hregistered : c.world.engine.grace.Registered t
    · exact .inl (h.reclaims_act hp hdue ht hregistered)
    · exact .inr (perform_act_of_not_registered hp hdue ht hregistered)

end Chronicle

end SceneLocks.Simulation
