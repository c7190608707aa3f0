import SceneLocks.Proofs.Session.Correspondence
import SceneLocks.Proofs.Session.Mailboxes

/-!
# Broadcasting

The broadcaster while critical sections put notifications into its queue, connections come and
go, receiving ends are dropped, and somebody asks it to stop. Whatever happens in which order, it
hands out what got into the queue before that was closed, each notification once and in the order
of the queue, and a connection receives what it is in the audience of as long as it is registered
(`delivers_run`).
-/

namespace SceneLocks

/-! ## Steps of the broadcaster -/

namespace Delivery

/-- The queue is closed, and what is left in it remains to be handed out. -/
def shut (d : Delivery) : Delivery :=
  { d with broadcaster := { d.broadcaster with phase := .flushing }, queue := d.queue.close }

/-- The oldest notification was taken off the queue and handed out. -/
def handOut (d : Delivery) (s : Sessions) (n : Notification) (rest : List Notification) :
    Delivery where
  broadcaster :=
    { d.broadcaster with
      processed := d.broadcaster.processed + 1
      flushed :=
        if d.broadcaster.phase = .flushing then d.broadcaster.flushed + 1
        else d.broadcaster.flushed }
  queue := { d.queue with pending := rest }
  mailboxes := d.mailboxes.deliver s n

/-- What a step of the broadcaster comes to. -/
inductive Steps (d : Delivery) (s : Sessions) (stopping : Bool) : Delivery → Prop where
  | handsOut {n : Notification} {rest : List Notification} (active : d.isActive = true)
    (pending : d.queue.pending = n :: rest) : d.Steps s stopping (d.handOut s n rest)
  | shuts (running : d.broadcaster.phase = .running) (pending : d.queue.pending = [])
    (asked : stopping = true) : d.Steps s stopping d.shut
  | stops (flushing : d.broadcaster.phase = .flushing) (pending : d.queue.pending = []) :
    d.Steps s stopping { d with broadcaster := { d.broadcaster with phase := .stopped } }
  | waits (running : d.broadcaster.phase = .running) (pending : d.queue.pending = [])
    (unasked : stopping = false) : d.Steps s stopping d
  | rests (inactive : d.isActive = false) : d.Steps s stopping d

theorem steps_step {d : Delivery} (huntrapped : d.mailboxes.Untrapped) (s : Sessions)
    (stopping : Bool) : d.Steps s stopping (d.step s stopping) := by
  have hdispatch : ∀ n rest, dispatch { d with queue := { d.queue with pending := rest } } s n =
      d.handOut s n rest := by
    intro n rest
    simp [dispatch, handOut, huntrapped.springs s n]
  unfold step
  split
  · next hphase hpending =>
    rw [hdispatch]
    exact .handsOut (by simp [isActive, hphase]) hpending
  · next hphase hpending =>
    rw [hdispatch]
    exact .handsOut (by simp [isActive, hphase]) hpending
  · next hphase hpending =>
    split
    · next hasked => exact .shuts hphase hpending hasked
    · next hunasked => exact .waits hphase hpending (by simpa using hunasked)
  · next hphase hpending => exact .stops hphase hpending
  · next hphase => exact .rests (by simp [isActive, hphase])
  · next hphase => exact .rests (by simp [isActive, hphase])

/-- The steps that are left once a stop was requested. -/
def remaining (d : Delivery) : Nat :=
  match d.broadcaster.phase with
  | .running => d.queue.pending.length + 2
  | .flushing => d.queue.pending.length + 1
  | .stopped | .failed => 0

theorem remaining_le (d : Delivery) : d.remaining ≤ d.queue.pending.length + 2 := by
  unfold remaining
  split <;> omega

theorem Steps.remaining {d d' : Delivery} {s : Sessions} (h : d.Steps s true d') :
    d'.remaining = d.remaining - 1 := by
  cases h with
  | handsOut active pending =>
    have hphase : d.broadcaster.phase = .running ∨ d.broadcaster.phase = .flushing := by
      simpa [isActive] using active
    rcases hphase with hphase | hphase <;>
      simp [Delivery.remaining, handOut, hphase, pending]
  | shuts running pending asked => simp [Delivery.remaining, shut, Queue.close, running, pending]
  | stops flushing pending => simp [Delivery.remaining, flushing, pending]
  | waits running pending unasked => cases unasked
  | rests inactive =>
    unfold isActive at inactive
    unfold Delivery.remaining
    cases hphase : d.broadcaster.phase <;> simp [hphase] at inactive ⊢

/-- The notification that the next step hands out. -/
def next? (d : Delivery) : Option Notification :=
  if d.isActive then d.queue.pending.head? else none

theorem step_of_stopped {d : Delivery} (h : d.broadcaster.phase = .stopped) (s : Sessions)
    (stopping : Bool) : d.step s stopping = d ∧ d.next? = none := by
  simp [step, next?, isActive, h]

/-- A closed queue stays closed. -/
theorem isOpen_step {d : Delivery} (h : d.queue.isOpen = false) (s : Sessions) (stopping : Bool) :
    (d.step s stopping).queue.isOpen = false := by
  unfold step dispatch
  repeat' split
  all_goals first | exact h | rfl

end Delivery

/-! ## What goes on around the broadcaster -/

/-- The broadcaster and the connections that it serves, with what became of the notifications. -/
structure Relay where
  delivery : Delivery
  sessions : Sessions := .empty
  /-- Whether somebody asked the broadcaster to stop. -/
  stopping : Bool := false
  /-- What got into the queue, in this order. -/
  accepted : List Notification := []
  /-- What was handed out, each with the sessions of that moment. -/
  handedOut : List (Sessions × Notification) := []

namespace Relay

/-- A broadcaster that has just been started, before anybody connects. -/
def start : Relay where
  delivery := ⟨{}, {}, ∅⟩

/-- What happens to a relay. -/
inductive Act where
  /-- A critical section puts notifications into the queue. -/
  | enqueue (ns : List Notification)
  | session (call : SessionCall)
  /-- The receiving end of a connection is dropped. -/
  | shut (c : ConnectionId)
  /-- The broadcaster makes a step. -/
  | consume
  /-- Somebody asks the broadcaster to stop. -/
  | stop
  /-- The broadcaster follows the request, though something got into the queue since it looked. -/
  | leave
deriving DecidableEq, Repr

namespace Act

/-- The relay after an act. -/
def perform (r : Relay) : Act → Relay
  | .enqueue ns =>
    { r with
      delivery := { r.delivery with queue := r.delivery.queue.push ns }
      accepted := if r.delivery.queue.isOpen then r.accepted ++ ns else r.accepted }
  | .session call =>
    let m := r.delivery.mailboxes
    { r with
      delivery := { r.delivery with mailboxes := call.added?.elim m m.add }
      sessions := call.perform r.sessions }
  | .shut c => { r with delivery := { r.delivery with mailboxes := r.delivery.mailboxes.shut c } }
  | .consume =>
    { r with
      delivery := r.delivery.step r.sessions r.stopping
      handedOut := r.handedOut ++ (r.delivery.next?.map (r.sessions, ·)).toList }
  | .stop => { r with stopping := true }
  | .leave =>
    if r.stopping ∧ r.delivery.broadcaster.phase = .running then
      { r with delivery := r.delivery.shut }
    else r

/-- What an act tries to put into the queue. -/
def enqueued : Act → List Notification
  | .enqueue ns => ns
  | _ => []

/-- The connection that an act adds. -/
def added? : Act → Option ConnectionId
  | .session call => call.added?
  | _ => none

end Act

/-- The relay after some acts. -/
def run (r : Relay) (acts : List Act) : Relay := acts.foldl Act.perform r

/-- Of what was handed out while a connection was registered, what it is in the audience of. -/
def due (r : Relay) (c : ConnectionId) : List Event :=
  heardBy c ((r.handedOut.filter fun (s, _) => s.connections.contains c).map (·.2))

variable {r : Relay} {added : List ConnectionId}

theorem run_snoc (r : Relay) (acts : List Act) (act : Act) :
    r.run (acts ++ [act]) = act.perform (r.run acts) := by
  rw [run, List.foldl_append]
  rfl

/-! ## The queue -/

/-- Nothing gets into a closed queue, and it is never opened again. -/
theorem perform_of_closed (h : r.delivery.queue.isOpen = false) (act : Act) :
    (act.perform r).delivery.queue.isOpen = false ∧ (act.perform r).accepted = r.accepted := by
  cases act with
  | enqueue ns => exact ⟨by simp [Act.perform, h], by simp [Act.perform, h]⟩
  | session call => exact ⟨h, rfl⟩
  | shut c => exact ⟨h, rfl⟩
  | consume => exact ⟨Delivery.isOpen_step h _ _, rfl⟩
  | stop => exact ⟨h, rfl⟩
  | leave =>
    simp only [Act.perform]
    split
    · exact ⟨rfl, rfl⟩
    · exact ⟨h, rfl⟩

theorem run_of_closed (h : r.delivery.queue.isOpen = false) (acts : List Act) :
    (r.run acts).delivery.queue.isOpen = false ∧ (r.run acts).accepted = r.accepted := by
  induction acts generalizing r with
  | nil => exact ⟨h, rfl⟩
  | cons act acts ih =>
    obtain ⟨hclosed, hsame⟩ := perform_of_closed h act
    rw [← hsame]
    exact ih hclosed

/-- What got in stays in the account. -/
theorem accepted_run (r : Relay) (acts : List Act) : r.accepted <+: (r.run acts).accepted := by
  induction acts generalizing r with
  | nil => exact List.prefix_rfl
  | cons act acts ih =>
    refine List.IsPrefix.trans ?_ (ih (act.perform r))
    cases act with
    | enqueue ns =>
      simp only [Act.perform]
      split
      · exact List.prefix_append _ _
      · exact List.prefix_rfl
    | leave =>
      simp only [Act.perform]
      split <;> exact List.prefix_rfl
    | _ => exact List.prefix_rfl

/-- A broadcaster that has stopped hands nothing out any more. -/
theorem run_of_stopped (h : r.delivery.broadcaster.phase = .stopped) (acts : List Act) :
    (r.run acts).delivery.broadcaster.phase = .stopped ∧
      (r.run acts).handedOut = r.handedOut := by
  induction acts generalizing r with
  | nil => exact ⟨h, rfl⟩
  | cons act acts ih =>
    have hperform : (act.perform r).delivery.broadcaster.phase = .stopped ∧
        (act.perform r).handedOut = r.handedOut := by
      cases act with
      | consume =>
        obtain ⟨hstep, hnext⟩ := Delivery.step_of_stopped h r.sessions r.stopping
        simp only [Act.perform, hstep, hnext]
        exact ⟨h, List.append_nil _⟩
      | leave =>
        have hleft : ¬ (r.stopping = true ∧ r.delivery.broadcaster.phase = .running) := by
          simp [h]
        rw [Act.perform, if_neg hleft]
        exact ⟨h, rfl⟩
      | _ => exact ⟨h, rfl⟩
    rw [← hperform.2]
    exact ih hperform.1

/-- An open queue takes all that it is given. -/
theorem accepted_of_open (acts : List Act) (h : (start.run acts).delivery.queue.isOpen = true) :
    (start.run acts).accepted = acts.flatMap Act.enqueued := by
  induction acts using List.reverseRecOn with
  | nil => rfl
  | append_singleton acts act ih =>
    rw [run_snoc] at h ⊢
    have hbefore : (start.run acts).delivery.queue.isOpen = true := by
      by_contra hclosed
      rw [(perform_of_closed (by simpa using hclosed) act).1] at h
      contradiction
    rw [List.flatMap_append, ← ih hbefore]
    cases act with
    | enqueue ns => simp [Act.perform, Act.enqueued, hbefore]
    | session call => simp [Act.perform, Act.enqueued]
    | shut c => simp [Act.perform, Act.enqueued]
    | consume => simp [Act.perform, Act.enqueued]
    | stop => simp [Act.perform, Act.enqueued]
    | leave =>
      simp only [Act.perform]
      split <;> simp [Act.enqueued]

/-! ## What holds all the time -/

/-- What holds of a relay to which these connections have been added. -/
structure Sound (added : List ConnectionId) (r : Relay) : Prop where
  untrapped : r.delivery.mailboxes.Untrapped
  whole : r.delivery.broadcaster.phase ≠ .failed
  /-- The queue is closed when the broadcaster has seen the request to stop. -/
  isOpen : r.delivery.queue.isOpen = true ↔ r.delivery.broadcaster.phase = .running
  asked : r.delivery.broadcaster.phase ≠ .running → r.stopping = true
  drained : r.delivery.broadcaster.phase = .stopped → r.delivery.queue.pending = []
  ordered : r.accepted = r.handedOut.map (·.2) ++ r.delivery.queue.pending
  processed : r.delivery.broadcaster.processed = r.handedOut.length
  flushed : r.delivery.broadcaster.flushed ≤ r.delivery.broadcaster.processed
  live : ∀ c ∈ r.sessions.connections, c ∈ added
  past : ∀ s n, (s, n) ∈ r.handedOut → ∀ c ∈ s.connections, c ∈ added
  received : ∀ c, r.delivery.mailboxes.accepts c → r.delivery.mailboxes.unread c = r.due c

theorem sound_start : start.Sound [] where
  untrapped := by simp [start, Mailboxes.Untrapped]
  whole := nofun
  isOpen := ⟨fun _ => rfl, fun _ => rfl⟩
  asked := fun h => absurd rfl h
  drained := nofun
  ordered := rfl
  processed := rfl
  flushed := Nat.le_refl 0
  live := by simp [start, Sessions.empty]
  past := nofun
  received := by simp [start, Mailboxes.accepts]

/-- A connection that was never there is due nothing. -/
theorem Sound.due_eq_nil (h : r.Sound added) {c : ConnectionId} (hnew : c ∉ added) :
    r.due c = [] := by
  have hnone : r.handedOut.filter (fun (s, _) => s.connections.contains c) = [] := by
    apply List.filter_eq_nil_iff.2
    intro (s, n) hmem hlive
    exact hnew (h.past s n hmem c (Std.ExtTreeMap.contains_iff_mem.1 hlive))
  rw [due, hnone]
  rfl

theorem Sound.enqueue (h : r.Sound added) (ns : List Notification) :
    ((Act.enqueue ns).perform r).Sound added := by
  cases hopen : r.delivery.queue.isOpen with
  | true =>
    have hrunning := h.isOpen.1 hopen
    refine { h with isOpen := ?_, drained := ?_, ordered := ?_ }
    · simpa [Act.perform] using h.isOpen
    · intro hstopped
      exact absurd (hrunning.symm.trans hstopped) nofun
    · simp [Act.perform, hopen, Queue.pending_push_of_isOpen, h.ordered]
  | false =>
    have hsame : (Act.enqueue ns).perform r = r := by
      simp [Act.perform, hopen, Queue.push_of_not_isOpen]
    rw [hsame]
    exact h

theorem Sound.session (h : r.Sound added) {call : SessionCall}
    (hnew : ∀ c ∈ call.added?, c ∉ added) :
    ((Act.session call).perform r).Sound (added ++ call.added?.toList) := by
  have hlive : ∀ c ∈ (call.perform r.sessions).connections, c ∈ added ++ call.added?.toList := by
    intro c hc
    apply List.mem_append.2
    rcases (r.sessions.performs_perform call).live hc with hbefore | hadded
    · exact .inl (h.live c hbefore)
    · exact .inr (by simp [hadded])
  have hpast : ∀ s n, (s, n) ∈ r.handedOut → ∀ c ∈ s.connections,
      c ∈ added ++ call.added?.toList := by
    intro s n hmem c hc
    exact List.mem_append_left _ (h.past s n hmem c hc)
  cases hadded : call.added? with
  | none =>
    rw [hadded] at hlive hpast
    simp only [Act.perform, hadded, Option.elim_none]
    exact { h with live := hlive, past := hpast }
  | some c =>
    rw [hadded] at hlive hpast
    simp only [Act.perform, hadded, Option.elim_some]
    refine { h with live := hlive, past := hpast, untrapped := ?_, received := ?_ }
    · exact h.untrapped.insert c rfl
    · intro c' hopen
      simp only [Mailboxes.add, Mailboxes.accepts_insert, Mailboxes.unread_insert] at hopen ⊢
      split at hopen
      · next hsame =>
        rw [if_pos hsame, ← hsame]
        exact (h.due_eq_nil (hnew c hadded)).symm
      · next hother =>
        rw [if_neg hother]
        exact h.received c' hopen

theorem Sound.shut (h : r.Sound added) (c : ConnectionId) :
    ((Act.shut c).perform r).Sound added := by
  refine { h with untrapped := ?_, received := ?_ }
  · exact h.untrapped.insert c rfl
  · intro c' hopen
    simp only [Act.perform, Mailboxes.shut, Mailboxes.accepts_insert, Mailboxes.unread_insert]
      at hopen ⊢
    split at hopen
    · contradiction
    · next hother =>
      rw [if_neg hother]
      exact h.received c' hopen

theorem Sound.leave (h : r.Sound added) : (Act.leave.perform r).Sound added := by
  simp only [Act.perform]
  split
  · next hasked =>
    refine { h with whole := nofun, isOpen := ?_, asked := fun _ => hasked.1, drained := nofun }
    exact ⟨nofun, nofun⟩
  · exact h

/-- The oldest notification goes to all who are registered at this moment. -/
theorem Sound.handsOut (h : r.Sound added) {n : Notification} {rest : List Notification}
    (pending : r.delivery.queue.pending = n :: rest) :
    { r with
      delivery := r.delivery.handOut r.sessions n rest
      handedOut := r.handedOut ++ [(r.sessions, n)] : Relay }.Sound added := by
  refine { h with untrapped := ?_, drained := ?_, ordered := ?_, processed := ?_, flushed := ?_,
                  past := ?_, received := ?_ }
  · exact h.untrapped.deliver r.sessions n
  · intro hstopped
    have hempty := h.drained hstopped
    rw [pending] at hempty
    contradiction
  · simp [Delivery.handOut, h.ordered, pending]
  · simp [Delivery.handOut, h.processed]
  · have hflushed := h.flushed
    simp only [Delivery.handOut]
    split <;> omega
  · intro s n' hmem c hc
    rcases List.mem_append.1 hmem with hbefore | hnow
    · exact h.past s n' hbefore c hc
    · cases List.mem_singleton.1 hnow
      exact h.live c hc
  · intro c hopen
    simp only [Delivery.handOut, Mailboxes.accepts_deliver] at hopen
    have hreceived := h.received c hopen
    unfold due at hreceived ⊢
    rw [List.filter_append, List.map_append, heardBy_append, ← hreceived]
    by_cases hlive : c ∈ r.sessions.connections
    · rw [Delivery.handOut, Mailboxes.unread_deliver_of_listens hlive hopen]
      simp [hlive]
    · rw [Delivery.handOut, Mailboxes.unread_deliver_of_not_mem hlive]
      simp [hlive, heardBy]

theorem Sound.consume (h : r.Sound added) : (Act.consume.perform r).Sound added := by
  have hsteps := Delivery.steps_step h.untrapped r.sessions r.stopping
  simp only [Act.perform]
  generalize r.delivery.step r.sessions r.stopping = d at hsteps
  cases hsteps with
  | handsOut active pending =>
    simp only [Delivery.next?, active, pending]
    exact h.handsOut pending
  | shuts running pending asked =>
    simp only [Delivery.next?, pending, List.head?_nil, ite_self, Option.map_none,
      Option.toList_none, List.append_nil]
    refine { h with whole := nofun, isOpen := ?_, asked := fun _ => asked, drained := nofun }
    exact ⟨nofun, nofun⟩
  | stops flushing pending =>
    simp only [Delivery.next?, pending, List.head?_nil, ite_self, Option.map_none,
      Option.toList_none, List.append_nil]
    have hclosed := h.isOpen
    have hasked := h.asked
    simp only [flushing, reduceCtorEq, iff_false] at hclosed
    refine { h with whole := nofun, isOpen := ?_, asked := ?_, drained := fun _ => pending }
    · exact ⟨fun hopen => absurd hopen hclosed, nofun⟩
    · exact fun _ => hasked (by simp [flushing])
  | waits running pending unasked =>
    simp only [Delivery.next?, pending, List.head?_nil, ite_self, Option.map_none,
      Option.toList_none, List.append_nil]
    exact h
  | rests inactive =>
    simp only [Delivery.next?, inactive]
    simpa using h

theorem Sound.perform (h : r.Sound added) {act : Act} (hnew : ∀ c ∈ act.added?, c ∉ added) :
    (act.perform r).Sound (added ++ act.added?.toList) := by
  cases act with
  | enqueue ns => simpa [Act.added?] using h.enqueue ns
  | session call => exact h.session hnew
  | shut c => simpa [Act.added?] using h.shut c
  | consume => simpa [Act.added?] using h.consume
  | stop =>
    simp only [Act.added?, Option.toList_none, List.append_nil]
    exact { h with asked := fun _ => rfl }
  | leave => simpa [Act.added?] using h.leave

/-- A run keeps all this, if every connection that it adds is a new one. -/
theorem Sound.run (h : r.Sound added) {acts : List Act}
    (hfresh : (acts.filterMap Act.added?).Nodup)
    (hnew : ∀ c ∈ acts.filterMap Act.added?, c ∉ added) :
    (r.run acts).Sound (added ++ acts.filterMap Act.added?) := by
  induction acts using List.reverseRecOn with
  | nil => simpa [Relay.run] using h
  | append_singleton acts act ih =>
    have hadded : [act].filterMap Act.added? = act.added?.toList := by
      cases hact : act.added? <;> simp [hact]
    rw [List.filterMap_append, hadded] at hfresh hnew
    obtain ⟨hbefore, -, hdisjoint⟩ := List.nodup_append.1 hfresh
    rw [run_snoc, List.filterMap_append, hadded, ← List.append_assoc]
    apply (ih hbefore fun c hc => hnew c (List.mem_append_left _ hc)).perform
    intro c hc hmem
    have hlast : c ∈ act.added?.toList := by simpa using hc
    rcases List.mem_append.1 hmem with hold | hearlier
    · exact hnew c (List.mem_append_right _ hlast) hold
    · exact hdisjoint c hearlier c hlast rfl

theorem sound_run (acts : List Act) (hfresh : (acts.filterMap Act.added?).Nodup) :
    (start.run acts).Sound (acts.filterMap Act.added?) :=
  sound_start.run hfresh fun _ _ => List.not_mem_nil

/-- Once it was asked to stop, the broadcaster does so after the steps that are left. -/
theorem Sound.phase_run_consume (h : r.Sound added) (hasked : r.stopping = true) {n : Nat}
    (hn : r.delivery.remaining ≤ n) :
    (r.run (List.replicate n .consume)).delivery.broadcaster.phase = .stopped := by
  induction n generalizing r with
  | zero =>
    have hwhole := h.whole
    show r.delivery.broadcaster.phase = .stopped
    unfold Delivery.remaining at hn
    cases hphase : r.delivery.broadcaster.phase with
    | running => simp [hphase] at hn
    | flushing => simp [hphase] at hn
    | stopped => rfl
    | failed => exact absurd hphase hwhole
  | succ n ih =>
    have hsteps := Delivery.steps_step h.untrapped r.sessions r.stopping
    rw [hasked] at hsteps
    have hremaining := hsteps.remaining
    apply ih h.consume hasked
    simp only [Act.perform, hasked]
    omega

/-! ## Exactly once, in order, to whom it concerns -/

/-- What became of the notifications in a run of these acts. -/
structure Delivers (acts : List Act) (r : Relay) : Prop where
  /-- As long as the queue is open, whatever is put there gets in. -/
  admitted : r.delivery.queue.isOpen = true → r.accepted = acts.flatMap Act.enqueued
  /-- Once it is closed, nothing gets in ever after. -/
  closed : r.delivery.queue.isOpen = false → ∀ more,
    (r.run more).delivery.queue.isOpen = false ∧ (r.run more).accepted = r.accepted
  /-- The broadcaster hands out what got in, each notification once and in the order of the
  queue. -/
  handedOut : r.accepted = r.handedOut.map (·.2) ++ r.delivery.queue.pending
  /-- Whose receiving end is there has received what it was to receive, and nothing else. -/
  received : ∀ c, r.delivery.mailboxes.accepts c → r.delivery.mailboxes.unread c = r.due c
  processed : r.delivery.broadcaster.processed = r.handedOut.length
  flushed : r.delivery.broadcaster.flushed ≤ r.delivery.broadcaster.processed
  /-- Nothing that got in is left behind when the broadcaster has stopped. -/
  stopped : r.delivery.broadcaster.phase = .stopped →
    r.delivery.queue.isOpen = false ∧ r.handedOut.map (·.2) = r.accepted ∧
      r.delivery.broadcaster.processed = r.accepted.length ∧
      r.delivery.broadcaster.flushed ≤ r.accepted.length
  unbroken : r.delivery.broadcaster.phase ≠ .failed
  /-- It stops only if asked to. -/
  asked : r.delivery.queue.isOpen = false → r.stopping = true
  /-- Once asked to, it stops. -/
  stops : r.stopping = true → ∀ n, r.delivery.queue.pending.length + 2 ≤ n →
    (r.run (List.replicate n .consume)).delivery.broadcaster.phase = .stopped

/-- If no connection is added twice, notifications are delivered in every run. -/
theorem delivers_run (acts : List Act) (hfresh : (acts.filterMap Act.added?).Nodup) :
    Delivers acts (start.run acts) := by
  have hsound := sound_run acts hfresh
  refine ⟨accepted_of_open acts, fun hclosed more => run_of_closed hclosed more, hsound.ordered,
    hsound.received, hsound.processed, hsound.flushed, ?_, hsound.whole, ?_, ?_⟩
  · intro hstopped
    have hclosed : (start.run acts).delivery.queue.isOpen = false := by
      apply Bool.eq_false_iff.2
      rw [ne_eq, hsound.isOpen, hstopped]
      exact nofun
    have hall : (start.run acts).accepted = (start.run acts).handedOut.map (·.2) := by
      simpa [hsound.drained hstopped] using hsound.ordered
    have hprocessed : (start.run acts).delivery.broadcaster.processed =
        (start.run acts).accepted.length := by
      rw [hall, List.length_map, hsound.processed]
    exact ⟨hclosed, hall.symm, hprocessed, hprocessed ▸ hsound.flushed⟩
  · intro hclosed
    apply hsound.asked
    intro hrunning
    rw [hsound.isOpen.2 hrunning] at hclosed
    contradiction
  · intro hasked n hn
    exact hsound.phase_run_consume hasked (Nat.le_trans (Delivery.remaining_le _) hn)

/-- The desk leaves before what it was to be told is handed out, and somebody locks the cup while
the broadcaster is about to stop. -/
def deskLeaves : List Act :=
  [.session (.connect ⟨"desk", 0⟩), .session (.connect ⟨"tablet", 1⟩),
    .enqueue [⟨.all, .locked "lamp" "alice"⟩], .consume,
    .enqueue [⟨.only ⟨"desk", 0⟩, .locked "door" "bob"⟩, ⟨.all, .unlocked "lamp" "alice"⟩],
    .session (.logout ⟨"desk", 0⟩), .consume, .consume, .stop,
    .enqueue [⟨.only ⟨"tablet", 1⟩, .locked "cup" "bob"⟩], .leave,
    .enqueue [⟨.all, .unlocked "door" "bob"⟩], .consume, .consume]

/-- The tablet hears of the cup, and nobody hears of what came after. -/
theorem delivers_run_deskLeaves :
    (deskLeaves.filterMap Act.added?).Nodup ∧
    (start.run deskLeaves).delivery.mailboxes.unread ⟨"tablet", 1⟩ =
      [.locked "lamp" "alice", .unlocked "lamp" "alice", .locked "cup" "bob"] ∧
    (start.run deskLeaves).delivery.mailboxes.unread ⟨"desk", 0⟩ = [.locked "lamp" "alice"] ∧
    (start.run deskLeaves).delivery.broadcaster.processed = 4 ∧
    (start.run deskLeaves).delivery.broadcaster.flushed = 1 := by
  have hfresh : (deskLeaves.filterMap Act.added?).Nodup := by decide +kernel
  have hdelivers := delivers_run deskLeaves hfresh
  have hstopped : (start.run deskLeaves).delivery.broadcaster.phase = .stopped := by
    decide +kernel
  obtain ⟨-, -, hprocessed, -⟩ := hdelivers.stopped hstopped
  refine ⟨hfresh, ?_, ?_, ?_, ?_⟩
  · rw [hdelivers.received _ (by decide +kernel)]
    decide +kernel
  · rw [hdelivers.received _ (by decide +kernel)]
    decide +kernel
  · rw [hprocessed]
    decide +kernel
  · decide +kernel

end Relay

end SceneLocks
