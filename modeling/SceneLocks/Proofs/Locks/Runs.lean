import SceneLocks.Proofs.Locks.Calls

/-!
# Runs of the lock manager

Calls one after the other, and the wider runs in which sections may break off at any point
and the queue changes under the manager's hands between two calls. Sections that break off
leave the table as it was, so whatever every completed section keeps holds after every run
(`invariant_run`).
-/

namespace SceneLocks

/-- A step of a run. -/
inductive Step where
  | call (c : Call)
  /-- A section breaks off after some of its edits. -/
  | breakOff (p : Plan) (n : Nat) (fault : Fault)
  /-- The consumer of the queue, or a fault in the making, leaves another queue behind. -/
  | requeue (q : Queue)

namespace Step

/-- The state after a step. -/
def perform (l : Locks) : Step → Locks
  | .call c => (c.perform l).1
  | .breakOff p n fault =>
    match p.edits l.table with
    | .error _ => l.enter
    | .ok s => (l.enter.rollBack s n fault).1
  | .requeue queue => { l with queue }

/-- A call of the step looks its resource up in the graph. -/
def On (g : Graph) : Step → Prop
  | .call c => c.On g
  | _ => True

end Step

namespace Locks

/-- The lock manager before the first call. -/
def fresh (settings : LockSettings) : Locks := { settings }

/-- The state after some steps. -/
def run (l : Locks) (steps : List Step) : Locks := steps.foldl Step.perform l

/-- The state after some calls. -/
def serve (l : Locks) (calls : List Call) : Locks := calls.foldl (fun l c => (c.perform l).1) l

/-! ## Sections that are performed or undone -/

/-- No fault is in the making, or there is no event that could spring it. -/
def Unhindered (l : Locks) (events : List Event) : Prop :=
  l.queue.trap? = none ∨ events = []

theorem breakPoint?_eq_none_iff {l : Locks} {s : Section} :
    l.breakPoint? s = none ↔ l.Unhindered s.events := by
  unfold breakPoint? Unhindered Section.events
  cases l.queue.trap? with
  | none => simp
  | some fault => simp [List.filterMap_eq_nil_iff]

theorem breakPoint?_congr {l l' : Locks} (htrap : l.queue.trap? = l'.queue.trap?) (s : Section) :
    l.breakPoint? s = l'.breakPoint? s := by
  rw [breakPoint?, htrap, breakPoint?]

theorem unhindered_enter {l : Locks} {events : List Event} :
    l.enter.Unhindered events ↔ l.Unhindered events := by
  rw [Unhindered, queue_enter, Unhindered]

theorem transact_of_error {l : Locks} (plan : Table → Except LockError Section) {e : LockError}
    (he : plan l.table = .error e) : l.transact plan = (l.enter, .error e) := by
  simp [transact, he]

theorem transact_of_ok {l : Locks} (plan : Table → Except LockError Section) {s : Section}
    (hs : plan l.table = .ok s) (h : l.Unhindered s.events) :
    l.transact plan = (l.enter.perform s, .ok ()) := by
  have hpoint := breakPoint?_eq_none_iff.2 (unhindered_enter.2 h)
  simp [transact, commit, hs, hpoint]

/-- A fault breaks a section off at its first event. -/
theorem transact_of_hindered {l : Locks} (plan : Table → Except LockError Section) {s : Section}
    (hs : plan l.table = .ok s) (h : ¬ l.Unhindered s.events) :
    (l.transact plan).1.table = l.table ∧
      ∃ reason, (l.transact plan).2 = .error (.broken reason) := by
  rw [← unhindered_enter, ← breakPoint?_eq_none_iff] at h
  obtain ⟨⟨n, fault⟩, hpoint⟩ := Option.ne_none_iff_exists'.1 h
  simp [transact, commit, hs, hpoint, rollBack]

theorem isOk_transact_iff {l : Locks} {plan : Table → Except LockError Section} :
    (l.transact plan).2.isOk = true ↔ ∃ s, plan l.table = .ok s ∧ l.Unhindered s.events := by
  cases hplan : plan l.table with
  | error e => simp [transact_of_error plan hplan, Except.isOk, Except.toBool]
  | ok s =>
    by_cases h : l.Unhindered s.events
    · simp [transact_of_ok plan hplan h, h, Except.isOk, Except.toBool]
    · obtain ⟨-, reason, hbroken⟩ := transact_of_hindered plan hplan h
      simp [hbroken, h, Except.isOk, Except.toBool]

/-- What a section comes to depends on what was worked out and on the fault in the making. -/
theorem result_transact_congr {l l' : Locks} {plan : Table → Except LockError Section}
    (htrap : l.queue.trap? = l'.queue.trap?) (hplan : plan l.table = plan l'.table) :
    (l.transact plan).2 = (l'.transact plan).2 := by
  unfold transact
  simp only [table_enter, hplan]
  cases plan l'.table with
  | error e => rfl
  | ok s =>
    rw [← queue_enter l, ← queue_enter l'] at htrap
    simp only [commit, breakPoint?_congr htrap s]
    cases l'.enter.breakPoint? s <;> rfl

/-- A section succeeds when it is performed, and else leaves the table alone. -/
theorem transact_cases (l : Locks) (plan : Table → Except LockError Section) :
    (∃ s, plan l.table = .ok s ∧ (l.transact plan).1.table = s.result l.table ∧
      (l.transact plan).2.isOk = true) ∨
    ((l.transact plan).1.table = l.table ∧ (l.transact plan).2.isOk = false) := by
  cases hplan : plan l.table with
  | error e =>
    rw [transact_of_error plan hplan]
    exact .inr ⟨table_enter l, rfl⟩
  | ok s =>
    by_cases h : l.Unhindered s.events
    · rw [transact_of_ok plan hplan h]
      exact .inl ⟨s, rfl, by simp [perform], rfl⟩
    · obtain ⟨htable, reason, hbroken⟩ := transact_of_hindered plan hplan h
      exact .inr ⟨htable, by rw [hbroken]; rfl⟩

/-- A call whose section was entered performs the section and succeeds, or leaves the table
alone. -/
theorem Enters.cases {l l' : Locks} {p : Plan} {ok : Bool} (h : l.Enters p l' ok) :
    (ok = true ∧ ∃ s, p.edits l.table = .ok s ∧ l'.table = s.result l.table) ∨
    (ok = false ∧ l'.table = l.table) := by
  obtain ⟨hagree, hok⟩ := h
  rcases l.transact_cases (p.edits ·) with ⟨s, hs, htable, hdone⟩ | ⟨htable, hfailed⟩
  · exact .inl ⟨hok.trans hdone, s, hs, hagree.1.trans htable⟩
  · exact .inr ⟨hok.trans hfailed, hagree.1.trans htable⟩

/-- Without a fault in the making every section that was worked out is performed. -/
theorem transact_of_trap?_eq_none {l : Locks} (htrap : l.queue.trap? = none)
    (plan : Table → Except LockError Section) :
    match plan l.table with
    | .error e => l.transact plan = (l.enter, .error e)
    | .ok s => l.transact plan = (l.enter.perform s, .ok ()) := by
  split
  · next he => exact transact_of_error plan he
  · next hs => exact transact_of_ok plan hs (.inl htrap)

/-- A section sets no trap. -/
theorem trap_transact {l : Locks} (htrap : l.queue.trap = none)
    (plan : Table → Except LockError Section) : (l.transact plan).1.queue.trap = none := by
  have htrap? : l.queue.trap? = none := by simp [Queue.trap?, htrap]
  have htransact := transact_of_trap?_eq_none htrap? plan
  split at htransact <;> simp [htransact, perform, Queue.broadcast, htrap]

theorem Enters.trap {l l' : Locks} {p : Plan} {ok : Bool} (h : l.Enters p l' ok)
    (htrap : l.queue.trap = none) : l'.queue.trap = none :=
  h.1.2 ▸ trap_transact htrap (p.edits ·)

theorem isOk_releaseAll {l : Locks} (htrap : l.queue.trap = none) (owner : User) :
    (l.releaseAll owner).2.isOk = true := by
  have htrap? : l.queue.trap? = none := by simp [Queue.trap?, htrap]
  have htransact := transact_of_trap?_eq_none htrap? (Plan.edits · (.reclaim owner))
  rw [(enters_releaseAll l owner).2, htransact]
  rfl

end Locks

theorem Call.trap_perform {l : Locks} (htrap : l.queue.trap = none) (c : Call) :
    (c.perform l).1.queue.trap = none := by
  cases hplan : c.plan? l.table with
  | some p => exact (Call.enters_perform hplan).trap htrap
  | none =>
    rcases Call.agree_perform hplan with hagree | ⟨connection, user, rfl⟩
    · rw [hagree.2, htrap]
    · simp [Call.perform, Locks.replay, Queue.trap?, htrap]

/-! ## Invariants -/

namespace Step

/-- A step performs the section of its call, which succeeds then, or it leaves the table alone. -/
theorem perform_cases (l : Locks) (step : Step) :
    (∃ c p s, step = .call c ∧ c.plan? l.table = some p ∧ p.edits l.table = .ok s ∧
      (c.perform l).2.isSuccess = true ∧ (step.perform l).table = s.result l.table) ∨
    ((step.perform l).table = l.table ∧ ∀ c p, step = .call c → c.plan? l.table = some p →
      (c.perform l).2.isSuccess = false) := by
  cases step with
  | call c =>
    cases hplan : c.plan? l.table with
    | none =>
      refine .inr ⟨Call.table_perform_of_plan?_eq_none hplan, ?_⟩
      rintro _ p ⟨⟩ hp
      exact absurd (hplan.symm.trans hp) nofun
    | some p =>
      rcases (Call.enters_perform hplan).cases with ⟨hdone, s, hs, htable⟩ | ⟨hfailed, htable⟩
      · exact .inl ⟨c, p, s, rfl, hplan, hs, hdone, htable⟩
      · refine .inr ⟨htable, ?_⟩
        rintro _ _ ⟨⟩ -
        exact hfailed
  | breakOff p n fault =>
    refine .inr ⟨?_, fun c q hstep => ?_⟩
    · simp only [perform]
      split <;> simp
    · cases hstep
  | requeue queue =>
    refine .inr ⟨rfl, fun c q hstep => ?_⟩
    cases hstep

end Step

namespace Locks

/-- What holds of the empty table and is kept by every section holds after every run. -/
theorem invariant_run {Inv : Table → Prop} {Ok : Plan → Prop} (hempty : Inv .empty)
    (hsection : ∀ t p s, Ok p → Inv t → p.edits t = .ok s → Inv (s.result t))
    (settings : LockSettings) {steps : List Step}
    (hok : ∀ c, .call c ∈ steps → ∀ t p, c.plan? t = some p → Ok p) :
    Inv ((fresh settings).run steps).table := by
  -- over all states, since the steps move on from the empty table
  suffices h : ∀ l : Locks, Inv l.table → Inv (l.run steps).table from h _ hempty
  induction steps with
  | nil => exact fun l hl => hl
  | cons step steps ih =>
    intro l hl
    refine ih (fun c hc => hok c (List.mem_cons_of_mem step hc)) (step.perform l) ?_
    rcases step.perform_cases l with ⟨c, p, s, rfl, hplan, hs, -, h⟩ | ⟨h, -⟩
    · exact h.symm ▸ hsection _ p s (hok c List.mem_cons_self _ p hplan) hl hs
    · exact h.symm ▸ hl

end Locks

/-! ## Runs without faults -/

namespace Locks

/-- The queue takes what it is given, and no fault is in the making. -/
structure Quiet (l : Locks) : Prop where
  isOpen : l.queue.isOpen
  trap : l.queue.trap = none

/-- The events that went to all connections, in the order of the queue. -/
def announced (l : Locks) : List Event :=
  l.queue.pending.filterMap fun n => if n.audience = .all then some n.event else none

/-- The section `s` was performed as a whole, and all its events were announced. -/
structure Performed (l l' : Locks) (s : Section) : Prop where
  table : l'.table = s.result l.table
  announced : l'.announced = l.announced ++ s.events
  quiet : l'.Quiet

theorem quiet_fresh (settings : LockSettings) : (fresh settings).Quiet := ⟨rfl, rfl⟩

theorem announced_fresh (settings : LockSettings) : (fresh settings).announced = [] := rfl

theorem Quiet.trap? {l : Locks} (h : l.Quiet) : l.queue.trap? = none := by
  simp [Queue.trap?, h.trap]

theorem Quiet.performed_of_agree {l l' : Locks} (h : l.Quiet) (hagree : l'.Agree l) :
    l.Performed l' [] := by
  obtain ⟨htable, hqueue⟩ := hagree
  refine ⟨htable, ?_, ⟨hqueue ▸ h.isOpen, hqueue ▸ h.trap⟩⟩
  simp [Locks.announced, hqueue]

theorem Quiet.performed_perform {l l' : Locks} (h : l.Quiet) {s : Section}
    (hagree : l'.Agree (l.enter.perform s)) : l.Performed l' s := by
  obtain ⟨htable, hqueue⟩ := hagree
  have hpush : l'.queue = l.queue.broadcast s.events := by simpa [perform] using hqueue
  refine ⟨by simpa [perform] using htable, ?_, ⟨?_, ?_⟩⟩
  · simp only [Locks.announced, hpush, Queue.broadcast, Queue.pending_push_of_isOpen h.isOpen,
      List.filterMap_append, List.filterMap_map, List.append_cancel_left_eq]
    exact List.filterMap_some
  · simp [hpush, Queue.broadcast, h.isOpen]
  · simp [hpush, Queue.broadcast, h.trap]

/-- What a replay says goes to one connection only. -/
theorem Quiet.performed_replay {l : Locks} (h : l.Quiet) (c : ConnectionId) (user : User) :
    l.Performed (l.replay c user).1 [] := by
  have hreplay : (l.replay c user).1 = { l.enter with
      queue := l.queue.push ((replayEvents l.table user).map (⟨.only c, ·⟩)) } := by
    simp [replay, h.trap?]
  rw [hreplay]
  refine ⟨table_enter l, ?_, ⟨?_, ?_⟩⟩
  · simp [Locks.announced, Queue.pending_push_of_isOpen h.isOpen, List.filterMap_map]
  · simp [h.isOpen]
  · simp [h.trap]

end Locks

namespace Call

variable {c : Call} {l : Locks} {p : Plan}

theorem perform_of_ok {s : Section} (hquiet : l.Quiet) (hplan : c.plan? l.table = some p)
    (hs : p.edits l.table = .ok s) :
    l.Performed (c.perform l).1 s ∧ (c.perform l).2.isSuccess = true := by
  obtain ⟨hagree, hsuccess⟩ := enters_perform hplan
  have htransact := Locks.transact_of_trap?_eq_none hquiet.trap? (p.edits ·)
  simp only [hs] at htransact
  rw [htransact] at hagree hsuccess
  exact ⟨hquiet.performed_perform hagree, hsuccess⟩

theorem perform_of_error {e : LockError} (hquiet : l.Quiet) (hplan : c.plan? l.table = some p)
    (he : p.edits l.table = .error e) :
    l.Performed (c.perform l).1 [] ∧ (c.perform l).2.isSuccess = false := by
  obtain ⟨hagree, hsuccess⟩ := enters_perform hplan
  have htransact := Locks.transact_of_trap?_eq_none hquiet.trap? (p.edits ·)
  simp only [he] at htransact
  rw [htransact] at hagree hsuccess
  exact ⟨hquiet.performed_of_agree (hagree.trans (Locks.agree_enter l)), hsuccess⟩

theorem perform_of_plan?_eq_none (hquiet : l.Quiet) (hplan : c.plan? l.table = none) :
    l.Performed (c.perform l).1 [] := by
  rcases agree_perform hplan with hagree | ⟨connection, user, rfl⟩
  · exact hquiet.performed_of_agree hagree
  · exact hquiet.performed_replay connection user

/-- A call performs the section of its plan and succeeds, or does nothing to the table. -/
theorem performed_cases (hquiet : l.Quiet) (c : Call) :
    (∃ p s, c.plan? l.table = some p ∧ p.edits l.table = .ok s ∧
      l.Performed (c.perform l).1 s ∧ (c.perform l).2.isSuccess = true) ∨
    ((∀ p, c.plan? l.table = some p → (∀ s, p.edits l.table ≠ .ok s) ∧
      (c.perform l).2.isSuccess = false) ∧ l.Performed (c.perform l).1 []) := by
  cases hplan : c.plan? l.table with
  | none => exact .inr ⟨nofun, perform_of_plan?_eq_none hquiet hplan⟩
  | some p =>
    cases hs : p.edits l.table with
    | ok s =>
      obtain ⟨hperformed, hsuccess⟩ := perform_of_ok hquiet hplan hs
      exact .inl ⟨p, s, rfl, hs, hperformed, hsuccess⟩
    | error e =>
      obtain ⟨hperformed, hfailed⟩ := perform_of_error hquiet hplan hs
      refine .inr ⟨fun q hq => ?_, hperformed⟩
      obtain rfl : p = q := Option.some.inj hq
      exact ⟨fun s h => absurd (hs.symm.trans h) nofun, hfailed⟩

end Call

end SceneLocks
