import SceneLocks.Proofs.Locks.Runs

/-!
# What calls answer

A call that enters a section answers what its section comes to; the others answer at once, from the
table alone or from the graph. Unless a fault is in the making, the table alone decides what a call
does and what it answers (`comesTo_perform`).
-/

namespace SceneLocks

theorem Reply.ofExcept_granted_inj {x y : Except LockError Handle}
    (h : ofExcept .granted x = ofExcept .granted y) : x = y := by
  cases x <;> cases y <;> simp_all [ofExcept]

namespace Locks

/-- A grant answers what its section comes to. -/
def granted (r : Request) (result : Except LockError Unit) : Except LockError Handle :=
  result.map fun () => .ofRequest r

theorem reply_attempt (l : Locks) (now : Nat) (a : Acquisition) :
    Reply.ofProgress (l.attempt now a).2 = .ofExcept .granted
      (granted a.request (l.transact (·.granting a.whole a.scope a.request)).2) := by
  have htry : l.tryGrant a.whole a.scope a.request =
      ((l.transact (·.granting a.whole a.scope a.request)).1,
        granted a.request (l.transact (·.granting a.whole a.scope a.request)).2) := rfl
  unfold attempt
  simp only [htry]
  cases (l.transact (·.granting a.whole a.scope a.request)).2 with
  | ok _ => rfl
  | error e =>
    dsimp only [granted, Except.map]
    split
    · rfl
    · split <;> rfl

/-- A lock that was granted is answered with the handle of its request. -/
theorem attempt_granted {l : Locks} {now : Nat} {a : Acquisition} {h : Handle}
    (hgranted : Reply.ofProgress (l.attempt now a).2 = .granted h) :
    h = .ofRequest a.request := by
  rw [reply_attempt] at hgranted
  cases hresult : (l.transact (·.granting a.whole a.scope a.request)).2 with
  | ok _ =>
    rw [hresult] at hgranted
    exact (Reply.granted.inj hgranted).symm
  | error e =>
    rw [hresult] at hgranted
    cases hgranted

theorem result_acquireOnce {g : Graph} {r : Request} {scope : Scope}
    (hscope : g.scope? r.resource = some scope) (l : Locks) (now : Nat) (whole : Bool) :
    (l.acquireOnce g now whole r).2 = granted r (l.transact (·.granting whole scope r.once)).2 := by
  obtain ⟨a, hr, rfl, rfl, -, hreply⟩ := acquireOnce_of_scope? hscope l now whole
  rw [reply_attempt, hr] at hreply
  exact Reply.ofExcept_granted_inj hreply

/-- The only attempt on a request fails with the error that its section is refused with. -/
theorem acquireOnce_of_error {l : Locks} {g : Graph} {r : Request} {scope : Scope} {whole : Bool}
    {error : LockError} (hscope : g.scope? r.resource = some scope)
    (hrefused : l.table.granting whole scope r.once = .error error) (now : Nat) :
    (l.acquireOnce g now whole r).2 = .error error := by
  have hresult : (l.transact (·.granting whole scope r.once)).2 = .error error := by
    simp [transact, hrefused]
  rw [result_acquireOnce hscope, hresult]
  rfl

theorem result_lock {g : Graph} {resource : Resource} {owner : User} {tree : Bool} {scope : Scope}
    {l : Locks} (hheld : alreadyHeld l.table resource owner tree = false)
    (hscope : g.scope? resource = some scope) (now : Nat) :
    (l.lock g now resource owner tree).2 =
      (l.transact (·.granting false scope (editorRequest resource owner tree))).2 := by
  have hacquire := result_acquireOnce (r := editorRequest resource owner tree) hscope l.enter now
    false
  -- the request of an editor is for a single attempt already
  have honce : (editorRequest resource owner tree).once = editorRequest resource owner tree := rfl
  rw [transact_enter, honce] at hacquire
  unfold lock read
  simp only [hheld]
  refine (congrArg (Except.map fun _ => ()) hacquire).trans ?_
  cases (l.transact (·.granting false scope (editorRequest resource owner tree))).2 <;> rfl

theorem result_release (l : Locks) (h : Handle) :
    (l.release h).2 = (l.transact (·.releasing h.resource h.owner)).2 := by
  unfold release unlock
  split <;> (next heq => rw [heq])

theorem result_releaseAll (l : Locks) (owner : User) :
    (l.releaseAll owner).2 = (l.transact fun t => .ok (t.reclaiming owner)).2.map fun () =>
      (l.table.ownedBy owner).length := by
  unfold releaseAll
  dsimp only
  split <;> (next heq => rw [heq]; rfl)

theorem result_updateLock {g : Graph} {resource : Resource} {scope : Scope}
    (hscope : g.scope? resource = some scope) (l : Locks) (owner : User) (kind : UpdateKind) :
    (l.updateLock g resource owner kind).2 = (l.transact (·.updating scope owner kind)).2 := by
  simp only [updateLock, resolve, hscope]

end Locks

namespace Call

/-- What a call answers when its section comes to an end. -/
def answer (t : Table) : Call → Reply
  | .attempt _ a _ => .granted (.ofRequest a.request)
  | .acquireOnce _ _ _ r => .granted (.ofRequest r)
  | .releaseAll owner => .count (t.ownedBy owner).length
  | _ => .done

/-- What a call answers that enters no section. -/
def answerAtOnce (t : Table) : Call → Reply
  | .acquireOnce _ _ _ r => .failed (.unknownResource r.resource)
  | .lock _ _ resource owner tree =>
    if Locks.alreadyHeld t resource owner tree then .done
    else .failed (.unknownResource resource)
  | .updateLock _ resource _ _ => .failed (.unknownResource resource)
  | _ => .done

/-- A call answers what its section comes to. -/
theorem reply_perform {c : Call} {l : Locks} {p : Plan} (h : c.plan? l.table = some p) :
    (c.perform l).2 = .ofExcept (fun () => c.answer l.table) (l.transact (p.edits ·)).2 := by
  cases plans_of_plan? h with
  | attempt now a resolved =>
    refine (l.reply_attempt now a).trans ?_
    dsimp only [Plan.edits]
    cases (l.transact (·.granting a.whole a.scope a.request)).2 <;> rfl
  | @acquireOnce g now whole r scope hscope =>
    have hresult := Locks.result_acquireOnce hscope l now whole
    refine (congrArg (Reply.ofExcept .granted) hresult).trans ?_
    dsimp only [Plan.edits]
    cases (l.transact (·.granting whole scope r.once)).2 <;> rfl
  | lock now hheld hscope =>
    exact congrArg (Reply.ofExcept fun _ => .done) (Locks.result_lock hheld hscope now)
  | unlock resource owner => rfl
  | release handle => exact congrArg (Reply.ofExcept fun _ => .done) (l.result_release handle)
  | drop handle => exact congrArg (Reply.ofExcept fun _ => .done) (l.result_release handle)
  | updateLock owner kind hscope =>
    exact congrArg (Reply.ofExcept fun _ => .done) (Locks.result_updateLock hscope l owner kind)
  | releaseAll owner =>
    refine (congrArg (Reply.ofExcept .count) (l.result_releaseAll owner)).trans ?_
    dsimp only [Plan.edits]
    cases (l.transact fun t => .ok (t.reclaiming owner)).2 <;> rfl

/-- A call without a plan leaves the table and the queue alone and answers at once, a replay
apart. -/
theorem perform_at_once {c : Call} {l : Locks} (h : c.plan? l.table = none) :
    ((c.perform l).1.Agree l ∧ (c.perform l).2 = c.answerAtOnce l.table) ∨
      ∃ connection user, c = .replay connection user := by
  have hagree := agree_perform h
  cases c with
  | acquireOnce g now whole r =>
    refine hagree.imp_left fun hagree => ⟨hagree, ?_⟩
    simp only [perform, Locks.acquireOnce_of_scope?_eq_none (Option.map_eq_none_iff.1 h)]
    rfl
  | lock g now resource owner tree =>
    refine hagree.imp_left fun hagree => ⟨hagree, ?_⟩
    simp only [perform, Locks.lock, Locks.read, answerAtOnce]
    by_cases hheld : Locks.alreadyHeld l.table resource owner tree = true
    · simp only [hheld, if_true]
      rfl
    · simp only [plan?, if_neg hheld, Option.map_eq_none_iff] at h
      simp only [hheld,
        Locks.acquireOnce_of_scope?_eq_none (r := Locks.editorRequest resource owner tree) h]
      rfl
  | updateLock g resource owner kind =>
    refine hagree.imp_left fun hagree => ⟨hagree, ?_⟩
    have hscope : g.scope? resource = none := Option.map_eq_none_iff.1 h
    simp only [perform, Locks.updateLock, Locks.resolve, hscope]
    rfl
  | drop holding =>
    rcases holding with handle | handle
    · exact .inl ⟨Locks.agree_record l _, rfl⟩
    · cases h
  | replay connection user => exact .inr ⟨connection, user, rfl⟩
  | attempt _ _ _ | unlock _ _ | release _ | releaseAll _ => cases h

/-- Who is answered at once has nothing to do, or asks for a resource that is not there. -/
theorem answerAtOnce_cases (c : Call) (t : Table) : c.answerAtOnce t = .done ∨
    ∃ resource, c.answerAtOnce t = .failed (.unknownResource resource) := by
  cases c with
  | acquireOnce g now whole r => exact .inr ⟨_, rfl⟩
  | updateLock g resource owner kind => exact .inr ⟨_, rfl⟩
  | lock g now resource owner tree =>
    simp only [answerAtOnce]
    split
    · exact .inl rfl
    · exact .inr ⟨_, rfl⟩
  | _ => exact .inl rfl

theorem answerAtOnce_ne_broken (c : Call) (t : Table) (reason : String) :
    c.answerAtOnce t ≠ .failed (.broken reason) := by
  rcases c.answerAtOnce_cases t with h | ⟨resource, h⟩ <;> simp [h]

theorem reply_replay_ne_failed (l : Locks) (connection : ConnectionId) (user : User)
    (error : LockError) : ((Call.replay connection user).perform l).2 ≠ .failed error := by
  simp only [perform, Prod.map_snd]
  cases (l.replay connection user).2 <;> simp

/-! ## Where no fault is in the making -/

/-- What a call does and what it answers. -/
structure Outcome where
  edits : Section := []
  notifications : List Notification := []
  reply : Reply

/-- What a call comes to that enters no section. -/
def atOnce (t : Table) : Call → Outcome
  | .replay connection user =>
    let events := Locks.replayEvents t user
    { notifications := events.map (⟨.only connection, ·⟩), reply := .count events.length }
  | c => { reply := c.answerAtOnce t }

/-- What a call comes to unless a fault is in the making. -/
def outcome (c : Call) (t : Table) : Outcome :=
  match c.plan? t with
  | none => c.atOnce t
  | some p =>
    match p.edits t with
    | .error e => { reply := .failed e }
    | .ok s => { edits := s, notifications := s.events.map (⟨.all, ·⟩), reply := c.answer t }

variable {c : Call} {t : Table} {p : Plan}

theorem edits_atOnce (c : Call) (t : Table) : (c.atOnce t).edits = [] := by
  cases c <;> rfl

theorem reply_atOnce (c : Call) (t : Table) :
    (c.atOnce t).reply = c.answerAtOnce t ∨ ∃ n, (c.atOnce t).reply = .count n := by
  cases c with
  | replay connection user => exact .inr ⟨_, rfl⟩
  | _ => exact .inl rfl

theorem outcome_of_plan?_eq_none (hplan : c.plan? t = none) : c.outcome t = c.atOnce t := by
  simp [outcome, hplan]

theorem outcome_of_error {e : LockError} (hplan : c.plan? t = some p) (he : p.edits t = .error e) :
    c.outcome t = { reply := .failed e } := by
  simp [outcome, hplan, he]

theorem outcome_of_ok {s : Section} (hplan : c.plan? t = some p) (hs : p.edits t = .ok s) :
    c.outcome t =
      { edits := s, notifications := s.events.map (⟨.all, ·⟩), reply := c.answer t } := by
  simp [outcome, hplan, hs]

/-- A call came to this outcome. -/
structure ComesTo (l : Locks) (o : Outcome) (l' : Locks) (reply : Reply) : Prop where
  table : l'.table = o.edits.result l.table
  queue : l'.queue = l.queue.push o.notifications
  reply : reply = o.reply

theorem comesTo_atOnce {l : Locks} (htrap : l.queue.trap? = none) (hplan : c.plan? l.table = none) :
    ComesTo l (c.atOnce l.table) (c.perform l).1 (c.perform l).2 := by
  by_cases hreplay : ∃ connection user, c = .replay connection user
  · obtain ⟨connection, user, rfl⟩ := hreplay
    constructor <;> simp [perform, Locks.replay, htrap, atOnce, Section.result]
  · obtain ⟨⟨htable, hqueue⟩, hreply⟩ := (perform_at_once hplan).resolve_right hreplay
    have hsilent : c.atOnce l.table = { reply := c.answerAtOnce l.table } := by
      cases c with
      | replay connection user => exact absurd ⟨connection, user, rfl⟩ hreplay
      | _ => rfl
    rw [hsilent]
    exact ⟨htable, by simpa using hqueue, hreply⟩

section Sections

variable {l : Locks}

/-- A call whose section is refused fails with the error of the section, and does nothing. -/
theorem comesTo_of_error {e : LockError} (hplan : c.plan? l.table = some p)
    (he : p.edits l.table = .error e) :
    ComesTo l { reply := .failed e } (c.perform l).1 (c.perform l).2 := by
  obtain ⟨⟨htable, hqueue⟩, -⟩ := enters_perform hplan
  have hreply := reply_perform hplan
  rw [Locks.transact_of_error (p.edits ·) he] at htable hqueue hreply
  exact ⟨by simpa using htable, by simpa using hqueue, hreply⟩

theorem reply_of_error {e : LockError} (hplan : c.plan? l.table = some p)
    (he : p.edits l.table = .error e) : (c.perform l).2 = .failed e :=
  (comesTo_of_error hplan he).reply

/-- A call whose section goes through does what the section says. -/
theorem comesTo_of_ok {s : Section} (hplan : c.plan? l.table = some p)
    (hs : p.edits l.table = .ok s) (h : l.Unhindered s.events) :
    ComesTo l { edits := s, notifications := s.events.map (⟨.all, ·⟩), reply := c.answer l.table }
      (c.perform l).1 (c.perform l).2 := by
  obtain ⟨⟨htable, hqueue⟩, -⟩ := enters_perform hplan
  have hreply := reply_perform hplan
  rw [Locks.transact_of_ok (p.edits ·) hs h] at htable hqueue hreply
  exact ⟨by simpa [Locks.perform] using htable,
    by simpa [Locks.perform, Queue.broadcast] using hqueue, hreply⟩

/-- A call whose section breaks off is told so, and changes nothing in the table. -/
theorem perform_of_hindered {s : Section} (hplan : c.plan? l.table = some p)
    (hs : p.edits l.table = .ok s) (h : ¬ l.Unhindered s.events) :
    (c.perform l).1.table = l.table ∧ ∃ reason, (c.perform l).2 = .failed (.broken reason) := by
  obtain ⟨htable, reason, hbroken⟩ := Locks.transact_of_hindered (p.edits ·) hs h
  refine ⟨(enters_perform hplan).1.1.trans htable, reason, ?_⟩
  rw [reply_perform hplan, hbroken]
  rfl

/-- A call that enters a section succeeds if the section can be worked out and goes through. -/
theorem isSuccess_iff (hplan : c.plan? l.table = some p) :
    (c.perform l).2.isSuccess = true ↔ ∃ s, p.edits l.table = .ok s ∧ l.Unhindered s.events := by
  rw [(enters_perform hplan).2, Locks.isOk_transact_iff]

end Sections

/-- Unless a fault is in the making, the table decides what a call comes to. -/
theorem comesTo_perform {l : Locks} (htrap : l.queue.trap? = none) (c : Call) :
    ComesTo l (c.outcome l.table) (c.perform l).1 (c.perform l).2 := by
  cases hplan : c.plan? l.table with
  | none =>
    rw [outcome_of_plan?_eq_none hplan]
    exact comesTo_atOnce htrap hplan
  | some p =>
    cases hs : p.edits l.table with
    | error e =>
      rw [outcome_of_error hplan hs]
      exact comesTo_of_error hplan hs
    | ok s =>
      rw [outcome_of_ok hplan hs]
      exact comesTo_of_ok hplan hs (.inl htrap)

end Call

end SceneLocks
