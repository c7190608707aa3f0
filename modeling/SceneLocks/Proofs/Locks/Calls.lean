import SceneLocks.Lock.Acquisition
import SceneLocks.Proofs.Graph.Relatives

/-!
# Calls on the lock manager

The operations of the lock manager as data, so that statements can range over every run of
them. Calls of different users interleave freely: what looks a resource up beforehand carries
the outcome, or the graph of that moment, along. A call changes the table by one critical
section at most, which `plan?` names; everything a call does to the table and to the queue
follows from its plan.
-/

namespace SceneLocks

/-! ## Plans -/

/-- What a critical section is to do. -/
inductive Plan where
  | grant (whole : Bool) (scope : Scope) (request : Request)
  | release (resource : Resource) (owner : User)
  | reclaim (owner : User)
  | update (scope : Scope) (owner : User) (kind : UpdateKind)

namespace Plan

/-- The edits that a plan comes to, worked out from the table. -/
def edits (t : Table) : Plan → Except LockError Section
  | .grant whole scope r => t.granting whole scope r
  | .release resource owner => t.releasing resource owner
  | .reclaim owner => .ok (t.reclaiming owner)
  | .update scope owner kind => t.updating scope owner kind

/-- The scope of a request is that of its resource. -/
def Resolved : Plan → Prop
  | .grant _ scope r => scope.resource = r.resource
  | _ => True

/-- The scope is the one that the graph gives. -/
def On (g : Graph) : Plan → Prop
  | .grant _ scope r => g.scope? r.resource = some scope
  | .update scope _ _ => g.scope? scope.resource = some scope
  | _ => True

theorem On.resolved {g : Graph} {p : Plan} (h : p.On g) : p.Resolved := by
  cases p with
  | grant whole scope r => exact Graph.resource_scope? h
  | _ => trivial

end Plan

/-! ## Calls -/

/-- A call on the lock manager. -/
inductive Call where
  /-- An attempt on a request whose scope was looked up at some earlier time. -/
  | attempt (now : Nat) (a : Acquisition) (resolved : a.scope.resource = a.request.resource)
  /-- A request with a single attempt, from the look-up on. -/
  | acquireOnce (g : Graph) (now : Nat) (whole : Bool) (r : Request)
  | lock (g : Graph) (now : Nat) (resource : Resource) (owner : User) (tree : Bool)
  | unlock (resource : Resource) (owner : User)
  | release (h : Handle)
  /-- A handle goes out of scope. -/
  | drop (h : Holding)
  | updateLock (g : Graph) (resource : Resource) (owner : User) (kind : UpdateKind)
  | releaseAll (owner : User)
  | replay (c : ConnectionId) (user : User)

/-- What a call comes to, whether its caller learns of it or not. -/
inductive Reply where
  | granted (handle : Handle)
  | done
  | count (n : Nat)
  | failed (error : LockError)
  /-- A reading section broke off. -/
  | broken
deriving DecidableEq

namespace Reply

def ofProgress : Progress → Reply
  | .granted h => .granted h
  | .failed e | .waiting _ e => .failed e

def ofExcept {α : Type} (f : α → Reply) : Except LockError α → Reply
  | .ok a => f a
  | .error e => .failed e

def isSuccess : Reply → Bool
  | .granted _ | .done | .count _ => true
  | .failed _ | .broken => false

end Reply

namespace Call

/-- The state after a call, and what the call comes to. -/
def perform (l : Locks) : Call → Locks × Reply
  | .attempt now a _ => (l.attempt now a).map id .ofProgress
  | .acquireOnce g now whole r => (l.acquireOnce g now whole r).map id (.ofExcept .granted)
  | .lock g now resource owner tree =>
    (l.lock g now resource owner tree).map id (.ofExcept fun _ => .done)
  | .unlock resource owner => (l.unlock resource owner).map id (.ofExcept fun _ => .done)
  | .release h => (l.release h).map id (.ofExcept fun _ => .done)
  | .drop (.plain h) => (l.drop (.plain h), .done)
  | .drop (.scoped h) => (l.drop (.scoped h), .ofExcept (fun _ => .done) (l.release h).2)
  | .updateLock g resource owner kind =>
    (l.updateLock g resource owner kind).map id (.ofExcept fun _ => .done)
  | .releaseAll owner => (l.releaseAll owner).map id (.ofExcept .count)
  | .replay c user => (l.replay c user).map id (·.elim .broken .count)

/-- The critical section that a call enters, if it gets that far. -/
def plan? (t : Table) : Call → Option Plan
  | .attempt _ a _ => some (.grant a.whole a.scope a.request)
  | .acquireOnce g _ whole r => (g.scope? r.resource).map (.grant whole · r.once)
  | .lock g _ resource owner tree =>
    if Locks.alreadyHeld t resource owner tree then none
    else (g.scope? resource).map (.grant false · (Locks.editorRequest resource owner tree))
  | .unlock resource owner => some (.release resource owner)
  | .release h | .drop (.scoped h) => some (.release h.resource h.owner)
  | .updateLock g resource owner kind => (g.scope? resource).map (.update · owner kind)
  | .releaseAll owner => some (.reclaim owner)
  | .drop (.plain _) | .replay .. => none

/-- The graph is the one that the call looks its resource up in. -/
def On (g : Graph) : Call → Prop
  | .attempt _ a _ => g.scope? a.request.resource = some a.scope
  | .acquireOnce g' _ _ _ | .lock g' _ _ _ _ | .updateLock g' _ _ _ => g' = g
  | _ => True

/-- The ways in which calls come to their plans. -/
inductive Plans (t : Table) : Call → Plan → Prop where
  | attempt (now : Nat) (a : Acquisition) (resolved : a.scope.resource = a.request.resource) :
    Plans t (.attempt now a resolved) (.grant a.whole a.scope a.request)
  | acquireOnce {g : Graph} (now : Nat) (whole : Bool) (r : Request) {scope : Scope}
    (hscope : g.scope? r.resource = some scope) :
    Plans t (.acquireOnce g now whole r) (.grant whole scope r.once)
  | lock {g : Graph} (now : Nat) {resource : Resource} {owner : User} {tree : Bool} {scope : Scope}
    (hheld : Locks.alreadyHeld t resource owner tree = false)
    (hscope : g.scope? resource = some scope) :
    Plans t (.lock g now resource owner tree)
      (.grant false scope (Locks.editorRequest resource owner tree))
  | unlock (resource : Resource) (owner : User) :
    Plans t (.unlock resource owner) (.release resource owner)
  | release (h : Handle) : Plans t (.release h) (.release h.resource h.owner)
  | drop (h : Handle) : Plans t (.drop (.scoped h)) (.release h.resource h.owner)
  | updateLock {g : Graph} {resource : Resource} (owner : User) (kind : UpdateKind) {scope : Scope}
    (hscope : g.scope? resource = some scope) :
    Plans t (.updateLock g resource owner kind) (.update scope owner kind)
  | releaseAll (owner : User) : Plans t (.releaseAll owner) (.reclaim owner)

theorem plans_of_plan? {c : Call} {t : Table} {p : Plan} (h : c.plan? t = some p) :
    c.Plans t p := by
  cases c with
  | attempt now a resolved =>
    obtain rfl := Option.some.inj h
    exact .attempt now a resolved
  | acquireOnce g now whole r =>
    obtain ⟨scope, hscope, rfl⟩ := Option.map_eq_some_iff.1 h
    exact .acquireOnce now whole r hscope
  | lock g now resource owner tree =>
    simp only [plan?, Option.ite_none_left_eq_some, Bool.not_eq_true] at h
    obtain ⟨hheld, h⟩ := h
    obtain ⟨scope, hscope, rfl⟩ := Option.map_eq_some_iff.1 h
    exact .lock now hheld hscope
  | unlock resource owner =>
    obtain rfl := Option.some.inj h
    exact .unlock resource owner
  | release handle =>
    obtain rfl := Option.some.inj h
    exact .release handle
  | drop holding =>
    rcases holding with handle | handle
    · cases h
    · obtain rfl := Option.some.inj h
      exact .drop handle
  | updateLock g resource owner kind =>
    obtain ⟨scope, hscope, rfl⟩ := Option.map_eq_some_iff.1 h
    exact .updateLock owner kind hscope
  | releaseAll owner =>
    obtain rfl := Option.some.inj h
    exact .releaseAll owner
  | replay c user => cases h

theorem resolved_of_plan? {c : Call} {t : Table} {p : Plan} (h : c.plan? t = some p) :
    p.Resolved := by
  cases plans_of_plan? h with
  | attempt now a resolved => exact resolved
  | acquireOnce now whole r hscope => exact Graph.resource_scope? hscope
  | lock now hheld hscope => exact Graph.resource_scope? hscope
  | _ => trivial

theorem On.plan? {g : Graph} {c : Call} {t : Table} {p : Plan} (hg : c.On g)
    (h : c.plan? t = some p) : p.On g := by
  cases plans_of_plan? h with
  | attempt now a resolved => exact hg
  | @acquireOnce g' now whole r scope hscope => exact (hg : g' = g) ▸ hscope
  | @lock g' now resource owner tree scope hheld hscope => exact (hg : g' = g) ▸ hscope
  | @updateLock g' resource owner kind scope hscope =>
    have hresource := Graph.resource_scope? hscope
    subst hresource
    exact (hg : g' = g) ▸ hscope
  | _ => trivial

end Call

/-! ## What a call does -/

namespace Locks

/-- Two states with the same table and the same queue. -/
def Agree (l l' : Locks) : Prop := l.table = l'.table ∧ l.queue = l'.queue

theorem agree_rfl (l : Locks) : l.Agree l := ⟨rfl, rfl⟩

theorem Agree.trans {l l' l'' : Locks} (h : l.Agree l') (h' : l'.Agree l'') : l.Agree l'' :=
  ⟨h.1.trans h'.1, h.2.trans h'.2⟩

theorem agree_enter (l : Locks) : l.enter.Agree l := ⟨table_enter l, queue_enter l⟩

theorem agree_record (l : Locks) (r : Record) : (l.record r).Agree l := ⟨rfl, rfl⟩

theorem transact_enter (l : Locks) (plan : Table → Except LockError Section) :
    l.enter.transact plan = l.transact plan := by
  have henter : l.enter.enter = l.enter := by
    unfold enter
    split <;> simp_all
  rw [transact, henter, transact]

/-- A section that was entered after `l` is the section that would have been entered in `l`. -/
def Enters (l : Locks) (p : Plan) (l' : Locks) (ok : Bool) : Prop :=
  l'.Agree (l.transact (p.edits ·)).1 ∧ ok = (l.transact (p.edits ·)).2.isOk

theorem enters_tryGrant (l : Locks) (whole : Bool) (scope : Scope) (r : Request) :
    l.Enters (.grant whole scope r) (l.tryGrant whole scope r).1
      (l.tryGrant whole scope r).2.isOk := by
  refine ⟨agree_rfl _, ?_⟩
  unfold tryGrant
  dsimp only [Plan.edits]
  cases (l.transact (·.granting whole scope r)).2 <;> rfl

theorem tryGrant_eq_ok_iff {l : Locks} {whole : Bool} {scope : Scope} {r : Request} {h : Handle} :
    (l.tryGrant whole scope r).2 = .ok h ↔
      (l.transact (·.granting whole scope r)).2 = .ok () ∧ h = .ofRequest r := by
  unfold tryGrant
  dsimp only
  cases (l.transact (·.granting whole scope r)).2 <;> simp [Except.map, eq_comm]

theorem tryGrant_eq_error_iff {l : Locks} {whole : Bool} {scope : Scope} {r : Request}
    {e : LockError} : (l.tryGrant whole scope r).2 = .error e ↔
      (l.transact (·.granting whole scope r)).2 = .error e := by
  unfold tryGrant
  dsimp only
  cases (l.transact (·.granting whole scope r)).2 <;> simp [Except.map]

theorem enters_attempt (l : Locks) (now : Nat) (a : Acquisition) :
    l.Enters (.grant a.whole a.scope a.request) (l.attempt now a).1
      (Reply.ofProgress (l.attempt now a).2).isSuccess := by
  have hgrant := enters_tryGrant l a.whole a.scope a.request
  unfold attempt
  dsimp only
  split
  · next l' h heq =>
    rw [heq] at hgrant
    refine ⟨?_, hgrant.2⟩
    dsimp only
    split
    · exact (agree_record _ _).trans hgrant.1
    · exact hgrant.1
  · next l' e heq =>
    rw [heq] at hgrant
    split
    · exact hgrant
    · split
      · exact ⟨(agree_record _ _).trans hgrant.1, hgrant.2⟩
      · exact hgrant

/-- A request for a resource of the graph starts with its scope. -/
theorem begin_of_scope? {g : Graph} {r : Request} {scope : Scope}
    (hscope : g.scope? r.resource = some scope) (l : Locks) (now : Nat) (whole : Bool) :
    ∃ a, l.begin g now whole r = .ok a ∧ a.request = r ∧ a.whole = whole ∧ a.scope = scope := by
  simp [begin, resolve, hscope, bind, Except.bind]

/-- A request that starts is the one that was made, with the scope that the graph gives. -/
theorem of_begin {l : Locks} {g : Graph} {now : Nat} {whole : Bool} {r : Request}
    {a : Acquisition} (h : l.begin g now whole r = .ok a) :
    a.request = r ∧ a.whole = whole ∧ g.scope? r.resource = some a.scope := by
  unfold begin resolve at h
  cases hscope : g.scope? r.resource with
  | none => simp [hscope, bind, Except.bind] at h
  | some scope =>
    simp only [hscope, bind, Except.bind, Except.ok.injEq] at h
    subst h
    exact ⟨rfl, rfl, rfl⟩

/-- A request that goes on waiting is the one that was made. -/
theorem attempt_waiting {l : Locks} {now : Nat} {a next : Acquisition} {e : LockError}
    (h : (l.attempt now a).2 = .waiting next e) :
    next.request = a.request ∧ next.whole = a.whole ∧ next.scope = a.scope := by
  unfold attempt at h
  dsimp only at h
  split at h
  · cases h
  · split at h
    · cases h
    · split at h
      · cases h
      · cases h
        exact ⟨rfl, rfl, rfl⟩

/-- A request with a single attempt comes to what that attempt comes to. -/
theorem acquireOnce_of_scope? {g : Graph} {r : Request} {scope : Scope}
    (hscope : g.scope? r.resource = some scope) (l : Locks) (now : Nat) (whole : Bool) :
    ∃ a, a.request = r.once ∧ a.whole = whole ∧ a.scope = scope ∧
      (l.acquireOnce g now whole r).1 = (l.attempt now a).1 ∧
      Reply.ofExcept .granted (l.acquireOnce g now whole r).2 =
        Reply.ofProgress (l.attempt now a).2 := by
  obtain ⟨a, hbegin, hrequest, hwhole, hscope⟩ := begin_of_scope? (r := r.once) hscope l now whole
  refine ⟨a, hrequest, hwhole, hscope, ?_⟩
  unfold acquireOnce
  rw [hbegin]
  dsimp only
  split <;> (next heq => rw [heq]; exact ⟨rfl, rfl⟩)

theorem enters_acquireOnce {l : Locks} {g : Graph} {r : Request} {scope : Scope}
    (hscope : g.scope? r.resource = some scope) (now : Nat) (whole : Bool) :
    l.Enters (.grant whole scope r.once) (l.acquireOnce g now whole r).1
      (l.acquireOnce g now whole r).2.isOk := by
  obtain ⟨a, hr, rfl, rfl, hstate, hreply⟩ := acquireOnce_of_scope? hscope l now whole
  have hattempt := enters_attempt l now a
  rw [hr, ← hstate, ← hreply] at hattempt
  cases hresult : (l.acquireOnce g now a.whole r).2 <;> rwa [hresult] at hattempt

theorem enters_lock {l : Locks} {g : Graph} {resource : Resource} {owner : User} {tree : Bool}
    {scope : Scope} (hheld : alreadyHeld l.table resource owner tree = false)
    (hscope : g.scope? resource = some scope) (now : Nat) :
    l.Enters (.grant false scope (editorRequest resource owner tree))
      (l.lock g now resource owner tree).1 (l.lock g now resource owner tree).2.isOk := by
  have hacquire := enters_acquireOnce (l := l.enter) (g := g)
    (r := editorRequest resource owner tree) hscope now false
  -- the look at the table before has entered already, which makes no difference
  simp only [Enters, transact_enter] at hacquire
  unfold lock read
  simp only [hheld]
  refine ⟨hacquire.1, Eq.trans ?_ hacquire.2⟩
  cases (l.enter.acquireOnce g now false (editorRequest resource owner tree)).2 <;> rfl

theorem enters_unlock (l : Locks) (resource : Resource) (owner : User) :
    l.Enters (.release resource owner) (l.unlock resource owner).1
      (l.unlock resource owner).2.isOk :=
  ⟨agree_rfl _, rfl⟩

theorem enters_release (l : Locks) (h : Handle) :
    l.Enters (.release h.resource h.owner) (l.release h).1 (l.release h).2.isOk := by
  have hunlock := enters_unlock l h.resource h.owner
  unfold release
  split
  · next heq =>
    rw [heq] at hunlock
    refine ⟨?_, hunlock.2⟩
    dsimp only
    split <;> exact hunlock.1
  · next heq =>
    rw [heq] at hunlock
    exact hunlock

theorem enters_releaseAll (l : Locks) (owner : User) :
    l.Enters (.reclaim owner) (l.releaseAll owner).1 (l.releaseAll owner).2.isOk := by
  unfold Enters releaseAll
  dsimp only [Plan.edits]
  split
  · next heq =>
    rw [heq]
    exact ⟨agree_rfl _, rfl⟩
  · next heq =>
    rw [heq]
    refine ⟨?_, rfl⟩
    dsimp only
    split
    · exact agree_record _ _
    · exact agree_rfl _

theorem enters_updateLock {l : Locks} {g : Graph} {resource : Resource} {scope : Scope}
    (hscope : g.scope? resource = some scope) (owner : User) (kind : UpdateKind) :
    l.Enters (.update scope owner kind) (l.updateLock g resource owner kind).1
      (l.updateLock g resource owner kind).2.isOk := by
  simp only [updateLock, resolve, hscope]
  exact ⟨agree_rfl _, rfl⟩

theorem Enters.map_ofExcept {α : Type} {l : Locks} {p : Plan} {x : Locks × Except LockError α}
    {f : α → Reply} (h : l.Enters p x.1 x.2.isOk) (hf : ∀ a, (f a).isSuccess = true) :
    l.Enters p (x.map id (Reply.ofExcept f)).1 (x.map id (Reply.ofExcept f)).2.isSuccess := by
  obtain ⟨l', result⟩ := x
  cases result with
  | ok a => exact ⟨h.1, (hf a).trans h.2⟩
  | error e => exact h

theorem acquireOnce_of_scope?_eq_none {l : Locks} {g : Graph} {r : Request}
    (h : g.scope? r.resource = none) (now : Nat) (whole : Bool) :
    l.acquireOnce g now whole r = (l, .error (.unknownResource r.resource)) := by
  simp [acquireOnce, begin, resolve, Request.once, h, bind, Except.bind]

@[simp] theorem table_replay (l : Locks) (c : ConnectionId) (user : User) :
    (l.replay c user).1.table = l.table := by
  unfold replay
  dsimp only
  split <;> exact table_enter l

end Locks

namespace Call

open Locks

/-- A call does to the table and to the queue what its plan does, and succeeds if that does. -/
theorem enters_perform {c : Call} {l : Locks} {p : Plan} (h : c.plan? l.table = some p) :
    l.Enters p (c.perform l).1 (c.perform l).2.isSuccess := by
  cases plans_of_plan? h with
  | attempt now a resolved => exact enters_attempt l now a
  | acquireOnce now whole r hscope =>
    exact (enters_acquireOnce hscope now whole).map_ofExcept fun _ => rfl
  | lock now hheld hscope => exact (enters_lock hheld hscope now).map_ofExcept fun _ => rfl
  | unlock resource owner => exact (enters_unlock l resource owner).map_ofExcept fun _ => rfl
  | release handle => exact (enters_release l handle).map_ofExcept fun _ => rfl
  | drop handle => exact (enters_release l handle).map_ofExcept (f := fun _ => .done) fun _ => rfl
  | updateLock owner kind hscope =>
    exact (enters_updateLock hscope owner kind).map_ofExcept fun _ => rfl
  | releaseAll owner => exact (enters_releaseAll l owner).map_ofExcept fun _ => rfl

/-- A call without a plan leaves the table and the queue alone, a replay apart, which has
something to say to one connection. -/
theorem agree_perform {c : Call} {l : Locks} (h : c.plan? l.table = none) :
    (c.perform l).1.Agree l ∨ ∃ connection user, c = .replay connection user := by
  cases c with
  | acquireOnce g now whole r =>
    simp only [plan?, Option.map_eq_none_iff] at h
    refine .inl ?_
    simp only [perform, acquireOnce_of_scope?_eq_none h]
    exact agree_rfl l
  | lock g now resource owner tree =>
    refine .inl ?_
    simp only [perform, Locks.lock, Locks.read]
    by_cases hheld : alreadyHeld l.table resource owner tree = true
    · simp only [hheld, if_true]
      exact (agree_record _ _).trans (agree_enter l)
    · simp only [plan?, if_neg hheld, Option.map_eq_none_iff] at h
      simp only [hheld, acquireOnce_of_scope?_eq_none (r := editorRequest resource owner tree) h]
      exact agree_enter l
  | updateLock g resource owner kind =>
    have hscope : g.scope? resource = none := Option.map_eq_none_iff.1 h
    simp [perform, Locks.updateLock, resolve, hscope, agree_rfl]
  | drop holding =>
    rcases holding with handle | handle
    · exact .inl (agree_record _ _)
    · simp [plan?] at h
  | replay connection user => exact .inr ⟨connection, user, rfl⟩
  | _ => simp [plan?] at h

theorem table_perform_of_plan?_eq_none {c : Call} {l : Locks} (h : c.plan? l.table = none) :
    (c.perform l).1.table = l.table := by
  rcases agree_perform h with h | ⟨connection, user, rfl⟩
  · exact h.1
  · exact table_replay l connection user

end Call

/-! ## What no section touches -/

namespace Locks

/-- Two states with the same settings in which the same cached data was dropped. -/
def SameRest (l l' : Locks) : Prop :=
  l.settings = l'.settings ∧ l.invalidated = l'.invalidated

theorem sameRest_rfl (l : Locks) : l.SameRest l := ⟨rfl, rfl⟩

theorem SameRest.trans {l l' l'' : Locks} (h : l.SameRest l') (h' : l'.SameRest l'') :
    l.SameRest l'' :=
  ⟨h.1.trans h'.1, h.2.trans h'.2⟩

theorem sameRest_enter (l : Locks) : l.enter.SameRest l := by
  unfold enter
  split <;> exact ⟨rfl, rfl⟩

theorem sameRest_transact (l : Locks) (plan : Table → Except LockError Section) :
    (l.transact plan).1.SameRest l := by
  unfold transact commit
  dsimp only
  split
  · exact sameRest_enter l
  · split <;> exact sameRest_enter l

theorem sameRest_attempt (l : Locks) (now : Nat) (a : Acquisition) :
    (l.attempt now a).1.SameRest l := by
  have hgrant : (l.tryGrant a.whole a.scope a.request).1.SameRest l :=
    sameRest_transact l (·.granting a.whole a.scope a.request)
  unfold attempt
  dsimp only
  split
  · next heq =>
    rw [heq] at hgrant
    dsimp only
    split <;> exact hgrant
  · next heq =>
    rw [heq] at hgrant
    split
    · exact hgrant
    · split <;> exact hgrant

theorem sameRest_acquireOnce (l : Locks) (g : Graph) (now : Nat) (whole : Bool) (r : Request) :
    (l.acquireOnce g now whole r).1.SameRest l := by
  cases hscope : g.scope? r.resource with
  | none =>
    rw [acquireOnce_of_scope?_eq_none hscope]
    exact sameRest_rfl l
  | some scope =>
    obtain ⟨a, -, -, -, hstate, -⟩ := acquireOnce_of_scope? hscope l now whole
    rw [hstate]
    exact sameRest_attempt l now a

theorem sameRest_lock (l : Locks) (g : Graph) (now : Nat) (resource : Resource) (owner : User)
    (tree : Bool) : (l.lock g now resource owner tree).1.SameRest l := by
  have hacquire := sameRest_acquireOnce l.enter g now false (editorRequest resource owner tree)
  cases hheld : alreadyHeld l.table resource owner tree with
  | true =>
    simp only [lock, read, hheld, if_true]
    exact sameRest_enter l
  | false =>
    simp only [lock, read, hheld]
    exact hacquire.trans (sameRest_enter l)

theorem sameRest_updateLock (l : Locks) (g : Graph) (resource : Resource) (owner : User)
    (kind : UpdateKind) : (l.updateLock g resource owner kind).1.SameRest l := by
  unfold updateLock
  split
  · exact sameRest_rfl l
  · exact sameRest_transact l _

theorem sameRest_releaseAll (l : Locks) (owner : User) : (l.releaseAll owner).1.SameRest l := by
  have htransact := sameRest_transact l fun t => .ok (t.reclaiming owner)
  unfold releaseAll
  dsimp only
  split
  · next heq =>
    rw [heq] at htransact
    exact htransact
  · next heq =>
    rw [heq] at htransact
    dsimp only
    split <;> exact htransact

theorem sameRest_replay (l : Locks) (c : ConnectionId) (user : User) :
    (l.replay c user).1.SameRest l := by
  unfold replay
  dsimp only
  split <;> exact sameRest_enter l

/-- Giving a handle back drops cached data if it succeeds and the holder of the handle changed the
resource. -/
theorem invalidated_release (l : Locks) (h : Handle) :
    (l.release h).1.invalidated =
      l.invalidated ++ if (l.release h).2.isOk && h.invalidates then [h.resource] else [] := by
  have hunlock : (l.unlock h.resource h.owner).1.SameRest l :=
    sameRest_transact l (·.releasing h.resource h.owner)
  unfold release
  split
  · next l' heq =>
    rw [heq] at hunlock
    have hsame : l'.invalidated = l.invalidated := hunlock.2
    cases hstale : h.invalidates <;> simp [invalidate, hsame, Except.isOk, Except.toBool]
  · next l' e heq =>
    rw [heq] at hunlock
    have hsame : l'.invalidated = l.invalidated := hunlock.2
    simp [hsame, Except.isOk, Except.toBool]

theorem settings_release (l : Locks) (h : Handle) : (l.release h).1.settings = l.settings := by
  have hunlock : (l.unlock h.resource h.owner).1.settings = l.settings :=
    (sameRest_transact l (·.releasing h.resource h.owner)).1
  unfold release
  split
  · next heq =>
    rw [heq] at hunlock
    dsimp only
    split <;> exact hunlock
  · next heq =>
    rw [heq] at hunlock
    exact hunlock

theorem settings_drop (l : Locks) (h : Holding) : (l.drop h).settings = l.settings := by
  rcases h with h | h
  · rfl
  · exact settings_release l h

end Locks

end SceneLocks
