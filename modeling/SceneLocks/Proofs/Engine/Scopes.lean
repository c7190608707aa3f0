import SceneLocks.Proofs.Engine.Waiting

/-!
# Scopes that grow old

The resource of a request is looked up once, before the first attempt. While the request waits,
nodes come and go, and no attempt looks again. So what is granted is what the graph admits in
which the request began, by the table of the moment (`granted_run`); the graph of the moment may
not even know the resource any more (`not_admits_removedWhileWaiting`).
-/

namespace SceneLocks

/-- The graph has the resource of the request, and nothing in the table stands in the way. -/
def Graph.Admits (g : Graph) (t : Table) (whole : Bool) (r : Request) : Prop :=
  (whole = true → t.wholeConflict? = none) ∧
    ∃ scope, g.scope? r.resource = some scope ∧ t.conflict? scope r.mode r.tree = none

/-- Of a graph no more matters than the scope that it gives the resource. -/
theorem Graph.Admits.congr {g g' : Graph} {t : Table} {whole : Bool} {r : Request}
    (h : g.Admits t whole r) (hsame : g'.scope? r.resource = g.scope? r.resource) :
    g'.Admits t whole r := by
  obtain ⟨hwhole, scope, hscope, hfree⟩ := h
  exact ⟨hwhole, scope, hsame.trans hscope, hfree⟩

/-- A section that grants a request met no conflict. -/
theorem Locks.Enters.admits {l l' : Locks} {whole : Bool} {scope : Scope} {r : Request} {g : Graph}
    (h : l.Enters (.grant whole scope r) l' true) (hscope : g.scope? r.resource = some scope) :
    g.Admits l.table whole r := by
  rcases h.cases with ⟨-, s, hs, -⟩ | ⟨hfailed, -⟩
  · have hgranted : Granted l.table whole scope r s := Plan.done_of_edits hs
    exact ⟨hgranted.wholeFree, scope, hscope, hgranted.free⟩
  · cases hfailed

/-- A call of the turn looks its resource up in the graph. -/
def Turn.On (g : Graph) : Turn → Prop
  | .call c => c.On g
  | _ => True

namespace Traffic

variable {s s' : Traffic} {turn : Turn} {whole : Bool} {r : Request}

/-! ## Turns that grant -/

/-- The turn ends with a lock for the request: an attempt on an acquisition under way succeeds, or
a call of a single step does. -/
inductive Grants (s : Traffic) : Turn → Bool → Request → Prop where
  | attempt {now : Nat} {a : Acquisition} {handle : Handle} (hmem : .acquire a ∈ s.errands)
    (hgranted : (s.engine.locks.attempt now a).2 = .granted handle) :
    s.Grants (.proceed now (.acquire a)) a.whole a.request
  | call {c : Call} {whole : Bool} {scope : Scope} {r : Request}
    (hplan : c.plan? s.engine.locks.table = some (.grant whole scope r))
    (hdone : (c.perform s.engine.locks).2.isSuccess = true) : s.Grants (.call c) whole r

theorem grants_attempt_le {a : Acquisition} (hmem : .acquire a ∈ s.errands) (now : Nat)
    {resource : Resource} {user : User}
    (h : ∀ whole r, s.Grants (.proceed now (.acquire a)) whole r →
      ¬ (r.resource = resource ∧ r.owner = user)) :
    (s.engine.locks.attempt now a).1.table.grants resource user ≤
      s.engine.locks.table.grants resource user := by
  have hgrants := (Locks.enters_attempt s.engine.locks now a).grants_le resource user
  cases hprogress : (s.engine.locks.attempt now a).2 with
  | granted handle =>
    have hother := h a.whole a.request (.attempt hmem hprogress)
    rwa [Plan.gain, if_neg hother, ite_self] at hgrants
  | failed | waiting =>
    rwa [hprogress] at hgrants

theorem grants_call_le {c : Call} {resource : Resource} {user : User}
    (h : ∀ whole r, s.Grants (.call c) whole r → ¬ (r.resource = resource ∧ r.owner = user)) :
    (c.perform s.engine.locks).1.table.grants resource user ≤
      s.engine.locks.table.grants resource user := by
  cases hplan : c.plan? s.engine.locks.table with
  | none => exact Nat.le_of_eq (by rw [Call.table_perform_of_plan?_eq_none hplan])
  | some p =>
    have hgrants := (Call.enters_perform hplan).grants_le resource user
    split at hgrants
    · next hdone =>
      have hgain : p.gain resource user = 0 := by
        cases p with
        | grant whole scope r => exact if_neg (h whole r (.call hplan hdone))
        | release | reclaim | update => rfl
      rwa [hgain] at hgrants
    · exact hgrants

/-- Nothing but a turn that grants adds a grant to the table. -/
theorem Takes.grants_le (htakes : s.Takes turn s') {resource : Resource} {user : User}
    (h : ∀ whole r, s.Grants turn whole r → ¬ (r.resource = resource ∧ r.owner = user)) :
    s'.engine.locks.table.grants resource user ≤ s.engine.locks.table.grants resource user := by
  cases htakes with
  | idle | connect | close | login | hangUp | logout | ask | abandon | remould =>
    exact Nat.le_refl _
  | @proceed now errand hmem =>
    cases errand with
    | inform n event =>
      obtain ⟨grace, followed, hfollow⟩ := s.engine.follow_eq (.ofTick now) event
      simp [Traffic.proceed, hfollow]
    | replay c u => simp [Traffic.proceed, Engine.replay]
    | acquire a => exact grants_attempt_le hmem now h
  | call c => exact grants_call_le h
  | fire t => exact grants_reclaim_le s.engine t resource user
  | deliver => exact Nat.le_of_eq (by rw [Engine.table_withDelivery])

/-! ## Where acquisitions come from -/

/-- An acquisition under way begins with the turn, with the scope that its resource has now, or it
was under way before with the same request and the same scope. -/
theorem Takes.acquire_mem (htakes : s.Takes turn s') {a : Acquisition}
    (hmem : .acquire a ∈ s'.errands) :
    (∃ now, turn = .ask now a.whole a.request ∧
      s.engine.graph.scope? a.request.resource = some a.scope) ∨
    ∃ b, .acquire b ∈ s.errands ∧
      a.request = b.request ∧ a.whole = b.whole ∧ a.scope = b.scope := by
  have hkept : ∀ errand, .acquire a ∈ s.errands.erase errand → ∃ b, .acquire b ∈ s.errands ∧
      a.request = b.request ∧ a.whole = b.whole ∧ a.scope = b.scope :=
    fun errand ha => ⟨a, List.mem_of_mem_erase ha, rfl, rfl, rfl⟩
  cases htakes with
  | idle | connect | close | hangUp | call | fire | deliver | remould =>
    exact .inr ⟨a, hmem, rfl, rfl, rfl⟩
  | login | logout =>
    refine .inr ⟨a, ?_, rfl, rfl, rfl⟩
    simpa [issue] using hmem
  | @ask now whole r b hbegin =>
    -- the only turn that starts one: its scope is resolved here, once
    obtain ⟨hrequest, hwhole, hscope⟩ := Locks.of_begin hbegin
    rcases List.mem_cons.1 hmem with hnew | hold
    · obtain rfl := Errand.acquire.inj hnew
      subst hrequest hwhole
      exact .inl ⟨now, rfl, hscope⟩
    · exact .inr ⟨a, hold, rfl, rfl, rfl⟩
  | abandon b => exact .inr (hkept _ hmem)
  | @proceed now errand hunderway =>
    right
    cases errand with
    | inform n event =>
      rcases List.mem_append.1 hmem with hreplay | hold
      · cases hconnection : event.connection <;> simp [hconnection] at hreplay
      · exact hkept _ hold
    | replay c user => exact hkept _ hmem
    | acquire b =>
      -- an attempt that has to wait goes on with the scope it has
      rcases List.mem_append.1 hmem with hnext | hold
      · split at hnext
        · next hwaiting =>
          obtain rfl := Errand.acquire.inj (List.mem_singleton.1 hnext)
          exact ⟨b, hunderway, Locks.attempt_waiting hwaiting⟩
        · cases hnext
        · cases hnext
      · exact hkept _ hold

/-- An acquisition under way began with a look at the graph of that time. -/
theorem begun_of_mem (hidle : s.errands = []) (turns : List Turn) {a : Acquisition}
    (hmem : .acquire a ∈ (s.run turns).errands) :
    ∃ (earlier : List Turn) (now : Nat) (rest : List Turn),
      turns = earlier ++ .ask now a.whole a.request :: rest ∧
      (s.run earlier).engine.graph.scope? a.request.resource = some a.scope := by
  induction turns using List.reverseRecOn generalizing a with
  | nil => simp [run, hidle] at hmem
  | append_singleton turns turn ih =>
    have hrun : s.run (turns ++ [turn]) = (s.run turns).take turn := by simp [run]
    rw [hrun] at hmem
    rcases ((s.run turns).takes_take turn).acquire_mem hmem with ⟨now, rfl, hscope⟩ | hbefore
    · exact ⟨turns, now, [], rfl, hscope⟩
    · obtain ⟨b, hb, hrequest, hwhole, hscope⟩ := hbefore
      obtain ⟨earlier, now, rest, rfl, hlooked⟩ := ih hb
      refine ⟨earlier, now, rest ++ [turn], ?_, ?_⟩
      · rw [hrequest, hwhole, List.append_assoc, List.cons_append]
      · rw [hrequest, hscope]
        exact hlooked

/-! ## Runs -/

/-- Whatever is granted is admitted by the graph in which the request began, on the table just
before the grant: for a call of a single step that is the present graph, and for an acquisition
the one in which it was asked for. Where the resource still has the scope that it had then, the
present graph admits the request as well. -/
theorem granted_run (settings : Settings) (graph : Graph) (turns : List Turn) (turn : Turn)
    (whole : Bool) (r : Request) :
    let start := start settings graph
    let s := start.run turns
    turn.On s.engine.graph → s.Grants turn whole r →
    ∃ earlier later, turns = earlier ++ later ∧
      (later = [] ∨ ∃ now rest, later = .ask now whole r :: rest) ∧
      (start.run earlier).engine.graph.Admits s.engine.locks.table whole r ∧
      (s.engine.graph.scope? r.resource =
        (start.run earlier).engine.graph.scope? r.resource →
        s.engine.graph.Admits s.engine.locks.table whole r) := by
  intro start s hon hgrants
  cases hgrants with
  | @attempt now a handle hmem hgranted =>
    obtain ⟨earlier, asked, rest, hturns, hscope⟩ := begun_of_mem rfl turns hmem
    have hattempt := Locks.enters_attempt s.engine.locks now a
    rw [hgranted] at hattempt
    have hadmits := hattempt.admits hscope
    exact ⟨earlier, _, hturns, .inr ⟨asked, rest, rfl⟩, hadmits, hadmits.congr⟩
  | @call c _ scope _ hplan hdone =>
    have hperform := Call.enters_perform hplan
    rw [hdone] at hperform
    have hadmits := hperform.admits (Call.On.plan? hon hplan)
    exact ⟨turns, [], (List.append_nil turns).symm, .inl rfl, hadmits, hadmits.congr⟩

/-- While Alice waits for the action point, it is removed and Bob unlocks it. -/
def removedWhileWaiting : List Turn :=
  [.call (.lock actionPoint 0 "ap_1" "bob" false), .ask 0 false wish.request,
    .proceed 0 (.acquire wish), .remould (actionPoint.remove "ap_1").1,
    .call (.unlock "ap_1" "bob")]

theorem grants_removedWhileWaiting :
    ((start {} actionPoint).run removedWhileWaiting).Grants (.proceed 1 (.acquire wishRefused))
      false wish.request := by
  have hmem : .acquire wishRefused ∈ ((start {} actionPoint).run removedWhileWaiting).errands := by
    decide +kernel
  have hgranted : (((start {} actionPoint).run removedWhileWaiting).engine.locks.attempt 1
      wishRefused).2 = .granted (Handle.ofRequest wish.request) := by
    decide +kernel
  exact .attempt hmem hgranted

/-- She is granted what the graph of an earlier time admits. -/
theorem granted_run_removedWhileWaiting :
    ((start {} actionPoint).run removedWhileWaiting).Grants (.proceed 1 (.acquire wishRefused))
      false wish.request ∧
    ∃ earlier, earlier <+: removedWhileWaiting ∧
      ((start {} actionPoint).run earlier).engine.graph.Admits
        ((start {} actionPoint).run removedWhileWaiting).engine.locks.table false wish.request := by
  have hgranted := granted_run {} actionPoint removedWhileWaiting
    (.proceed 1 (.acquire wishRefused)) false wish.request True.intro grants_removedWhileWaiting
  obtain ⟨earlier, later, hturns, -, hadmits, -⟩ := hgranted
  exact ⟨grants_removedWhileWaiting, earlier, ⟨later, hturns.symm⟩, hadmits⟩

/-- The present graph does not admit it: the action point is gone. -/
theorem not_admits_removedWhileWaiting :
    let s := (start {} actionPoint).run removedWhileWaiting
    s.Grants (.proceed 1 (.acquire wishRefused)) false wish.request ∧
      s.engine.graph.contains "ap_1" = false ∧
      ¬ s.engine.graph.Admits s.engine.locks.table false wish.request := by
  intro s
  have hgone : s.engine.graph.contains "ap_1" = false := by decide +kernel
  refine ⟨grants_removedWhileWaiting, hgone, ?_⟩
  intro hadmits
  obtain ⟨-, scope, hscope, -⟩ := hadmits
  have hknown : (s.engine.graph.scope? "ap_1").isSome = true := Option.isSome_of_eq_some hscope
  rw [Graph.isSome_scope?, hgone] at hknown
  cases hknown

end Traffic

end SceneLocks
