import Mathlib.Data.List.Find
import SceneLocks.Proofs.Locks.Answers
import SceneLocks.Proofs.Locks.Mirror
import SceneLocks.Proofs.Locks.TreeExclusion

/-!
# Calls on different resources

A call on one resource reads the entries of the resource and of its relatives and the editor locks
on the resource, and writes the entry of the resource and the editor locks on it. So two calls on
resources that are no relatives come to the same in either order (`comm_perform`).
-/

namespace SceneLocks

/-! ## Tables that agree -/

namespace Table

/-- Two tables with the same entry for a resource, and with the same editor locks on it. -/
structure AgreeAt (resource : Resource) (t t' : Table) : Prop where
  lookup? : t.lookup? resource = t'.lookup? resource
  coverage? : ∀ user, t.coverage? user resource = t'.coverage? user resource

/-- The tables have the same entries for the relatives of the resource as well. -/
structure AgreeAround (g : Graph) (resource : Resource) (t t' : Table) : Prop
    extends AgreeAt resource t t' where
  relatives : ∀ relative, g.Related resource relative → t.lookup? relative = t'.lookup? relative

variable {t t' t'' : Table} {resource : Resource} {g : Graph}

theorem agreeAt_rfl : AgreeAt resource t t := ⟨rfl, fun _ => rfl⟩

theorem AgreeAt.symm (h : AgreeAt resource t t') : AgreeAt resource t' t :=
  ⟨h.lookup?.symm, fun user => (h.coverage? user).symm⟩

theorem AgreeAt.trans (h : AgreeAt resource t t') (h' : AgreeAt resource t' t'') :
    AgreeAt resource t t'' :=
  ⟨h.lookup?.trans h'.lookup?, fun user => (h.coverage? user).trans (h'.coverage? user)⟩

/-- Among the relatives in the scope of a resource may be the resource itself, on a cycle. -/
theorem AgreeAround.related {scope : Scope} (h : AgreeAround g resource t t')
    (hscope : g.scope? resource = some scope) {relative : Resource}
    (hrelative : relative ∈ scope.related) : t.lookup? relative = t'.lookup? relative := by
  by_cases hself : relative = resource
  · rw [hself]
    exact h.lookup?
  · exact h.relatives relative ((Graph.mem_related_scope? hscope hself).1 hrelative)

/-- As nobody is listed without editor locks, tables that agree at every resource are the same. -/
theorem Listed.eq_of_agreeAt (h : t.Listed) (h' : t'.Listed)
    (hagree : ∀ resource, AgreeAt resource t t') : t = t' := by
  have hentries : t.entries = t'.entries :=
    Std.ExtTreeMap.ext_getElem? fun resource => (hagree resource).lookup?
  have hlisted : ∀ (t t' : Table), t.Listed → (∀ resource, AgreeAt resource t t') →
      ∀ (user : User) covers, t.shown[user]? = some covers → t'.shown[user]? = some covers := by
    intro t t' h hagree user covers hcovers
    obtain ⟨root, hroot⟩ := h user covers hcovers
    have hcovered : ∀ resource : Resource,
        t'.shown[user]?.bind (·[resource]?) = covers[resource]? := by
      intro resource
      have hcoverage := (hagree resource).coverage? user
      rw [Table.coverage?, hcovers, Option.bind_some] at hcoverage
      exact hcoverage.symm
    cases hcovers' : t'.shown[user]? with
    | none =>
      -- who is listed has an editor lock, which the other table has as well
      have hnone := hcovered root
      rw [hcovers', Option.bind_none] at hnone
      exact absurd hnone.symm (Option.isSome_iff_ne_none.1
        (Std.ExtTreeMap.mem_iff_isSome_getElem?.1 hroot))
    | some covers' =>
      congr 1
      exact Std.ExtTreeMap.ext_getElem? fun resource => by
        have hsame := hcovered resource
        rwa [hcovers', Option.bind_some] at hsame
  have hshown : t.shown = t'.shown := by
    refine Std.ExtTreeMap.ext_getElem? fun user => Option.ext fun c => ?_
    exact ⟨hlisted t t' h hagree user c,
      hlisted t' t h' (fun resource => (hagree resource).symm) user c⟩
  cases t
  cases t'
  simp_all

end Table

/-! ## Edits -/

namespace Edit

/-- The edit changes the entry of the resource, or the editor locks on it. -/
def At (resource : Resource) : Edit → Prop
  | .grant r _ _ _ | .revoke r _ | .revokeAll r _ | .setTree r _ => r = resource
  | .cover _ root _ | .uncover _ root => root = resource
  | .uncoverAll _ => False
  | .announce _ => True

variable {edit : Edit} {resource : Resource} {t t' : Table}

/-- An edit at a resource changes nothing elsewhere. -/
theorem At.agreeAt_of_ne {other : Resource} (h : edit.At resource) (hne : resource ≠ other)
    (t : Table) : (edit.apply t).AgreeAt other t := by
  cases edit with
  | uncoverAll owner => exact h.elim
  | announce event => exact Table.agreeAt_rfl
  | _ =>
    obtain rfl := h
    constructor <;> simp [apply, Table.lookup?_grant, Table.lookup?_revoke,
      Table.lookup?_revokeAll, Table.lookup?_setTree, Table.coverage?_cover,
      Table.coverage?_uncover, hne]

/-- What an edit at a resource makes of it depends on nothing else. -/
theorem At.agreeAt (h : edit.At resource) (hagree : t.AgreeAt resource t') :
    (edit.apply t).AgreeAt resource (edit.apply t') := by
  have hlookup := hagree.lookup?
  have hcoverage := hagree.coverage?
  cases edit with
  | uncoverAll owner => exact h.elim
  | announce event => exact hagree
  | _ =>
    obtain rfl := h
    constructor <;> simp [apply, Table.lookup?_grant, Table.lookup?_revoke,
      Table.lookup?_revokeAll, Table.lookup?_setTree, Table.coverage?_cover,
      Table.coverage?_uncover, hlookup, hcoverage]

end Edit

namespace Section

/-- Every edit of the section is at the resource. -/
def At (resource : Resource) (s : Section) : Prop := ∀ edit ∈ s, edit.At resource

variable {s s₁ s₂ : Section} {resource r₁ r₂ : Resource} {t t' : Table}

theorem at_nil : At resource [] := by
  simp [At]

theorem At.cons {edit : Edit} (hedit : edit.At resource) (h : s.At resource) :
    Section.At resource (edit :: s) :=
  List.forall_mem_cons.2 ⟨hedit, h⟩

theorem At.append (h₁ : s₁.At resource) (h₂ : s₂.At resource) :
    Section.At resource (s₁ ++ s₂) :=
  List.forall_mem_append.2 ⟨h₁, h₂⟩

theorem at_announceAll (event : Resource → Event) (resources : Std.ExtTreeSet Resource) :
    (announceAll event resources).At resource := by
  simp [At, announceAll, Edit.At]

/-- An editor lock is announced and recorded. -/
theorem at_redrawn (event : Resource → Event) (resources covered : Std.ExtTreeSet Resource)
    (owner : User) (resource : Resource) :
    At resource (announceAll event resources ++ [.cover owner resource covered]) := by
  apply (at_announceAll event resources).append
  simp [At, Edit.At]

theorem At.agreeAt_of_ne {other : Resource} (h : s.At resource) (hne : resource ≠ other)
    (t : Table) : (s.result t).AgreeAt other t := by
  induction s generalizing t with
  | nil => exact Table.agreeAt_rfl
  | cons edit s ih =>
    obtain ⟨hedit, hrest⟩ := List.forall_mem_cons.1 h
    exact (ih hrest (edit.apply t)).trans (hedit.agreeAt_of_ne hne t)

theorem At.agreeAt (h : s.At resource) (hagree : t.AgreeAt resource t') :
    (s.result t).AgreeAt resource (s.result t') := by
  induction s generalizing t t' with
  | nil => exact hagree
  | cons edit s ih =>
    obtain ⟨hedit, hrest⟩ := List.forall_mem_cons.1 h
    exact ih hrest (hedit.agreeAt hagree)

/-- Sections at different resources come to the same in either order. -/
theorem At.comm (h₁ : s₁.At r₁) (h₂ : s₂.At r₂) (hne : r₁ ≠ r₂) (ht : t.Listed) :
    s₂.result (s₁.result t) = s₁.result (s₂.result t) := by
  -- what becomes of a resource is up to the section that is at it, be it the first or the second
  refine ((ht.result s₁).result s₂).eq_of_agreeAt ((ht.result s₂).result s₁) fun x => ?_
  by_cases hx₁ : r₁ = x
  · subst hx₁
    have hfirst := h₂.agreeAt_of_ne hne.symm (s₁.result t)
    exact hfirst.trans (h₁.agreeAt (h₂.agreeAt_of_ne hne.symm t).symm)
  · have hsecond := h₁.agreeAt_of_ne hx₁ (s₂.result t)
    by_cases hx₂ : r₂ = x
    · subst hx₂
      exact (h₂.agreeAt (h₁.agreeAt_of_ne hne t)).trans hsecond.symm
    · have hfirst := (h₂.agreeAt_of_ne hx₂ (s₁.result t)).trans (h₁.agreeAt_of_ne hx₁ t)
      exact hfirst.trans (hsecond.trans (h₂.agreeAt_of_ne hx₂ t)).symm

end Section

/-! ## What sections read -/

theorem findSome?_congr {α β : Type} {f f' : α → Option β} {l : List α}
    (h : ∀ x ∈ l, f x = f' x) : l.findSome? f = l.findSome? f' := by
  induction l with
  | nil => rfl
  | cons x l ih =>
    obtain ⟨hx, hl⟩ := List.forall_mem_cons.1 h
    rw [List.findSome?_cons, List.findSome?_cons, hx, ih hl]

namespace Table

variable {t t' : Table} {g : Graph} {resource : Resource} {scope : Scope}

theorem AgreeAround.conflict? (h : AgreeAround g resource t t')
    (hscope : g.scope? resource = some scope) (mode : Mode) (tree : Bool) :
    t.conflict? scope mode tree = t'.conflict? scope mode tree := by
  unfold Table.conflict?
  rw [Graph.resource_scope? hscope, h.lookup?]
  congr 1
  exact findSome?_congr fun relative hrelative => by rw [h.related hscope hrelative]

theorem AgreeAround.lockedRelative? (h : AgreeAround g resource t t')
    (hscope : g.scope? resource = some scope) :
    t.lockedRelative? scope = t'.lockedRelative? scope :=
  List.find?_congr fun relative hrelative => by rw [h.related hscope hrelative]

theorem AgreeAt.alreadyHeld (h : AgreeAt resource t t') (owner : User) (tree : Bool) :
    Locks.alreadyHeld t resource owner tree = Locks.alreadyHeld t' resource owner tree := by
  rw [Locks.alreadyHeld, Locks.alreadyHeld, h.lookup?]

theorem AgreeAt.releasing (h : AgreeAt resource t t') (owner : User) :
    t.releasing resource owner = t'.releasing resource owner := by
  unfold Table.releasing
  rw [h.lookup?, h.coverage?]

theorem AgreeAround.updating (h : AgreeAround g resource t t')
    (hscope : g.scope? resource = some scope) (owner : User) (kind : UpdateKind) :
    t.updating scope owner kind = t'.updating scope owner kind := by
  have hresource := Graph.resource_scope? hscope
  unfold Table.updating extending shrinking
  simp only [hresource, h.lookup?, h.coverage?, h.lockedRelative? hscope]

theorem at_granting {whole : Bool} {r : Request} {s : Section}
    (hs : t.granting whole scope r = .ok s) : s.At r.resource := by
  unfold granting at hs
  split at hs
  · cases hs
  · cases hs
    refine Section.At.cons rfl ?_
    cases r.visibility with
    | internal => exact Section.at_nil
    | ui => exact Section.at_redrawn _ _ _ _ _

theorem at_releasing {owner : User} {s : Section} (hs : t.releasing resource owner = .ok s) :
    s.At resource := by
  unfold Table.releasing at hs
  split at hs
  · cases hs
  · split at hs
    · cases hs
      refine Section.At.cons rfl ?_
      split
      · exact Section.At.cons rfl (Section.at_announceAll _ _)
      · exact Section.at_nil
    · cases hs

theorem at_extending {owner : User} {e : Entry} {s : Section}
    (hs : t.extending scope owner e = .ok s) : s.At scope.resource := by
  unfold extending at hs
  split at hs
  · cases hs
  · split at hs
    · cases hs
    · cases hs
      refine Section.At.cons rfl ?_
      split
      · exact Section.at_nil
      · exact Section.at_redrawn _ _ _ _ _

theorem at_shrinking {owner : User} {e : Entry} {s : Section}
    (hs : t.shrinking scope owner e = .ok s) : s.At scope.resource := by
  unfold shrinking at hs
  split at hs
  · cases hs
    refine Section.At.cons rfl ?_
    split
    · exact Section.at_nil
    · exact Section.at_redrawn _ _ _ _ _
  · cases hs

theorem at_updating {owner : User} {kind : UpdateKind} {s : Section}
    (hs : t.updating scope owner kind = .ok s) : s.At scope.resource := by
  unfold Table.updating at hs
  split at hs
  · cases hs
  · split at hs
    · cases kind with
      | tree => exact at_extending hs
      | object => exact at_shrinking hs
    · cases hs

end Table

namespace Plan

/-- The plan is about one resource, and the whole structure is not asked for. -/
def At (resource : Resource) : Plan → Prop
  | .grant whole _ r => whole = false ∧ r.resource = resource
  | .release r _ => r = resource
  | .update scope _ _ => scope.resource = resource
  | .reclaim _ => False

variable {p : Plan} {resource : Resource} {g : Graph} {t t' : Table} {s : Section}

theorem At.section (h : p.At resource) (hs : p.edits t = .ok s) : s.At resource := by
  cases p with
  | grant whole scope r =>
    obtain ⟨-, rfl⟩ := h
    exact Table.at_granting hs
  | release r owner =>
    obtain rfl := h
    exact Table.at_releasing hs
  | reclaim owner => exact h.elim
  | update scope owner kind =>
    obtain rfl := h
    exact Table.at_updating hs

/-- What a plan comes to depends on the entries around its resource only. -/
theorem At.edits_congr (h : p.At resource) (hg : p.On g)
    (hagree : t.AgreeAround g resource t') : p.edits t = p.edits t' := by
  cases p with
  | grant whole scope r =>
    obtain ⟨rfl, rfl⟩ := h
    simp only [edits, Table.granting, hagree.conflict? hg]
    rfl
  | release r owner =>
    obtain rfl := h
    exact hagree.releasing owner
  | reclaim owner => exact h.elim
  | update scope owner kind =>
    obtain rfl := h
    exact hagree.updating hg owner kind

end Plan

/-! ## Calls -/

/-- In which order notifications are queued makes no difference to which are. -/
theorem Queue.perm_push (q : Queue) (ns ms : List Notification) :
    ((q.push ns).push ms).pending.Perm ((q.push ms).push ns).pending := by
  rw [push_push, push_push]
  cases hopen : q.isOpen with
  | true =>
    rw [pending_push_of_isOpen hopen, pending_push_of_isOpen hopen]
    exact List.perm_append_comm.append_left q.pending
  | false => simp [push_of_not_isOpen hopen]

namespace Call

/-- The call is about one resource. Requests for whole structures, reclamations and replays look at
the whole table. -/
def At (resource : Resource) : Call → Prop
  | .attempt _ a _ => a.whole = false ∧ a.request.resource = resource
  | .acquireOnce _ _ whole r => whole = false ∧ r.resource = resource
  | .lock _ _ r _ _ | .unlock r _ | .updateLock _ r _ _ => r = resource
  | .release h => h.resource = resource
  | .drop h => h.handle.resource = resource
  | .releaseAll _ | .replay .. => False

variable {c c₁ c₂ : Call} {resource r₁ r₂ : Resource} {g : Graph} {t t' : Table} {p : Plan}

theorem At.plan (h : c.At resource) (hplan : c.plan? t = some p) : p.At resource := by
  cases plans_of_plan? hplan with
  | attempt now a resolved => exact h
  | acquireOnce now whole r hscope => exact h
  | lock now hheld hscope => exact ⟨rfl, h⟩
  | updateLock owner kind hscope => exact (Graph.resource_scope? hscope).trans h
  | releaseAll owner => exact h.elim
  | _ => exact h

theorem At.plan?_congr (h : c.At resource) (hagree : t.AgreeAt resource t') :
    c.plan? t = c.plan? t' := by
  cases c with
  | lock g now r owner tree =>
    obtain rfl := h
    rw [plan?, plan?, hagree.alreadyHeld]
  | drop holding => cases holding <;> rfl
  | _ => rfl

/-- What a call answers when its section comes to an end does not depend on other resources. -/
theorem At.answer_congr (h : c.At resource) : c.answer t = c.answer t' := by
  cases c with
  | releaseAll owner => exact h.elim
  | _ => rfl

theorem At.atOnce_congr (h : c.At resource) (hagree : t.AgreeAt resource t') :
    c.atOnce t = c.atOnce t' := by
  cases c with
  | lock g now r owner tree =>
    obtain rfl := h
    simp only [atOnce, answerAtOnce, hagree.alreadyHeld]
  | replay connection user => exact h.elim
  | _ => rfl

theorem At.edits (h : c.At resource) (t : Table) : (c.outcome t).edits.At resource := by
  cases hplan : c.plan? t with
  | none =>
    rw [outcome_of_plan?_eq_none hplan, edits_atOnce]
    exact Section.at_nil
  | some p =>
    cases hs : p.edits t with
    | error e =>
      rw [outcome_of_error hplan hs]
      exact Section.at_nil
    | ok s =>
      rw [outcome_of_ok hplan hs]
      exact (h.plan hplan).section hs

/-- What a call comes to depends on the table around its resource only. -/
theorem At.outcome_congr (h : c.At resource) (hg : c.On g)
    (hagree : t.AgreeAround g resource t') : c.outcome t = c.outcome t' := by
  have hsame := h.plan?_congr hagree.toAgreeAt
  cases hplan : c.plan? t with
  | none =>
    rw [outcome_of_plan?_eq_none hplan, outcome_of_plan?_eq_none (hsame ▸ hplan),
      h.atOnce_congr hagree.toAgreeAt]
  | some p =>
    have hplan' : c.plan? t' = some p := hsame ▸ hplan
    have hedits := (h.plan hplan).edits_congr (hg.plan? hplan) hagree
    cases hs : p.edits t with
    | error e => rw [outcome_of_error hplan hs, outcome_of_error hplan' (hedits ▸ hs)]
    | ok s =>
      rw [outcome_of_ok hplan hs, outcome_of_ok hplan' (hedits ▸ hs), h.answer_congr]

/-- A call leaves all as it was around a resource that is no relative of its own. -/
theorem At.agreeAround (h : c₁.At r₁) (hne : r₁ ≠ r₂) (hrelated : ¬ g.Related r₁ r₂) (t : Table) :
    ((c₁.outcome t).edits.result t).AgreeAround g r₂ t where
  toAgreeAt := (h.edits t).agreeAt_of_ne hne t
  relatives relative hrelative := by
    have hother : r₁ ≠ relative := by
      rintro rfl
      exact hrelated hrelative.symm
    exact ((h.edits t).agreeAt_of_ne hother t).lookup?

end Call

/-! ## Runs -/

namespace Locks

/-- Calls on resources that are no relatives commute: in either order each call comes to the same,
the table is the same in the end, and the same events are queued. This is so after every run, unless
a fault is in the making, which hits the first of the calls that has an event to announce. -/
theorem comm_perform {g : Graph} (settings : LockSettings) (steps : List Step) {c₁ c₂ : Call}
    {r₁ r₂ : Resource} (h₁ : c₁.At r₁) (h₂ : c₂.At r₂) (hg₁ : c₁.On g) (hg₂ : c₂.On g)
    (hne : r₁ ≠ r₂) (hrelated : ¬ g.Related r₁ r₂)
    (htrap : ((fresh settings).run steps).queue.trap? = none) :
    let l := (fresh settings).run steps
    let l₁ := (c₁.perform l).1
    let l₂ := (c₂.perform l).1
    (c₁.perform l₂).2 = (c₁.perform l).2 ∧ (c₂.perform l₁).2 = (c₂.perform l).2 ∧
      (c₂.perform l₁).1.table = (c₁.perform l₂).1.table ∧
      (c₂.perform l₁).1.queue.pending.Perm (c₁.perform l₂).1.queue.pending := by
  intro l l₁ l₂
  have hcomes₁ := Call.comesTo_perform htrap c₁
  have hcomes₂ := Call.comesTo_perform htrap c₂
  have htrap₁ : l₁.queue.trap? = none := by rwa [hcomes₁.queue, Queue.trap?_push]
  have htrap₂ : l₂.queue.trap? = none := by rwa [hcomes₂.queue, Queue.trap?_push]
  -- the second call comes to what it comes to without the first
  have hcongr₁ : c₁.outcome l₂.table = c₁.outcome l.table := by
    rw [hcomes₂.table]
    exact h₁.outcome_congr hg₁ (h₂.agreeAround hne.symm (fun h => hrelated h.symm) l.table)
  have hcongr₂ : c₂.outcome l₁.table = c₂.outcome l.table := by
    rw [hcomes₁.table]
    exact h₂.outcome_congr hg₂ (h₁.agreeAround hne hrelated l.table)
  have hcomes₁₂ := Call.comesTo_perform htrap₁ c₂
  have hcomes₂₁ := Call.comesTo_perform htrap₂ c₁
  rw [hcongr₂] at hcomes₁₂
  rw [hcongr₁] at hcomes₂₁
  refine ⟨hcomes₂₁.reply.trans hcomes₁.reply.symm, hcomes₁₂.reply.trans hcomes₂.reply.symm, ?_, ?_⟩
  · rw [hcomes₁₂.table, hcomes₂₁.table, hcomes₁.table, hcomes₂.table]
    exact (h₁.edits l.table).comm (h₂.edits l.table) hne (listed_run settings steps)
  · rw [hcomes₁₂.queue, hcomes₂₁.queue, hcomes₁.queue, hcomes₂.queue]
    exact Queue.perm_push l.queue _ _

/-- A table with a cup and a plate on it. -/
def setTable : Graph := cupOnTable.insert "plate" (some "table")

/-- Alice's editor has the cup. -/
def aliceHasCup : List Step := [.call (.lock setTable 0 "cup" "alice" false)]

/-- Alice, whose editor has the cup only, unlocks it and locks the plate, in either order. -/
theorem comm_perform_setTable :
    let unlock : Call := .unlock "cup" "alice"
    let lock : Call := .lock setTable 1 "plate" "alice" false
    let unlocked := unlock.perform ((fresh {}).run aliceHasCup)
    let locked := lock.perform ((fresh {}).run aliceHasCup)
    unlocked.2 = .done ∧ locked.2 = .done ∧ (unlock.perform locked.1).2 = .done ∧
      (lock.perform unlocked.1).2 = .done ∧
      (lock.perform unlocked.1).1.table = (unlock.perform locked.1).1.table := by
  intro unlock lock unlocked locked
  have hscope : setTable.scope? "cup" = some ⟨"cup", ["table"], []⟩ := by decide +kernel
  have hrelated : ¬ setTable.Related "cup" "plate" := by
    rw [← Graph.mem_related_scope? hscope (by decide)]
    decide
  have hunlock : unlocked.2 = .done := by decide +kernel
  have hlock : locked.2 = .done := by decide +kernel
  obtain ⟨hlater₁, hlater₂, htable, -⟩ := comm_perform {} aliceHasCup
    (show unlock.At "cup" from rfl) (show lock.At "plate" from rfl) trivial rfl (by decide) hrelated
    (by decide +kernel)
  exact ⟨hunlock, hlock, hlater₁.trans hunlock, hlater₂.trans hlock, htable⟩

end Locks

end SceneLocks
