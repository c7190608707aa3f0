import SceneLocks.Proofs.Locks.Answers
import SceneLocks.Proofs.Locks.Diagnosis
import SceneLocks.Proofs.Locks.Mirror

/-!
# What is shown is refused

The editors show all that a lock covers, but the table has an entry only for the root of the lock.
A request for a covered resource meets that entry all the same, among the relatives of the
resource: beside its root a lock covers only relatives of the root (`CoversRelatives`), and those
have the root among theirs. So no request that the editors would expect to fail is granted
(`refused_run`).
-/

namespace SceneLocks

namespace Table

/-! ## What is covered -/

/-- What an editor lock covers beside its root are relatives of the root. -/
def CoversRelatives (g : Graph) (t : Table) : Prop :=
  ∀ user root resource, t.Covers user root resource → resource ≠ root → g.Related root resource

variable {g : Graph} {t t' : Table} {s : Section}

theorem coversRelatives_empty (g : Graph) : CoversRelatives g .empty := by
  intro user root resource hcovers
  obtain ⟨covered, hcovered, -⟩ := hcovers
  simp [coverage?, Table.empty] at hcovered

/-- A record that is new goes by the scope of its root. -/
theorem CoversRelatives.of_record (h : t.CoversRelatives g)
    (hrecord : ∀ user root covered, t'.coverage? user root = some covered →
      t.coverage? user root = some covered ∨
      ∃ scope, g.scope? root = some scope ∧ ∀ resource ∈ covered, resource ∈ scope.coverage) :
    t'.CoversRelatives g := by
  intro user root resource hcovers hne
  obtain ⟨covered, hcovered, hmem⟩ := hcovers
  rcases hrecord user root covered hcovered with hold | ⟨scope, hscope, hnew⟩
  · exact h user root resource ⟨covered, hold, hmem⟩ hne
  · have hresource : scope.resource = root := Graph.resource_scope? hscope
    have hrelated : resource ∈ scope.related := by
      rcases (Scope.mem_coverage scope resource).1 (hnew resource hmem) with hself | hrelated
      · exact absurd (hself.trans hresource) hne
      · exact hrelated
    exact (Graph.mem_related_scope? hscope hne).1 hrelated

theorem CoversRelatives.granted {whole : Bool} {scope : Scope} {r : Request}
    (h : t.CoversRelatives g) (hscope : g.scope? r.resource = some scope)
    (hs : Granted t whole scope r s) : (s.result t).CoversRelatives g := by
  apply h.of_record
  intro user root covered hcovered
  rw [hs.coverage?] at hcovered
  split at hcovered
  · next hnew =>
    obtain ⟨-, -, rfl⟩ := hnew
    refine .inr ⟨scope, hscope, ?_⟩
    intro resource hmem
    rw [← Option.some.inj hcovered, coverageOf] at hmem
    split at hmem
    · exact hmem
    · simp_all [Graph.resource_scope? hscope]
  · exact .inl hcovered

theorem CoversRelatives.released {resource : Resource} {owner : User} {found : Entry}
    (h : t.CoversRelatives g) (hs : Released t resource owner found s) :
    (s.result t).CoversRelatives g := by
  apply h.of_record
  intro user root covered hcovered
  rw [hs.coverage?] at hcovered
  exact .inl (Option.ite_none_left_eq_some.1 hcovered).2

theorem CoversRelatives.reclaimed {owner : User} (h : t.CoversRelatives g)
    (hs : Reclaimed t owner s) : (s.result t).CoversRelatives g := by
  apply h.of_record
  intro user root covered hcovered
  rw [hs.coverage?] at hcovered
  exact .inl (Option.ite_none_left_eq_some.1 hcovered).2

/-- An update records the scope that it was made for, or the resource alone. -/
theorem CoversRelatives.updated {scope : Scope} {owner : User} {found : Entry}
    {kind : UpdateKind} (h : t.CoversRelatives g)
    (hscope : g.scope? scope.resource = some scope) (hs : Updated t scope owner found s kind) :
    (s.result t).CoversRelatives g := by
  have hresized : ∃ tree covered, Resized t scope.resource owner found tree covered s ∧
      ∀ resource ∈ covered, resource ∈ scope.coverage := by
    cases kind with
    | tree => exact ⟨true, scope.coverage, Extended.toResized hs, fun _ => id⟩
    | object => exact ⟨false, {scope.resource}, Shrunk.toResized hs, by simp⟩
  obtain ⟨tree, covered, hresized, hwithin⟩ := hresized
  apply h.of_record
  intro user root now hnow
  rw [hresized.coverage?] at hnow
  split at hnow
  · next hroot =>
    obtain ⟨-, rfl⟩ := hroot
    obtain ⟨previous, -, rfl⟩ := Option.map_eq_some_iff.1 hnow
    exact .inr ⟨scope, hscope, hwithin⟩
  · exact .inl hnow

theorem CoversRelatives.result {p : Plan} (hp : p.On g) (h : t.CoversRelatives g)
    (hs : p.edits t = .ok s) : (s.result t).CoversRelatives g := by
  have hdone := Plan.done_of_edits hs
  cases p with
  | grant whole scope r => exact h.granted hp hdone
  | release resource owner =>
    obtain ⟨e, hreleased⟩ := hdone
    exact h.released hreleased
  | reclaim owner => exact h.reclaimed hdone
  | update scope owner kind =>
    obtain ⟨e, hupdated⟩ := hdone
    exact h.updated hp hupdated

/-! ## What stands in the way -/

variable {user : User} {root resource : Resource} {e : Entry}

/-- The root of a lock has an entry. -/
theorem Covers.lookup? (h : t.Covers user root resource) (hcovered : t.Covered) :
    ∃ e, t.lookup? root = some e := by
  obtain ⟨covered, hrecord, -⟩ := h
  obtain ⟨-, e, he, -⟩ := hcovered user root covered hrecord
  exact ⟨e, he⟩

/-- A lock covers a resource other than its root only as a tree lock on a relative. -/
theorem Covers.tree (h : t.Covers user root resource) (hne : resource ≠ root)
    (hcovered : t.Covered) (hrelatives : t.CoversRelatives g) (he : t.lookup? root = some e) :
    e.tree = true ∧ g.Related resource root := by
  have hrelated := hrelatives user root resource h hne
  refine ⟨?_, hrelated.symm⟩
  obtain ⟨covered, hrecord, hmem⟩ := h
  by_contra hplain
  rw [hcovered.eq_singleton hrecord he (Bool.eq_false_iff.2 hplain)] at hmem
  have hself : root = resource := by simpa using hmem
  exact hne hself.symm

/-- The entry at the root of a lock stands in the way of a request for anything that the lock
covers, unless request and lock are shared and the lock is plain. -/
theorem Covers.conflict? {scope : Scope} {mode : Mode} (h : t.Covers user root resource)
    (hcovered : t.Covered) (hrelatives : t.CoversRelatives g)
    (hscope : g.scope? resource = some scope) (he : t.lookup? root = some e)
    (hstrong : mode = .exclusive ∨ e.mode = .exclusive ∨ e.tree = true) (tree : Bool) :
    t.conflict? scope mode tree ≠ none := by
  intro hfree
  obtain ⟨hown, hrelated⟩ := conflict?_eq_none_iff.1 hfree
  have hresource : scope.resource = resource := Graph.resource_scope? hscope
  by_cases hroot : resource = root
  · -- the request is for the root itself
    subst hroot
    obtain ⟨hshared, hrequest, hplain, -⟩ := hown e (hresource ▸ he)
    rcases hstrong with hstrong | hstrong | hstrong <;> simp_all
  · obtain ⟨htree, hrelative⟩ := h.tree hroot hcovered hrelatives he
    have hmem : root ∈ scope.related :=
      (Graph.mem_related_scope? hscope (Ne.symm hroot)).2 hrelative
    obtain ⟨hplain, -⟩ := hrelated root hmem e he
    rw [htree] at hplain
    cases hplain

theorem granting_of_conflict? {scope : Scope} {r : Request}
    (h : t.conflict? scope r.mode r.tree ≠ none) (whole : Bool) :
    ∃ conflict : Conflict, t.granting whole scope r = .error (conflict.refusal r.resource) := by
  unfold granting
  split
  · next conflict _ => exact ⟨conflict, rfl⟩
  · next hfree => exact absurd (Option.or_eq_none_iff.1 hfree).2 h

end Table

/-! ## Runs -/

namespace Locks

/-- Whoever makes a single attempt to get the resource in this mode, plain or with its tree, is
told that it cannot be locked. -/
def Refuses (l : Locks) (g : Graph) (resource : Resource) (mode : Mode) : Prop :=
  ∀ (now : Nat) (whole : Bool) (r : Request), r.resource = resource → r.mode = mode →
    ∃ reason, (l.acquireOnce g now whole r).2 = .error (.cannotLock resource reason)

theorem refuses_of_conflict? {l : Locks} {g : Graph} {resource : Resource} {mode : Mode}
    {scope : Scope} (hscope : g.scope? resource = some scope)
    (hconflict : ∀ tree, l.table.conflict? scope mode tree ≠ none) :
    l.Refuses g resource mode := by
  intro now whole r hresource hmode
  subst hresource hmode
  obtain ⟨conflict, hrefused⟩ :=
    Table.granting_of_conflict? (r := r.once) (hconflict r.tree) whole
  exact ⟨conflict.message, acquireOnce_of_error hscope hrefused now⟩

theorem coversRelatives_run {g : Graph} (settings : LockSettings) {steps : List Step}
    (hg : ∀ step ∈ steps, step.On g) :
    ((fresh settings).run steps).table.CoversRelatives g :=
  invariant_run (Table.coversRelatives_empty g) (fun _ _ _ hp h hs => h.result hp hs) settings
    fun _ hc _ _ hplan => Call.On.plan? (hg _ hc) hplan

/-- What the editors show as locked is refused, as long as the graph stays as it is: nobody gets a
node that is shown for any user exclusively, and nobody gets it at all if a lock that covers it is
exclusive or a tree lock. Such a lock on another node leaves the node without an entry. -/
theorem refused_run {g : Graph} (settings : LockSettings) {steps : List Step}
    (hg : ∀ step ∈ steps, step.On g) {user : User} {resource : Resource}
    {resources : Std.ExtTreeSet Resource}
    (hshown : ((fresh settings).run steps).table.shownLocks[user]? = some resources)
    (hmem : resource ∈ resources) (hnode : g.contains resource = true) :
    let l := (fresh settings).run steps
    l.Refuses g resource .exclusive ∧
      ∀ root e, l.table.Covers user root resource → l.table.lookup? root = some e →
        e.mode = .exclusive ∨ e.tree = true →
        l.Refuses g resource .shared ∧ (resource ≠ root → l.table.lookup? resource = none) := by
  intro l
  have hcovered := (consistent_run settings steps).covered
  have hrelatives := coversRelatives_run settings hg
  have hapart := (exclusion_run settings hg).apart
  have hknown : (g.scope? resource).isSome = true := g.isSome_scope? resource ▸ hnode
  obtain ⟨scope, hscope⟩ := Option.isSome_iff_exists.1 hknown
  constructor
  · obtain ⟨root, hcovers⟩ := Table.mem_shownLocks.1 ⟨resources, hshown, hmem⟩
    obtain ⟨e, he⟩ := hcovers.lookup? hcovered
    apply refuses_of_conflict? hscope
    exact hcovers.conflict? hcovered hrelatives hscope he (.inl rfl)
  · intro root e hcovers he hstrong
    constructor
    · apply refuses_of_conflict? hscope
      exact hcovers.conflict? hcovered hrelatives hscope he (.inr hstrong)
    · intro hne
      obtain ⟨htree, hrelated⟩ := hcovers.tree hne hcovered hrelatives he
      -- the tree lock on its root leaves no relative with an entry
      rw [Option.eq_none_iff_forall_ne_some]
      intro f hf
      obtain ⟨-, hplain⟩ := hapart resource root hrelated f e hf he
      rw [htree] at hplain
      cases hplain

/-- Alice locks the tree around the cup, hence the table as well. -/
def cupTree : List Step := [.call (.lock cupOnTable 0 "cup" "alice" true)]

theorem refused_run_cupTree :
    let l := (fresh {}).run cupTree
    l.table.shownLocks["alice"]? = some {"cup", "table"} ∧
      l.Refuses cupOnTable "table" .exclusive ∧ l.Refuses cupOnTable "table" .shared ∧
      l.table.lookup? "table" = none := by
  intro l
  have hg : ∀ step ∈ cupTree, step.On cupOnTable := by simp [cupTree, Step.On, Call.On]
  have hshown : l.table.shownLocks["alice"]? = some {"cup", "table"} := by decide +kernel
  have hcovers : l.table.Covers "alice" "cup" "table" :=
    ⟨{"cup", "table"}, by decide +kernel, by decide +kernel⟩
  obtain ⟨e, he, htree⟩ : ∃ e, l.table.lookup? "cup" = some e ∧ e.tree = true :=
    (Option.any_eq_true _ _).1 (by decide +kernel)
  have hmem : "table" ∈ ({"cup", "table"} : Std.ExtTreeSet Resource) := by decide +kernel
  obtain ⟨hexclusive, hrest⟩ := refused_run {} hg hshown hmem (by decide +kernel)
  obtain ⟨hshared, hnone⟩ := hrest "cup" e hcovers he (.inr htree)
  exact ⟨hshown, hexclusive, hshared, hnone (by decide)⟩

end Locks

end SceneLocks
