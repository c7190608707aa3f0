import SceneLocks.Proofs.Locks.EditorLocks
import SceneLocks.Proofs.Locks.Refusal

/-!
# Locks on a whole structure

A whole structure is locked as the tree around its root, and on top of that nothing may be held
exclusively or shown by the editors, wherever it is. The lock itself is exclusive, so until it is
given back it keeps every other structure from being locked as a whole, related or not; and as long
as it covers its tree, nobody gets anything of its own structure (`wholeLock_run`).
-/

namespace SceneLocks

/-! ## What is in the way -/

namespace Table

variable {t : Table} {g : Graph} {root : Resource} {user : User}

theorem exclusiveCount_eq_zero_iff :
    t.exclusiveCount = 0 ↔ ∀ resource e, t.lookup? resource = some e → e.mode = .shared := by
  unfold exclusiveCount
  rw [← Std.ExtTreeMap.eq_empty_iff_size_eq_zero]
  constructor
  · intro hempty resource e he
    have hnone := congrArg (·[resource]?) hempty
    rw [lookup?] at he
    simp only [Std.ExtTreeMap.getElem?_filter, Std.ExtTreeMap.getElem?_empty, he] at hnone
    cases hmode : e.mode <;> simp_all
  · intro hshared
    refine Std.ExtTreeMap.ext_getElem? fun resource => ?_
    rw [Std.ExtTreeMap.getElem?_filter, Std.ExtTreeMap.getElem?_empty]
    cases he : t.entries[resource]? with
    | none => rfl
    | some e =>
      have hmode : e.mode ≠ .exclusive := by
        rw [hshared resource e he]
        decide
      simp [hmode]

/-- Nothing is shown and nothing is held exclusively, and the structure around the root is free. -/
structure Vacant (g : Graph) (root : Resource) (t : Table) : Prop where
  unshown : t.hasShownLocks = false
  shared : ∀ resource e, t.lookup? resource = some e → e.mode = .shared
  free : t.lookup? root = none
  relatives : ∀ relative, g.Related root relative → t.lookup? relative = none

theorem wholeConflict?_eq_none_iff :
    t.wholeConflict? = none ↔ t.hasShownLocks = false ∧
      ∀ resource e, t.lookup? resource = some e → e.mode = .shared := by
  rw [← exclusiveCount_eq_zero_iff, wholeConflict?]
  cases t.hasShownLocks <;> simp

theorem Granted.vacant {scope : Scope} {r : Request} {s : Section}
    (hs : Granted t true scope r s) (hscope : g.scope? r.resource = some scope)
    (hmode : r.mode = .exclusive) (htree : r.tree = true) : t.Vacant g r.resource := by
  obtain ⟨hunshown, hshared⟩ := wholeConflict?_eq_none_iff.1 (hs.wholeFree rfl)
  obtain ⟨hown, hrelatives⟩ := conflict?_eq_none_iff.1 hs.free
  rw [Graph.resource_scope? hscope] at hown
  refine ⟨hunshown, hshared, ?_, ?_⟩
  · rw [Option.eq_none_iff_forall_ne_some]
    intro e he
    have hexclusive := (hown e he).2.1
    rw [hmode] at hexclusive
    cases hexclusive
  · intro relative hrelated
    rw [Option.eq_none_iff_forall_ne_some]
    intro e he
    have hmem := (Graph.mem_related_scope? hscope hrelated.1.symm).2 hrelated
    have hplain := (hrelatives relative hmem e he).2
    rw [htree] at hplain
    cases hplain

/-- An exclusive lock, wherever it is, keeps every structure from being locked as a whole. -/
theorem Holds.granting_whole {tree : Bool} (h : t.Holds root user tree) (scope : Scope)
    (r : Request) :
    t.granting true scope r = .error (Conflict.somethingLocked.refusal r.resource) := by
  obtain ⟨e, he, hexclusive, -⟩ := h
  have hsome : t.wholeConflict? = some .somethingLocked := by
    have hcount : t.exclusiveCount ≠ 0 := by
      rw [ne_eq, exclusiveCount_eq_zero_iff]
      intro hshared
      rw [hshared root e he] at hexclusive
      cases hexclusive
    simp [wholeConflict?, Nat.pos_of_ne_zero hcount]
  simp [granting, hsome]

/-- An exclusive tree lock refuses every request for its root or for a relative of its root. -/
theorem Holds.conflict?_ne_none {scope : Scope} {resource : Resource}
    (h : t.Holds root user true) (hscope : g.scope? resource = some scope)
    (hwithin : resource = root ∨ g.Related root resource) (mode : Mode) (tree : Bool) :
    t.conflict? scope mode tree ≠ none := by
  intro hfree
  obtain ⟨e, he, hexclusive, -, htree⟩ := h
  obtain ⟨hown, hrelatives⟩ := conflict?_eq_none_iff.1 hfree
  rcases hwithin with rfl | hrelated
  · rw [Graph.resource_scope? hscope] at hown
    have hshared := (hown e he).1
    rw [hexclusive] at hshared
    cases hshared
  · have hmem := (Graph.mem_related_scope? hscope hrelated.1).2 hrelated.symm
    have hplain := (hrelatives root hmem e he).1
    rw [htree rfl] at hplain
    cases hplain

end Table

/-! ## Requests -/

namespace Call

/-- The request that a call makes an attempt on, and whether it is for a whole structure. -/
def request? : Call → Option (Bool × Request)
  | .attempt _ a _ => some (a.whole, a.request)
  | .acquireOnce _ _ whole r => some (whole, r.once)
  | _ => none

/-- The call is an attempt to lock the whole structure at the root, retried however often. -/
def LocksWhole (root : Resource) (owner : User) (c : Call) : Prop :=
  ∃ r, c.request? = some (true, r) ∧ r.once = (Locks.wholeRequest root owner).once

variable {c : Call} {g : Graph} {l : Locks} {p : Plan} {whole : Bool} {r : Request}
  {root : Resource} {owner : User}

theorem plan?_of_request? {scope : Scope} (hg : c.On g) (hr : c.request? = some (whole, r))
    (hscope : g.scope? r.resource = some scope) (t : Table) :
    c.plan? t = some (.grant whole scope r) := by
  cases c with
  | attempt now a resolved =>
    cases hr
    have hsame : a.scope = scope := Option.some.inj ((show _ = _ from hg).symm.trans hscope)
    rw [plan?, hsame]
  | acquireOnce g' now whole' r' =>
    cases hr
    have hsame : g' = g := hg
    have hscope : g.scope? r'.resource = some scope := hscope
    rw [plan?, hsame, hscope]
    rfl
  | _ => cases hr

/-- A request that was granted is for a node of the graph. -/
theorem isSome_scope?_of_isSuccess (hg : c.On g) (hr : c.request? = some (whole, r))
    (hdone : (c.perform l).2.isSuccess = true) : ∃ scope, g.scope? r.resource = some scope := by
  cases c with
  | attempt now a resolved =>
    cases hr
    exact ⟨a.scope, hg⟩
  | acquireOnce g' now _ r' =>
    cases hr
    have hsame : g' = g := hg
    subst hsame
    cases hscope : g'.scope? r'.resource with
    | some scope => exact ⟨scope, hscope⟩
    | none =>
      rw [perform, Locks.acquireOnce_of_scope?_eq_none hscope] at hdone
      cases hdone
  | _ => cases hr

theorem LocksWhole.contains (h : c.LocksWhole root owner) (hg : c.On g)
    (hdone : (c.perform l).2.isSuccess = true) : g.contains root = true := by
  obtain ⟨r, hr, hrequest⟩ := h
  obtain rfl : r.resource = root := congrArg Request.resource hrequest
  obtain ⟨scope, hscope⟩ := isSome_scope?_of_isSuccess hg hr hdone
  rw [← g.isSome_scope?]
  exact Option.isSome_of_eq_some hscope

theorem LocksWhole.eq {root' : Resource} {owner' : User} (h : c.LocksWhole root owner)
    (h' : c.LocksWhole root' owner') : root = root' ∧ owner = owner' := by
  obtain ⟨r, hr, hrequest⟩ := h
  obtain ⟨_, hr', hrequest'⟩ := h'
  rw [hr] at hr'
  cases hr'
  rw [hrequest] at hrequest'
  exact ⟨congrArg Request.resource hrequest', congrArg Request.owner hrequest'⟩

/-- What a whole-structure lock found, and that it is held from then on. -/
theorem LocksWhole.granted (h : c.LocksWhole root owner) (hg : c.On g)
    (hdone : (c.perform l).2.isSuccess = true) :
    l.table.Vacant g root ∧ (c.perform l).1.table.Holds root owner true := by
  obtain ⟨r, hr, hrequest⟩ := h
  obtain ⟨rfl, rfl, hmode, htree⟩ :
      r.resource = root ∧ r.owner = owner ∧ r.mode = .exclusive ∧ r.tree = true := by
    simp only [Request.once, Locks.wholeRequest, Request.mk.injEq] at hrequest
    exact ⟨hrequest.1, hrequest.2.1, hrequest.2.2.1, hrequest.2.2.2.1⟩
  obtain ⟨scope, hscope⟩ := isSome_scope?_of_isSuccess hg hr hdone
  have hplan := plan?_of_request? hg hr hscope l.table
  rcases (enters_perform hplan).cases with ⟨-, s, hs, htable⟩ | ⟨hfailed, -⟩
  · have hgranted : Granted l.table true scope r s := Plan.done_of_edits hs
    have hvacant := Table.Granted.vacant hgranted hscope hmode htree
    refine ⟨hvacant, .first r.resource .exclusive r.owner true, ?_, rfl, by simp, id⟩
    rw [htable, hgranted.lookup?, if_pos rfl, hvacant.free, hmode, htree]
    rfl
  · rw [hdone] at hfailed
    cases hfailed

end Call

/-! ## Runs -/

namespace Locks

/-- No step performs a plan of this kind. -/
def Spares (l : Locks) (steps : List Step) (Such : Plan → Prop) : Prop :=
  ∀ earlier step, earlier ++ [step] <+: steps → ¬ step.Performs (l.run earlier) Such

variable {l : Locks} {steps : List Step} {Such : Plan → Prop} {root : Resource} {owner : User}
  {tree : Bool}

theorem Spares.of_prefix {first : List Step} (h : l.Spares steps Such) (hfirst : first <+: steps) :
    l.Spares first Such :=
  fun earlier step hearlier => h earlier step (hearlier.trans hfirst)

theorem Spares.head {step : Step} (h : l.Spares (step :: steps) Such) : ¬ step.Performs l Such :=
  h [] step (List.prefix_append [step] steps)

theorem Spares.tail {step : Step} (h : l.Spares (step :: steps) Such) :
    (step.perform l).Spares steps Such :=
  fun earlier next hearlier =>
    h (step :: earlier) next (List.cons_prefix_cons.2 ⟨rfl, hearlier⟩)

/-- An exclusive lock stands until a section ends it. -/
theorem holds_run (hcoherent : l.table.Coherent) (hholds : l.table.Holds root owner tree)
    (hspares : l.Spares steps (Plan.Ends root owner tree)) :
    (l.run steps).table.Holds root owner tree := by
  induction steps generalizing l with
  | nil => exact hholds
  | cons step steps ih =>
    -- only a section that ends the lock could take it away, and the steps are spared those
    rcases step.performs_cases l with ⟨p, s, hp, hs, htable, hperforms⟩ | ⟨htable, -⟩
    · have hends := mt (hperforms _).2 hspares.head
      apply ih (l := step.perform l)
      · exact htable ▸ hcoherent.result hp hs
      · exact htable ▸ (hholds.result_iff hcoherent hp hs).2 hends
      · exact hspares.tail
    · exact ih (htable ▸ hcoherent) (htable ▸ hholds) hspares.tail

/-- In this run, the call after the steps `before` was granted a lock on the whole structure at the
root, and no section since has ended it. With `tree`, none has taken its tree away either. -/
structure WholeLock (settings : LockSettings) (steps before : List Step) (c : Call)
    (after : List Step) (root : Resource) (owner : User) (tree : Bool) : Prop where
  split : steps = before ++ .call c :: after
  locks : c.LocksWhole root owner
  granted : (c.perform ((fresh settings).run before)).2.isSuccess = true
  kept : (c.perform ((fresh settings).run before)).1.Spares after (Plan.Ends root owner tree)

namespace WholeLock

variable {g : Graph} {settings : LockSettings} {before after before' after' : List Step}
  {c c' : Call} {root' : Resource} {owner' : User} {tree' : Bool}

theorem on (h : WholeLock settings steps before c after root owner tree)
    (hg : ∀ step ∈ steps, step.On g) : c.On g :=
  hg (.call c) (by simp [h.split])

/-- The lock is held in every state since. -/
theorem holds (h : WholeLock settings steps before c after root owner tree)
    (hg : ∀ step ∈ steps, step.On g) {later : List Step} (hlater : later <+: after) :
    ((fresh settings).run (before ++ .call c :: later)).table.Holds root owner tree := by
  obtain ⟨-, hholds⟩ := h.locks.granted (h.on hg) h.granted
  have hnow : (c.perform ((fresh settings).run before)).1.table.Holds root owner tree := by
    obtain ⟨e, he, hexclusive, howned, htree⟩ := hholds
    exact ⟨e, he, hexclusive, howned, fun _ => htree rfl⟩
  have hstate : (fresh settings).run (before ++ .call c :: later) =
      (c.perform ((fresh settings).run before)).1.run later := by
    simp [run, Step.perform]
  have hcoherent := (consistent_run settings (before ++ [.call c])).coherent
  rw [run_snoc] at hcoherent
  rw [hstate]
  exact holds_run hcoherent hnow (h.kept.of_prefix hlater)

/-- Nobody else locks a whole structure meanwhile. -/
theorem refuses_whole (h : WholeLock settings steps before c after root owner tree)
    (hg : ∀ step ∈ steps, step.On g) {later : List Step} (hlater : later <+: after)
    (hg' : c'.On g) (hlocks : c'.LocksWhole root' owner') (hnode : g.contains root' = true) :
    (c'.perform ((fresh settings).run (before ++ .call c :: later))).2 =
      .failed (Conflict.somethingLocked.refusal root') := by
  obtain ⟨r, hr, hrequest⟩ := hlocks
  obtain rfl : r.resource = root' := congrArg Request.resource hrequest
  obtain ⟨scope, hscope⟩ := Option.isSome_iff_exists.1 ((g.isSome_scope? r.resource).trans hnode)
  have hplan := Call.plan?_of_request? hg' hr hscope
    ((fresh settings).run (before ++ .call c :: later)).table
  exact Call.reply_of_error hplan ((h.holds hg hlater).granting_whole scope r)

/-- While the lock covers its tree nobody locks anything of its structure. -/
theorem refuses (h : WholeLock settings steps before c after root owner true)
    (hg : ∀ step ∈ steps, step.On g) {whole : Bool} {r : Request} (hg' : c'.On g)
    (hr : c'.request? = some (whole, r)) (hnode : g.contains r.resource = true)
    (hwithin : r.resource = root ∨ g.Related root r.resource) :
    ∃ reason, (c'.perform ((fresh settings).run steps)).2 =
      .failed (.cannotLock r.resource reason) := by
  obtain ⟨scope, hscope⟩ := Option.isSome_iff_exists.1 ((g.isSome_scope? r.resource).trans hnode)
  have hholds := h.holds hg List.prefix_rfl
  rw [← h.split] at hholds
  obtain ⟨conflict, hrefused⟩ := Table.granting_of_conflict?
    (hholds.conflict?_ne_none hscope hwithin r.mode r.tree) whole
  exact ⟨conflict.message, Call.reply_of_error (Call.plan?_of_request? hg' hr hscope _) hrefused⟩

/-- A whole-structure lock is not granted after another one that is still there. -/
theorem not_later (h : WholeLock settings steps before c after root owner tree)
    (h' : WholeLock settings steps before' c' after' root' owner' tree')
    (hg : ∀ step ∈ steps, step.On g) (later : List Step) :
    before' ≠ before ++ .call c :: later := by
  rintro rfl
  have hsplit := h.split.symm.trans h'.split
  have hafter : after = later ++ .call c' :: after' := by simpa using hsplit
  have hrefused := h.refuses_whole hg (hafter ▸ List.prefix_append _ _) (h'.on hg) h'.locks
    (h'.locks.contains (h'.on hg) h'.granted)
  have hgranted := h'.granted
  rw [hrefused] at hgranted
  cases hgranted

/-- Two whole-structure locks that are there at once are one. -/
theorem unique (h : WholeLock settings steps before c after root owner tree)
    (h' : WholeLock settings steps before' c' after' root' owner' tree')
    (hg : ∀ step ∈ steps, step.On g) : before = before' ∧ root = root' ∧ owner = owner' := by
  -- one of the grants is later than the other, unless they are the same
  rcases List.append_eq_append_iff.1 (h.split.symm.trans h'.split) with
    ⟨between, hbefore, hrest⟩ | ⟨between, hbefore, hrest⟩
  all_goals rcases between with _ | ⟨step, later⟩
  case inl.nil | inr.nil =>
    simp only [List.append_nil] at hbefore
    simp only [List.nil_append, List.cons.injEq, Step.call.injEq] at hrest
    obtain ⟨rfl, -⟩ := hrest
    exact ⟨by rw [hbefore], h.locks.eq h'.locks⟩
  case inl.cons =>
    obtain ⟨rfl, -⟩ := List.cons.inj hrest
    exact absurd hbefore (h.not_later h' hg later)
  case inr.cons =>
    obtain ⟨rfl, -⟩ := List.cons.inj hrest
    exact absurd hbefore (h'.not_later h hg later)

end WholeLock

/-- Locks on a whole structure are exclusive, whatever else is called meanwhile and whether or not
sections break off, as long as the graph stays as it is. When one is granted, no user has an editor
lock, no entry is exclusive, and neither the root nor a relative of the root has an entry. Until a
section ends it, no whole structure is locked by anybody; until one takes its tree away, no request
for its root or a relative is granted; and no other such lock is there at the same time. -/
theorem wholeLock_run {g : Graph} (settings : LockSettings) {steps before after : List Step}
    {c : Call} {root : Resource} {owner : User} {tree : Bool}
    (hg : ∀ step ∈ steps, step.On g)
    (h : WholeLock settings steps before c after root owner tree) :
    let found := ((fresh settings).run before).table
    let l := (fresh settings).run steps
    (found.Vacant g root ∧ ∀ user resource,
      ¬ (fresh settings).Since before (Plan.ShowsGrant user resource)
        (Table.Owned user resource)) ∧
    (∀ (c' : Call) root' owner', c'.On g → c'.LocksWhole root' owner' → g.contains root' = true →
      (c'.perform l).2 = .failed (Conflict.somethingLocked.refusal root')) ∧
    (tree = true → ∀ (c' : Call) whole r, c'.On g → c'.request? = some (whole, r) →
      g.contains r.resource = true → r.resource = root ∨ g.Related root r.resource →
      ∃ reason, (c'.perform l).2 = .failed (.cannotLock r.resource reason)) ∧
    ∀ before' c' after' root' owner' tree',
      WholeLock settings steps before' c' after' root' owner' tree' →
      before = before' ∧ root = root' ∧ owner = owner' := by
  intro found l
  obtain ⟨hvacant, -⟩ := h.locks.granted (h.on hg) h.granted
  refine ⟨⟨hvacant, ?_⟩, ?_, ?_, ?_⟩
  · intro user resource hsince
    have hshown := (isSome_coverage?_run settings before user resource).2 hsince
    have hany := (listed_run settings before).hasShownLocks_iff.2 ⟨user, resource, hshown⟩
    rw [hvacant.unshown] at hany
    cases hany
  · intro c' root' owner' hg' hlocks hnode
    have hrefused := h.refuses_whole hg List.prefix_rfl hg' hlocks hnode
    rwa [← h.split] at hrefused
  · rintro rfl c' whole r hg' hr hnode hwithin
    exact h.refuses hg hg' hr hnode hwithin
  · intro before' c' after' root' owner' tree' h'
    exact h.unique h' hg

/-- Alice locks the whole project. -/
def wholeProject : Call := .acquireOnce .withRoots 0 true (wholeRequest .project "alice")

/-- She asks for a share of the project as well. -/
def shareProject : Call :=
  .acquireOnce .withRoots 1 false { resource := .project, owner := "alice", mode := .shared }

/-- She does not get it, and Bob cannot lock the scene as a whole, although the project has nothing
to do with the scene. -/
theorem wholeLock_run_wholeProject :
    let l := (fresh {}).run [.call wholeProject, .call shareProject]
    let scene : Call := .acquireOnce .withRoots 2 true (wholeRequest .scene "bob")
    (scene.perform l).2 = .failed (.cannotLock .scene "there are locked objects") ∧
      ∃ reason, (shareProject.perform l).2 = .failed (.cannotLock .project reason) := by
  intro l scene
  have hg : ∀ step ∈ [Step.call wholeProject, .call shareProject], step.On .withRoots := by
    simp [wholeProject, shareProject, Step.On, Call.On]
  have hlock : WholeLock {} [.call wholeProject, .call shareProject] [] wholeProject
      [.call shareProject] .project "alice" true :=
    { split := rfl
      locks := ⟨_, rfl, rfl⟩
      granted := by decide +kernel
      kept := by
        -- the only call since asks for a share, which ends nothing
        rintro earlier step hwithin ⟨c, p, rfl, hplan, -, hends⟩
        have hstep : Step.call c ∈ [.call shareProject] := hwithin.subset (by simp)
        cases List.mem_singleton.1 hstep
        cases Call.plans_of_plan? hplan
        exact hends }
  obtain ⟨-, hwhole, hwithin, -⟩ := wholeLock_run {} hg hlock
  exact ⟨hwhole scene .scene "bob" rfl ⟨_, rfl, rfl⟩ (by decide +kernel),
    hwithin rfl shareProject false _ rfl rfl (by decide +kernel) (.inl rfl)⟩

end Locks

end SceneLocks
