import SceneLocks.Proofs.Locks.GivingBack
import SceneLocks.Proofs.Locks.WholeStructure

/-!
# Two ways to a tree lock

The tree around a resource is locked at once, or by an update of a lock on the resource. The checks
differ, the one looks for locks that cover a tree as well, and so do the announcements, which an
update works out as a difference; both ways lead to the same (`SameWay`). The updates from the
object to its tree and from the tree to its object take each other back (`Reverts`).
-/

namespace SceneLocks

/-! ## There and back -/

namespace Table

variable {t : Table} {scope : Scope} {resource : Resource} {owner : User} {e e' : Entry}
  {tree : Bool} {covered covered' : Std.ExtTreeSet Resource} {s s' : Section}

/-- What an update of a lock announces: the relatives, if the editors show the lock. -/
def around (t : Table) (scope : Scope) (owner : User) : List Resource :=
  (t.coverage? owner scope.resource).elim [] fun _ =>
    (scope.coverage.erase scope.resource).toList

/-- An update keeps a lock shown or not. -/
theorem around_resized (hs : Resized t scope.resource owner e tree covered s) :
    (s.result t).around scope owner = t.around scope owner := by
  rw [around, hs.coverage?, if_pos ⟨rfl, rfl⟩, around]
  cases t.coverage? owner scope.resource <;> rfl

theorem around_eq_nil (h : t.coverage? owner scope.resource = none) :
    t.around scope owner = [] := by
  rw [around, h]
  rfl

/-- The lock that is extended was shown as the resource alone. -/
theorem events_extended (hcovered : t.Covered) (hs : Extended t scope owner e s) :
    s.events = (t.around scope owner).map (.locked · owner) := by
  rw [hs.events, around]
  cases hcoverage : t.coverage? owner scope.resource with
  | none => rfl
  | some previous =>
    obtain rfl := hcovered.eq_singleton hcoverage hs.found (by simpa using hs.changed)
    have herase : scope.coverage \ {scope.resource} = scope.coverage.erase scope.resource := by
      refine Std.ExtTreeSet.ext_mem fun x => ?_
      simp [Std.ExtTreeSet.mem_diff_iff, and_comm]
    simp only [Option.elim, herase]

/-- The lock that shrinks was shown as the tree. -/
theorem events_shrunk (hs : Shrunk t scope owner e s)
    (htree : ∀ previous, t.coverage? owner scope.resource = some previous →
      previous = scope.coverage) :
    s.events = (t.around scope owner).map (.unlocked · owner) := by
  rw [hs.events, around]
  cases hcoverage : t.coverage? owner scope.resource with
  | none => rfl
  | some previous => rw [htree previous hcoverage]; rfl

/-- Two updates, the one to the tree and the other from it, leave all as it was. -/
theorem agreeAt_resized_twice (hs : Resized t resource owner e tree covered s)
    (hs' : Resized (s.result t) resource owner e' (!tree) covered' s')
    (hbefore : ∀ previous, t.coverage? owner resource = some previous → previous = covered')
    (x : Resource) : (s'.result (s.result t)).AgreeAt x t := by
  have hfound := hs'.found
  rw [hs.lookup?, if_pos rfl] at hfound
  obtain rfl := Option.some.inj hfound
  constructor
  · rw [hs'.lookup?, hs.lookup?]
    split
    · next hx =>
      subst hx
      rw [hs.found, ← hs.changed]
    · rfl
  · intro user
    rw [hs'.coverage?]
    split
    · next hx =>
      obtain ⟨rfl, rfl⟩ := hx
      rw [hs.coverage?, if_pos ⟨rfl, rfl⟩]
      cases hcoverage : t.coverage? owner resource with
      | none => rfl
      | some previous => rw [hbefore previous hcoverage]; rfl
    · next hx => rw [hs.coverage?, if_neg hx]

/-- An exclusive plain lock is extended if no relative is locked. -/
theorem updating_of_free (he : t.lookup? scope.resource = some e) (hexclusive : e.mode = .exclusive)
    (howned : e.isOwnedBy owner) (hplain : e.tree = false)
    (hfree : t.lockedRelative? scope = none) :
    ∃ s, t.updating scope owner .tree = .ok s := by
  simp [updating, extending, he, hexclusive, howned, hplain, hfree]

/-- An exclusive tree lock is shrunk. -/
theorem updating_of_tree (he : t.lookup? scope.resource = some e) (hexclusive : e.mode = .exclusive)
    (howned : e.isOwnedBy owner) (htree : e.tree = true) :
    ∃ s, t.updating scope owner .object = .ok s := by
  simp [updating, shrinking, he, hexclusive, howned, htree]

theorem updated_of_found {kind : UpdateKind} (he : t.lookup? scope.resource = some e)
    (hs : t.updating scope owner kind = .ok s) : Updated t scope owner e s kind := by
  obtain ⟨found, hupdated⟩ := updated_of_updating hs
  obtain ⟨_, _, hresized, -⟩ := hupdated.resized
  obtain rfl := Option.some.inj (he.symm.trans hresized.found)
  exact hupdated

/-- After an extension the lock can be shrunk, which takes the extension back. -/
theorem shrunk_of_extended (hs : Extended t scope owner e s) :
    ∃ s', (s.result t).updating scope owner .object = .ok s' ∧
      Shrunk (s.result t) scope owner { e with tree := true } s' := by
  have hfound : (s.result t).lookup? scope.resource = some { e with tree := true } := by
    rw [hs.lookup?, if_pos rfl]
  obtain ⟨s', hs'⟩ := updating_of_tree hfound hs.exclusive hs.owned rfl
  exact ⟨s', hs', updated_of_found hfound hs'⟩

/-- After a shrinking the lock can be extended again if no relative is locked. -/
theorem extended_of_shrunk (hs : Shrunk t scope owner e s)
    (hfree : ∀ relative ∈ scope.related, relative ≠ scope.resource ∧ t.lookup? relative = none) :
    ∃ s', (s.result t).updating scope owner .tree = .ok s' ∧
      Extended (s.result t) scope owner { e with tree := false } s' := by
  have hfound : (s.result t).lookup? scope.resource = some { e with tree := false } := by
    rw [hs.lookup?, if_pos rfl]
  have hnone : (s.result t).lockedRelative? scope = none := by
    rw [lockedRelative?_eq_none_iff]
    intro relative hrelative
    obtain ⟨hne, hnone⟩ := hfree relative hrelative
    rw [hs.lookup?, if_neg hne.symm, hnone]
  obtain ⟨s', hs'⟩ := updating_of_free hfound hs.exclusive hs.owned rfl hnone
  exact ⟨s', hs', updated_of_found hfound hs'⟩

end Table

theorem Call.plan?_updateLock {g : Graph} {resource : Resource} {scope : Scope}
    (hscope : g.scope? resource = some scope) (owner : User) (kind : UpdateKind) (t : Table) :
    (Call.updateLock g resource owner kind).plan? t = some (.update scope owner kind) := by
  simp [plan?, hscope]

namespace Locks

/-- The second of two calls takes back what the first has done: the table is as it was, and what the
first announces the second announces as undone. Nothing is announced of a lock that is not shown. -/
structure Reverts (l : Locks) (first second : Call) (owner : User)
    (event event' : Resource → User → Event) (shown : Prop) : Prop where
  done : (second.perform (first.perform l).1).2 = .done
  table : (second.perform (first.perform l).1).1.table = l.table
  told : ∃ resources : List Resource,
    (first.perform l).1.queue = l.queue.broadcast (resources.map (event · owner)) ∧
    (second.perform (first.perform l).1).1.queue =
      (first.perform l).1.queue.broadcast (resources.map (event' · owner)) ∧
    (¬ shown → resources = [])

variable {l : Locks} {g : Graph} {resource : Resource} {owner : User} {kind kind' : UpdateKind}
  {scope : Scope} {s s' : Section} {resources : List Resource}
  {event event' : Resource → User → Event}

/-- What two updates come to whose sections take each other back. -/
theorem reverts_of_updating (hlisted : l.table.Listed) (hscope : g.scope? resource = some scope)
    (hs : l.table.updating scope owner kind = .ok s)
    (hs' : (s.result l.table).updating scope owner kind' = .ok s')
    (hgoes : l.Unhindered s.events)
    (hevents : s.events = resources.map (event · owner))
    (hevents' : s'.events = resources.map (event' · owner))
    (hrestored : ∀ x, (s'.result (s.result l.table)).AgreeAt x l.table) {shown : Prop}
    (hshown : ¬ shown → resources = []) :
    l.Reverts (.updateLock g resource owner kind) (.updateLock g resource owner kind') owner event
      event' shown := by
  have hcomes := Call.comesTo_of_ok (Call.plan?_updateLock hscope owner kind l.table) hs hgoes
  set l₁ := ((Call.updateLock g resource owner kind).perform l).1
  have htable : l₁.table = s.result l.table := hcomes.table
  have hqueue : l₁.queue = l.queue.broadcast s.events := hcomes.queue
  rw [← htable] at hs'
  -- both announce as much, so what could not hinder the first does not hinder the second
  have hgoes' : l₁.Unhindered s'.events := by
    rw [hevents, Unhindered, List.map_eq_nil_iff] at hgoes
    rw [hevents', Unhindered, List.map_eq_nil_iff, hqueue]
    exact hgoes.imp_left (Queue.trap?_push ..).trans
  have hcomes' := Call.comesTo_of_ok (Call.plan?_updateLock hscope owner kind' l₁.table) hs' hgoes'
  refine ⟨hcomes'.reply, ?_, resources, hevents ▸ hqueue, hevents' ▸ hcomes'.queue, hshown⟩
  rw [hcomes'.table, htable]
  exact ((hlisted.result s).result s').eq_of_agreeAt hlisted hrestored

/-- An update that succeeds is for a node of the graph. -/
theorem exists_scope_of_updateLock
    (hdone : ((Call.updateLock g resource owner kind).perform l).2 = .done) :
    ∃ scope, g.scope? resource = some scope := by
  cases hscope : g.scope? resource with
  | some scope => exact ⟨scope, rfl⟩
  | none => simp [Call.perform, updateLock, resolve, hscope, Reply.ofExcept] at hdone

/-- The section of an update that succeeds. -/
theorem exists_updating (hscope : g.scope? resource = some scope)
    (hdone : ((Call.updateLock g resource owner kind).perform l).2 = .done) :
    ∃ s, l.table.updating scope owner kind = .ok s ∧ l.Unhindered s.events :=
  (Call.isSuccess_iff (Call.plan?_updateLock hscope owner kind l.table)).1 (by rw [hdone]; rfl)

/-- A tree lock can be shrunk, unless a fault comes in between. -/
theorem done_of_holds (htrap : l.queue.trap? = none) (hscope : g.scope? resource = some scope)
    (hholds : l.table.Holds resource owner true) :
    ((Call.updateLock g resource owner .object).perform l).2 = .done := by
  obtain rfl := Graph.resource_scope? hscope
  obtain ⟨e, he, hexclusive, howned, htree⟩ := hholds
  obtain ⟨s, hs⟩ := Table.updating_of_tree he hexclusive howned (htree rfl)
  exact (Call.comesTo_of_ok (Call.plan?_updateLock hscope owner .object l.table) hs
    (.inl htrap)).reply

/-- A lock that is extended can be shrunk again. -/
theorem reverts_of_extension (hconsistent : l.table.Consistent) (hlisted : l.table.Listed)
    {shown : Prop} (hshown : ¬ shown → l.table.coverage? owner resource = none)
    (hdone : ((Call.updateLock g resource owner .tree).perform l).2 = .done) :
    l.Reverts (.updateLock g resource owner .tree) (.updateLock g resource owner .object) owner
      .locked .unlocked shown := by
  obtain ⟨scope, hscope⟩ := exists_scope_of_updateLock hdone
  obtain rfl := Graph.resource_scope? hscope
  obtain ⟨s, hs, hgoes⟩ := exists_updating hscope hdone
  obtain ⟨e, hextended : Extended l.table scope owner e s⟩ := updated_of_updating hs
  obtain ⟨s', hs', hshrunk⟩ := Table.shrunk_of_extended hextended
  have hevents := Table.events_extended hconsistent.covered hextended
  have hevents' : s'.events = (l.table.around scope owner).map (.unlocked · owner) := by
    rw [← Table.around_resized hextended.toResized]
    refine Table.events_shrunk hshrunk fun previous hprevious => ?_
    rw [hextended.coverage?, if_pos ⟨rfl, rfl⟩] at hprevious
    obtain ⟨-, -, rfl⟩ := Option.map_eq_some_iff.1 hprevious
    rfl
  refine reverts_of_updating hlisted hscope hs hs' hgoes hevents hevents' ?_ ?_
  · refine Table.agreeAt_resized_twice hextended.toResized hshrunk.toResized ?_
    intro previous hprevious
    exact hconsistent.covered.eq_singleton hprevious hextended.found
      (by simpa using hextended.changed)
  · exact fun hunshown => Table.around_eq_nil (hshown hunshown)

/-- A tree lock that is shrunk can be extended again if its relatives are free, and if it was shown
as the tree that it is extended to. -/
theorem reverts_of_shrinking (hconsistent : l.table.Consistent) (hlisted : l.table.Listed)
    (hscope : g.scope? resource = some scope)
    (hfree : ∀ relative ∈ scope.related, relative ≠ resource ∧ l.table.lookup? relative = none)
    (htree : ∀ previous, l.table.coverage? owner resource = some previous →
      previous = scope.coverage)
    {shown : Prop} (hshown : ¬ shown → l.table.coverage? owner resource = none)
    (hdone : ((Call.updateLock g resource owner .object).perform l).2 = .done) :
    l.Reverts (.updateLock g resource owner .object) (.updateLock g resource owner .tree) owner
      .unlocked .locked shown := by
  obtain rfl := Graph.resource_scope? hscope
  obtain ⟨s, hs, hgoes⟩ := exists_updating hscope hdone
  obtain ⟨e, hshrunk : Shrunk l.table scope owner e s⟩ := updated_of_updating hs
  obtain ⟨s', hs', hextended⟩ := Table.extended_of_shrunk hshrunk hfree
  have hevents := Table.events_shrunk hshrunk htree
  have hevents' : s'.events = (l.table.around scope owner).map (.locked · owner) := by
    have hafter : (s.result l.table).Consistent :=
      hconsistent.result (p := .update scope owner .object) trivial hs
    rw [← Table.around_resized hshrunk.toResized]
    exact Table.events_extended hafter.covered hextended
  refine reverts_of_updating hlisted hscope hs hs' hgoes hevents hevents' ?_ ?_
  · exact Table.agreeAt_resized_twice hshrunk.toResized hextended.toResized htree
  · exact fun hunshown => Table.around_eq_nil (hshown hunshown)

end Locks

/-! ## At once or in two steps -/

/-- The call asks for an editor's lock on the tree around a resource: as an editor, or by an attempt
on a request that gets the same handle, however it is retried. -/
inductive Call.AsksTree (g : Graph) (resource : Resource) (owner : User) : Call → Prop where
  | lock (now : Nat) : AsksTree g resource owner (.lock g now resource owner true)
  | request {c : Call} {r : Request} (hg : c.On g) (hr : c.request? = some (false, r))
    (hsame : Handle.ofRequest r = .ofRequest (Locks.editorRequest resource owner true)) :
    AsksTree g resource owner c

namespace Call

variable {g : Graph} {resource : Resource} {owner : User} {c : Call} {l : Locks} {scope : Scope}

theorem plan?_lock {t : Table} (hfree : t.lookup? resource = none) (now : Nat) (tree : Bool) :
    (Call.lock g now resource owner tree).plan? t =
      (g.scope? resource).map (.grant false · (Locks.editorRequest resource owner tree)) := by
  simp [plan?, Locks.alreadyHeld, hfree]

theorem AsksTree.plan? {t : Table} (hc : c.AsksTree g resource owner)
    (hfree : t.lookup? resource = none) (hscope : g.scope? resource = some scope) :
    ∃ r, c.plan? t = some (.grant false scope r) ∧
      Handle.ofRequest r = .ofRequest (Locks.editorRequest resource owner true) := by
  cases hc with
  | lock now => exact ⟨_, by rw [plan?_lock hfree, hscope]; rfl, rfl⟩
  | request hg hr hsame =>
    obtain rfl : _ = resource := congrArg Handle.resource hsame
    exact ⟨_, plan?_of_request? hg hr hscope t, hsame⟩

/-- A resource without an entry is locked only if it is a node of the graph. -/
theorem exists_scope_of_lock (hfree : l.table.lookup? resource = none) {now : Nat} {tree : Bool}
    (hdone : ((Call.lock g now resource owner tree).perform l).2.isSuccess = true) :
    ∃ scope, g.scope? resource = some scope := by
  cases hscope : g.scope? resource with
  | some scope => exact ⟨scope, rfl⟩
  | none =>
    have hplan : (Call.lock g now resource owner tree).plan? l.table = none := by
      rw [plan?_lock hfree, hscope]
      rfl
    rcases perform_at_once hplan with ⟨-, hreply⟩ | ⟨connection, user, heq⟩
    · simp [hreply, answerAtOnce, Locks.alreadyHeld, hfree, Reply.isSuccess] at hdone
    · cases heq

theorem AsksTree.exists_scope (hc : c.AsksTree g resource owner)
    (hfree : l.table.lookup? resource = none) (hdone : (c.perform l).2.isSuccess = true) :
    ∃ scope, g.scope? resource = some scope := by
  cases hc with
  | lock now => exact exists_scope_of_lock hfree hdone
  | request hg hr hsame =>
    obtain rfl : _ = resource := congrArg Handle.resource hsame
    exact isSome_scope?_of_isSuccess hg hr hdone

end Call

namespace Table

variable {t : Table} {scope : Scope} {owner : User} {r : Request} {s s₁ s₂ : Section} {e : Entry}

theorem granting_of_free (hfree : t.conflict? scope r.mode r.tree = none) :
    ∃ s, t.granting false scope r = .ok s := by
  simp [granting, hfree]

/-- On a resource without an entry, a tree is granted if no relative has one either. -/
theorem conflict?_tree_eq_none_iff (hfree : t.lookup? scope.resource = none) :
    t.conflict? scope .exclusive true = none ↔
      ∀ relative ∈ scope.related, t.lookup? relative = none := by
  rw [conflict?_eq_none_iff, hfree]
  simp [Option.eq_none_iff_forall_ne_some]

/-- The first grant on a resource makes its entry. -/
theorem lookup?_first_granted (hs : Granted t false scope r s)
    (hfree : t.lookup? r.resource = none) (x : Resource) :
    (s.result t).lookup? x =
      if r.resource = x then some (.first r.resource r.mode r.owner r.tree)
      else t.lookup? x := by
  rw [hs.lookup?]
  split
  · next hx => rw [← hx, hfree]; rfl
  · rfl

/-- The entry of an editor's lock on a resource without one. -/
theorem lookup?_object
    (hs : Granted t false scope (Locks.editorRequest scope.resource owner false) s)
    (hfree : t.lookup? scope.resource = none) (x : Resource) :
    (s.result t).lookup? x =
      if scope.resource = x then some (.first scope.resource .exclusive owner false)
      else t.lookup? x :=
  lookup?_first_granted hs hfree x

end Table

theorem sameHandle_iff {resource : Resource} {owner : User} {r : Request} {tree : Bool} :
    Handle.ofRequest r = .ofRequest (Locks.editorRequest resource owner tree) ↔
      r.resource = resource ∧ r.owner = owner ∧ r.mode = .exclusive ∧ r.tree = tree ∧
        r.visibility = .ui := by
  simp [Handle.ofRequest, Locks.editorRequest]

/-- An editor's request for the tree of a resource without an entry was granted, and so was one for
the resource, which was then extended to its tree. -/
structure TwoWays (t : Table) (scope : Scope) (owner : User) (r : Request) (s s₁ s₂ : Section) :
    Prop where
  covered : t.Covered
  free : t.lookup? scope.resource = none
  same : Handle.ofRequest r = .ofRequest (Locks.editorRequest scope.resource owner true)
  direct : Granted t false scope r s
  object : Granted t false scope (Locks.editorRequest scope.resource owner false) s₁
  extended : Extended (s₁.result t) scope owner (.first scope.resource .exclusive owner false) s₂

namespace TwoWays

open Table

variable {t : Table} {scope : Scope} {owner : User} {r : Request} {s s₁ s₂ : Section}

/-- Both ways lead to the same entries and to the same record. -/
theorem agreeAt (h : TwoWays t scope owner r s s₁ s₂) (x : Resource) :
    (s.result t).AgreeAt x (s₂.result (s₁.result t)) := by
  obtain ⟨hresource, howner, hmode, htree, hvisibility⟩ := sameHandle_iff.1 h.same
  constructor
  · rw [lookup?_first_granted h.direct (hresource ▸ h.free), h.extended.lookup?,
      lookup?_object h.object h.free, hresource, howner, hmode, htree]
    split <;> rfl
  · intro user
    have hobject : ∀ user x, (s₁.result t).coverage? user x =
        if owner = user ∧ scope.resource = x then some {scope.resource}
        else t.coverage? user x := by
      intro user x
      rw [h.object.coverage?]
      simp [Locks.editorRequest, coverageOf]
    rw [h.direct.coverage?, h.extended.coverage?, hobject]
    simp only [hobject, hresource, howner, htree, hvisibility, coverageOf, and_self, if_true,
      true_and, Option.map_some]
    split <;> rfl

theorem events_direct (h : TwoWays t scope owner r s s₁ s₂) :
    s.events = scope.coverage.toList.map (.locked · owner) := by
  obtain ⟨hresource, howner, -, htree, hvisibility⟩ := sameHandle_iff.1 h.same
  rw [h.direct.events, if_pos hvisibility, coverageOf, if_pos htree, howner]

theorem events_object (h : TwoWays t scope owner r s s₁ s₂) :
    s₁.events = ({scope.resource} : Std.ExtTreeSet Resource).toList.map (.locked · owner) := by
  rw [h.object.events]
  rfl

theorem events_extended (h : TwoWays t scope owner r s s₁ s₂) :
    s₂.events = (scope.coverage.erase scope.resource).toList.map (.locked · owner) := by
  have hshown : (s₁.result t).coverage? owner scope.resource = some {scope.resource} := by
    rw [h.object.coverage?]
    simp [Locks.editorRequest, coverageOf]
  rw [Table.events_extended (h.covered.granted rfl h.object) h.extended, around, hshown]
  rfl

end TwoWays

/-- What is announced in two steps, the resource and then the rest, is all that a tree covers. -/
theorem Scope.perm_coverage (scope : Scope) :
    (({scope.resource} : Std.ExtTreeSet Resource).toList ++
      (scope.coverage.erase scope.resource).toList).Perm scope.coverage.toList := by
  have hnodup : (({scope.resource} : Std.ExtTreeSet Resource).toList ++
      (scope.coverage.erase scope.resource).toList).Nodup := by
    refine List.nodup_append.2 ⟨nodup_toList _, nodup_toList _, ?_⟩
    intro x hx y hy
    simp_all
  refine (List.perm_ext_iff_of_nodup hnodup (nodup_toList _)).2 fun x => ?_
  by_cases hx : x = scope.resource
  · simp [hx]
  · simp [hx, Ne.symm hx]

namespace Table

variable {t : Table} {scope : Scope} {owner : User} {r : Request} {s s₁ s₂ : Section}

/-- In two steps a tree is locked if it could be locked at once: the extension finds the relatives
free that the request for the tree would have found free. -/
theorem twoWays_of_granting (hcovered : t.Covered) (hfree : t.lookup? scope.resource = none)
    (hself : scope.resource ∉ scope.related)
    (hsame : Handle.ofRequest r = .ofRequest (Locks.editorRequest scope.resource owner true))
    (hs : t.granting false scope r = .ok s) :
    ∃ s₁ s₂, t.granting false scope (Locks.editorRequest scope.resource owner false) = .ok s₁ ∧
      (s₁.result t).updating scope owner .tree = .ok s₂ ∧ TwoWays t scope owner r s s₁ s₂ := by
  have hdirect := granted_of_granting hs
  have hrelatives : ∀ relative ∈ scope.related, t.lookup? relative = none := by
    rw [← conflict?_tree_eq_none_iff hfree]
    obtain ⟨-, -, hmode, htree, -⟩ := sameHandle_iff.1 hsame
    rw [← hmode, ← htree]
    exact hdirect.free
  have hobjectFree : t.conflict? scope .exclusive false = none := by
    rw [conflict?_eq_none_iff, hfree]
    refine ⟨nofun, fun relative hrelative f hf => ?_⟩
    rw [hrelatives relative hrelative] at hf
    cases hf
  obtain ⟨s₁, hs₁⟩ :=
    granting_of_free (r := Locks.editorRequest scope.resource owner false) hobjectFree
  have hobject := granted_of_granting hs₁
  have hlookup := lookup?_object hobject hfree
  have hfound := hlookup scope.resource
  rw [if_pos rfl] at hfound
  have hnone : (s₁.result t).lockedRelative? scope = none := by
    rw [lockedRelative?_eq_none_iff]
    intro relative hrelative
    have hne : scope.resource ≠ relative := fun heq => hself (heq ▸ hrelative)
    rw [hlookup, if_neg hne, hrelatives relative hrelative]
  have howned : (Entry.first scope.resource .exclusive owner false).isOwnedBy owner :=
    (Entry.isOwnedBy_first ..).2 rfl
  obtain ⟨s₂, hs₂⟩ := updating_of_free hfound rfl howned rfl hnone
  exact ⟨s₁, s₂, hs₁, hs₂,
    ⟨hcovered, hfree, hsame, hdirect, hobject, updated_of_found hfound hs₂⟩⟩

theorem twoWays_of_updating (hcovered : t.Covered) (hfree : t.lookup? scope.resource = none)
    (hsame : Handle.ofRequest r = .ofRequest (Locks.editorRequest scope.resource owner true))
    (hs₁ : t.granting false scope (Locks.editorRequest scope.resource owner false) = .ok s₁)
    (hs₂ : (s₁.result t).updating scope owner .tree = .ok s₂) :
    ∃ s, t.granting false scope r = .ok s ∧ TwoWays t scope owner r s s₁ s₂ := by
  have hobject := granted_of_granting hs₁
  have hlookup := lookup?_object hobject hfree
  have hfound := hlookup scope.resource
  rw [if_pos rfl] at hfound
  have hextended : Extended (s₁.result t) scope owner
      (.first scope.resource .exclusive owner false) s₂ := updated_of_found hfound hs₂
  -- the extension found the relatives free, and the lock before it left them alone
  have hrelatives : ∀ relative ∈ scope.related, t.lookup? relative = none := by
    intro relative hrelative
    have hnone := lockedRelative?_eq_none_iff.1 hextended.free relative hrelative
    rw [hlookup] at hnone
    split at hnone
    · cases hnone
    · exact hnone
  obtain ⟨-, -, hmode, htree, -⟩ := sameHandle_iff.1 hsame
  have hdirectFree : t.conflict? scope r.mode r.tree = none := by
    rw [hmode, htree]
    exact (conflict?_tree_eq_none_iff hfree).2 hrelatives
  obtain ⟨s, hs⟩ := granting_of_free hdirectFree
  exact ⟨s, hs, ⟨hcovered, hfree, hsame, granted_of_granting hs, hobject, hextended⟩⟩

end Table

namespace Locks

/-- Two ways to the same: the one call succeeds if and only if the two others do, one after the
other. Then both lead to the same table, and announce the same resources, each once. -/
structure SameWay (l : Locks) (owner : User) (direct first second : Call) : Prop where
  success_iff : (direct.perform l).2.isSuccess = true ↔
    (first.perform l).2.isSuccess = true ∧
      (second.perform (first.perform l).1).2.isSuccess = true
  table : (direct.perform l).2.isSuccess = true →
    (direct.perform l).1.table = (second.perform (first.perform l).1).1.table
  told : (direct.perform l).2.isSuccess = true → ∃ atOnce inSteps : List Resource,
    (direct.perform l).1.queue = l.queue.broadcast (atOnce.map (.locked · owner)) ∧
    (second.perform (first.perform l).1).1.queue =
      l.queue.broadcast (inSteps.map (.locked · owner)) ∧
    atOnce.Nodup ∧ inSteps.Perm atOnce

variable {l : Locks} {g : Graph} {resource : Resource} {owner : User} {direct : Call}

theorem sameWay_of_neither {first second : Call}
    (hdirect : ¬ (direct.perform l).2.isSuccess = true)
    (hsteps : ¬ ((first.perform l).2.isSuccess = true ∧
      (second.perform (first.perform l).1).2.isSuccess = true)) :
    l.SameWay owner direct first second :=
  ⟨iff_of_false hdirect hsteps, fun hdone => absurd hdone hdirect,
    fun hdone => absurd hdone hdirect⟩

/-- Where no fault is in the making both ways go through. -/
theorem both_of_twoWays {scope : Scope} {r : Request} {s s₁ s₂ : Section} {first second : Call}
    (h : TwoWays l.table scope owner r s s₁ s₂) (htrap : l.queue.trap? = none)
    (hplan : direct.plan? l.table = some (.grant false scope r))
    (hs : l.table.granting false scope r = .ok s)
    (hplan₁ : first.plan? l.table =
      some (.grant false scope (editorRequest scope.resource owner false)))
    (hs₁ : l.table.granting false scope (editorRequest scope.resource owner false) = .ok s₁)
    (hplan₂ : ∀ t, second.plan? t = some (.update scope owner .tree))
    (hs₂ : (s₁.result l.table).updating scope owner .tree = .ok s₂) (hlisted : l.table.Listed) :
    l.SameWay owner direct first second := by
  have hcomes := Call.comesTo_of_ok hplan hs (.inl htrap)
  have hcomes₁ := Call.comesTo_of_ok hplan₁ hs₁ (.inl htrap)
  set l₁ := (first.perform l).1
  have htable₁ : l₁.table = s₁.result l.table := hcomes₁.table
  have hqueue₁ : l₁.queue = l.queue.broadcast s₁.events := hcomes₁.queue
  have htrap₁ : l₁.queue.trap? = none := by
    rw [hqueue₁]
    exact (Queue.trap?_push ..).trans htrap
  rw [← htable₁] at hs₂
  have hcomes₂ := Call.comesTo_of_ok (hplan₂ l₁.table) hs₂ (.inl htrap₁)
  refine ⟨iff_of_true ?_ ⟨?_, ?_⟩, fun _ => ?_, fun _ => ?_⟩
  · exact (Call.isSuccess_iff hplan).2 ⟨s, hs, .inl htrap⟩
  · exact (Call.isSuccess_iff hplan₁).2 ⟨s₁, hs₁, .inl htrap⟩
  · exact (Call.isSuccess_iff (hplan₂ l₁.table)).2 ⟨s₂, hs₂, .inl htrap₁⟩
  · rw [hcomes.table, hcomes₂.table, htable₁]
    exact (hlisted.result s).eq_of_agreeAt ((hlisted.result s₁).result s₂) h.agreeAt
  · refine ⟨scope.coverage.toList, _, ?_, ?_, nodup_toList _, scope.perm_coverage⟩
    · rw [← h.events_direct]
      exact hcomes.queue
    · rw [List.map_append, ← h.events_object, ← h.events_extended, hcomes₂.queue, hqueue₁,
        Queue.broadcast, Queue.broadcast, Queue.push_push, List.map_append]

theorem trap?_of_announced {resources : Std.ExtTreeSet Resource} (hmem : resource ∈ resources)
    {event : Resource → Event} (hgoes : l.Unhindered (resources.toList.map event)) :
    l.queue.trap? = none := by
  refine hgoes.resolve_right fun hnone => ?_
  rw [List.map_eq_nil_iff] at hnone
  rw [← Std.ExtTreeSet.mem_toList, hnone] at hmem
  cases hmem

theorem sameWay_of_asksTree (hcovered : l.table.Covered) (hlisted : l.table.Listed)
    (hacyclic : ¬ g.Below resource resource) (hfree : l.table.lookup? resource = none)
    (hdirect : direct.AsksTree g resource owner) (now : Nat) :
    l.SameWay owner direct (.lock g now resource owner false)
      (.updateLock g resource owner .tree) := by
  by_cases hscope : ∃ scope, g.scope? resource = some scope
  · obtain ⟨scope, hscope⟩ := hscope
    obtain rfl := Graph.resource_scope? hscope
    obtain ⟨r, hplan, hsame⟩ := hdirect.plan? hfree hscope
    have hplan₁ : (Call.lock g now scope.resource owner false).plan? l.table =
        some (.grant false scope (editorRequest scope.resource owner false)) := by
      rw [Call.plan?_lock hfree, hscope]
      rfl
    have hplan₂ := Call.plan?_updateLock hscope owner .tree
    -- each way announces the resource, so a fault would have hindered the one that went through
    by_cases hdone : (direct.perform l).2.isSuccess = true
    · obtain ⟨s, hs, hgoes⟩ := (Call.isSuccess_iff hplan).1 hdone
      obtain ⟨s₁, s₂, hs₁, hs₂, hways⟩ := Table.twoWays_of_granting hcovered hfree
        (Graph.notMem_related_self hscope hacyclic) hsame hs
      rw [hways.events_direct] at hgoes
      have htrap := trap?_of_announced ((Scope.mem_coverage ..).2 (.inl rfl)) hgoes
      exact both_of_twoWays hways htrap hplan hs hplan₁ hs₁ hplan₂ hs₂ hlisted
    · by_cases hboth : ((Call.lock g now scope.resource owner false).perform l).2.isSuccess = true ∧
          ((Call.updateLock g scope.resource owner .tree).perform
            ((Call.lock g now scope.resource owner false).perform l).1).2.isSuccess = true
      · obtain ⟨s₁, hs₁, hgoes⟩ := (Call.isSuccess_iff hplan₁).1 hboth.1
        obtain ⟨s₂, hs₂, -⟩ := (Call.isSuccess_iff (hplan₂ _)).1 hboth.2
        rw [(Call.comesTo_of_ok hplan₁ hs₁ hgoes).table] at hs₂
        obtain ⟨s, hs, hways⟩ := Table.twoWays_of_updating hcovered hfree hsame hs₁ hs₂
        rw [hways.events_object] at hgoes
        have hself : scope.resource ∈ ({scope.resource} : Std.ExtTreeSet Resource) := by simp
        have htrap := trap?_of_announced hself hgoes
        exact both_of_twoWays hways htrap hplan hs hplan₁ hs₁ hplan₂ hs₂ hlisted
      · exact sameWay_of_neither hdone hboth
  · -- neither way leads to a resource that is no node of the graph
    apply sameWay_of_neither
    · exact fun hdone => hscope (hdirect.exists_scope hfree hdone)
    · exact fun hboth => hscope (Call.exists_scope_of_lock hfree hboth.1)

/-! ## Runs -/

/-- A tree that is locked in a run on one graph has a scope there, and is recorded as that. -/
theorem exists_scope_of_ownedTree (settings : LockSettings) {steps : List Step}
    (hg : ∀ step ∈ steps, step.On g)
    (htree : ((fresh settings).run steps).table.OwnedTree owner resource) :
    ∃ scope, g.scope? resource = some scope ∧
      ∀ previous, ((fresh settings).run steps).table.coverage? owner resource = some previous →
        previous = scope.coverage := by
  obtain ⟨scope, hsince, hcoverage⟩ :=
    coverage?_run_of_ownedTree settings steps owner resource htree
  refine ⟨scope, ?_, hcoverage⟩
  -- the scope is that of the step that locked the tree
  obtain ⟨before, step, after, rfl, ⟨c, p, rfl, hplan, -, hlocks⟩, -⟩ := (hsince scope).2 rfl
  have hp : p.On g := Call.On.plan? (hg (.call c) (by simp)) hplan
  cases p with
  | grant whole looked r =>
    obtain ⟨rfl, -, -, rfl⟩ := hlocks
    exact hp
  | update looked user kind =>
    cases kind with
    | tree =>
      obtain ⟨rfl, -, rfl⟩ := hlocks
      exact hp
    | object => exact hlocks.elim
  | release | reclaim => exact hlocks.elim

/-- A tree lock leaves no relative with an entry. -/
theorem relatives_free (settings : LockSettings) {steps : List Step} {scope : Scope}
    (hg : ∀ step ∈ steps, step.On g) (hacyclic : ¬ g.Below resource resource)
    (hscope : g.scope? resource = some scope)
    (hholds : ((fresh settings).run steps).table.Holds resource owner true) :
    ∀ relative ∈ scope.related, relative ≠ resource ∧
      ((fresh settings).run steps).table.lookup? relative = none := by
  intro relative hrelative
  have hne : relative ≠ resource := fun heq =>
    Graph.notMem_related_self hscope hacyclic (heq ▸ hrelative)
  refine ⟨hne, Option.eq_none_iff_forall_ne_some.2 fun f hf => ?_⟩
  obtain ⟨e, he, -, -, htree⟩ := hholds
  have hrelated := (Graph.mem_related_scope? hscope hne).1 hrelative
  have hplain := ((exclusion_run settings hg).apart resource relative hrelated e f he hf).1
  rw [htree rfl] at hplain
  cases hplain

/-- Two ways to a tree lock, and back. After every run, on a resource without an entry that is on no
cycle, an editor's tree is locked at once or in two steps, whichever way, with the same outcome. In
a run on one graph, who holds such a resource exclusively with its tree can shrink the lock to the
resource and extend it again, unless a fault comes in between. And an extension, whenever it
succeeds, can be taken back. What is announced on the way there is announced as undone on the way
back, and nothing is announced unless the editors were told of a grant since the owner has had a
part in the resource. -/
theorem treeLock_run (settings : LockSettings) (steps : List Step) (g : Graph)
    (resource : Resource) (owner : User) :
    let l := (fresh settings).run steps
    let tree : Call := .updateLock g resource owner .tree
    let object : Call := .updateLock g resource owner .object
    let shown := (fresh settings).Since steps (Plan.ShowsGrant owner resource)
      (Table.Owned owner resource)
    (¬ g.Below resource resource → l.table.lookup? resource = none →
      ∀ direct : Call, direct.AsksTree g resource owner → ∀ now,
        l.SameWay owner direct (.lock g now resource owner false) tree) ∧
    ((∀ step ∈ steps, step.On g) → ¬ g.Below resource resource →
      l.table.Holds resource owner true →
        (l.queue.trap? = none → (object.perform l).2 = .done) ∧
        ((object.perform l).2 = .done → l.Reverts object tree owner .unlocked .locked shown)) ∧
    ((tree.perform l).2 = .done → l.Reverts tree object owner .locked .unlocked shown) := by
  intro l tree object shown
  have hconsistent : l.table.Consistent := consistent_run settings steps
  have hlisted : l.table.Listed := listed_run settings steps
  have hshown : ¬ shown → l.table.coverage? owner resource = none := fun hunshown =>
    Option.not_isSome_iff_eq_none.1
      (mt (isSome_coverage?_run settings steps owner resource).1 hunshown)
  refine ⟨?_, ?_, ?_⟩
  · intro hacyclic hfree direct hdirect now
    exact sameWay_of_asksTree hconsistent.covered hlisted hacyclic hfree hdirect now
  · intro hg hacyclic hholds
    have hownedTree : l.table.OwnedTree owner resource := by
      obtain ⟨e, he, -, howned, htree⟩ := hholds
      exact ⟨e, he, howned, htree rfl⟩
    obtain ⟨scope, hscope, hcoverage⟩ := exists_scope_of_ownedTree settings hg hownedTree
    have hrelatives := relatives_free settings hg hacyclic hscope hholds
    constructor
    · exact fun htrap => done_of_holds htrap hscope hholds
    · exact reverts_of_shrinking hconsistent hlisted hscope hrelatives hcoverage hshown
  · exact reverts_of_extension hconsistent hlisted hshown

/-- Alice's editor has the cup, with the table that it is on or without. -/
def editorHasCup (tree : Bool) : List Step := [.call (.lock cupOnTable 0 "cup" "alice" tree)]

/-- Alice's editor gets the tree around the cup at once or in two steps. Then it gives the table up
and takes it again; or it had the cup only, and takes the table and gives it up. -/
theorem treeLock_run_editorHasCup :
    let tree : Call := .updateLock cupOnTable "cup" "alice" .tree
    let object : Call := .updateLock cupOnTable "cup" "alice" .object
    let direct : Call := .lock cupOnTable 0 "cup" "alice" true
    let first : Call := .lock cupOnTable 1 "cup" "alice" false
    let l := (fresh {}).run []
    let treeLocked := (fresh {}).run (editorHasCup true)
    let cupLocked := (fresh {}).run (editorHasCup false)
    (direct.perform l).1.table = (tree.perform (first.perform l).1).1.table ∧
      (tree.perform (object.perform treeLocked).1).1.table = treeLocked.table ∧
      (object.perform (tree.perform cupLocked).1).1.table = cupLocked.table := by
  intro tree object direct first l treeLocked cupLocked
  have hacyclic : ¬ cupOnTable.Below "cup" "cup" := by
    rw [← Graph.mem_below]
    decide +kernel
  have hg : ∀ step ∈ editorHasCup true, step.On cupOnTable := by
    simp [editorHasCup, Step.On, Call.On]
  obtain ⟨hways, -, -⟩ := treeLock_run {} [] cupOnTable "cup" "alice"
  obtain ⟨-, hback, -⟩ := treeLock_run {} (editorHasCup true) cupOnTable "cup" "alice"
  obtain ⟨-, -, hforth⟩ := treeLock_run {} (editorHasCup false) cupOnTable "cup" "alice"
  have hsame : l.SameWay "alice" direct first tree := hways hacyclic rfl direct (.lock 0) 1
  have hdirect : (direct.perform l).2.isSuccess = true := by decide +kernel
  have hholds : treeLocked.table.Holds "cup" "alice" true := by decide +kernel
  obtain ⟨hshrinks, hextends⟩ := hback hg hacyclic hholds
  have hshrunk : (object.perform treeLocked).2 = .done := hshrinks (by decide +kernel)
  have hextended : (tree.perform cupLocked).2 = .done := by decide +kernel
  exact ⟨hsame.table hdirect, (hextends hshrunk).table, (hforth hextended).table⟩

end Locks

end SceneLocks
