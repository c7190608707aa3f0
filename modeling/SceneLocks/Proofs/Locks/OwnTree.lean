import SceneLocks.Proofs.Graph.Cycles
import SceneLocks.Proofs.Locks.TreeUpdates

/-!
# A lock in the way of its own tree

An update of a lock to its tree looks for entries on the relatives of the resource. On a cycle the
resource is one of them, and then its own entry stands in the way.
-/

namespace SceneLocks

/-- The message of a refusal tells which resource stands in the way of a tree. -/
theorem Conflict.refusal_treeNotFree_inj {resource blocking blocking' : Resource}
    (h : (treeNotFree resource blocking).refusal resource =
      (treeNotFree resource blocking').refusal resource) : blocking = blocking' := by
  have hmessage := (LockError.cannotLock.inj h).2
  unfold message at hmessage
  exact (String.append_right_inj _).1 ((String.append_left_inj _).1 hmessage)

namespace Table

/-- The owner holds the resource exclusively and without its tree, and nothing else has an entry. -/
structure HoldsOnly (t : Table) (resource : Resource) (owner : User) : Prop where
  held : ∃ e, t.lookup? resource = some e ∧ e.mode = .exclusive ∧ e.isOwnedBy owner = true ∧
    e.tree = false
  alone : ∀ other, other ≠ resource → t.lookup? other = none

variable {t : Table} {scope : Scope} {owner : User}

/-- An extension is refused because of a resource only if that is a relative. -/
theorem mem_related_of_updating {blocking : Resource}
    (h : t.updating scope owner .tree =
      .error ((Conflict.treeNotFree scope.resource blocking).refusal scope.resource)) :
    blocking ∈ scope.related := by
  unfold updating at h
  split at h
  · cases h
  · split at h
    · dsimp only [extending] at h
      split at h
      · cases h
      · split at h
        · next found hfound =>
          obtain rfl := Conflict.refusal_treeNotFree_inj (Except.error.inj h)
          exact List.mem_of_find?_eq_some hfound
        · cases h
    · unfold updateError at h
      split at h
      · split at h <;> cases h
      · cases h

namespace HoldsOnly

theorem lookup?_isSome_iff {resource relative : Resource} (h : t.HoldsOnly resource owner) :
    (t.lookup? relative).isSome = true ↔ relative = resource := by
  obtain ⟨e, he, -⟩ := h.held
  constructor
  · intro hsome
    by_contra hne
    rw [h.alone relative hne] at hsome
    cases hsome
  · rintro rfl
    rw [he]
    rfl

/-- A resource that is its own relative stands in its own way. -/
theorem updating_of_mem (h : t.HoldsOnly scope.resource owner)
    (hmem : scope.resource ∈ scope.related) : t.updating scope owner .tree =
      .error ((Conflict.treeNotFree scope.resource scope.resource).refusal scope.resource) := by
  have hlocked : t.lockedRelative? scope = some scope.resource := by
    cases hfound : t.lockedRelative? scope with
    | none =>
      rw [lockedRelative?_eq_none_iff] at hfound
      obtain ⟨e, he, -⟩ := h.held
      exact absurd (he.symm.trans (hfound _ hmem)) nofun
    | some blocking =>
      have hsome : (t.lookup? blocking).isSome = true := by simpa using List.find?_some hfound
      rw [h.lookup?_isSome_iff.1 hsome]
  obtain ⟨e, he, hexclusive, howned, hplain⟩ := h.held
  simp [updating, extending, he, hexclusive, howned, hplain, hlocked]

theorem updating_of_notMem (h : t.HoldsOnly scope.resource owner)
    (hmem : scope.resource ∉ scope.related) : ∃ s, t.updating scope owner .tree = .ok s := by
  have hfree : t.lockedRelative? scope = none := by
    rw [lockedRelative?_eq_none_iff]
    exact fun relative hrelative => h.alone relative fun heq => hmem (heq ▸ hrelative)
  obtain ⟨e, he, hexclusive, howned, hplain⟩ := h.held
  exact updating_of_free he hexclusive howned hplain hfree

end HoldsOnly

end Table

namespace Locks

/-- A lock stands in the way of its own tree exactly on a cycle. The scope of a node never lists it
among its ancestors, and among its descendants if and only if it is below itself. An update to the
tree reports the resource as blocking itself only then; and if the user holds nothing but the
resource, exclusively and without its tree, and nobody holds anything else, it reports that if and
only if the resource is below itself, and is done otherwise, unless a fault is in the making. A node
gets below itself when it is moved below itself or one of its descendants; a graph that was built
without such a move has no cycle. -/
theorem ownTree_updateLock (l : Locks) (g : Graph) (resource : Resource) (owner : User)
    (hnode : g.contains resource) :
    let update : Call := .updateLock g resource owner .tree
    let blocksItself : Reply := .failed ((Conflict.treeNotFree resource resource).refusal resource)
    (∃ scope, g.scope? resource = some scope ∧ resource ∉ scope.ancestors ∧
      (resource ∈ scope.descendants ↔ g.Below resource resource)) ∧
    ((update.perform l).2 = blocksItself → g.Below resource resource) ∧
    (l.table.HoldsOnly resource owner →
      ((update.perform l).2 = blocksItself ↔ g.Below resource resource) ∧
      (l.queue.trap? = none → ((update.perform l).2 = .done ↔ ¬ g.Below resource resource))) ∧
    (∀ parent, (g.insert resource parent).Below resource resource ↔
      ∃ p, parent = some p ∧ (p = resource ∨ p ∈ g.descendants resource)) ∧
    ∀ moves, Graph.Orderly moves → g = Graph.build moves → ¬ g.Below resource resource := by
  intro update blocksItself
  obtain ⟨scope, hscope⟩ := Option.isSome_iff_exists.1 ((Graph.isSome_scope? ..).trans hnode)
  obtain ⟨hancestors, hdescendants, hrelated⟩ := Graph.mem_related_self hscope
  obtain rfl := Graph.resource_scope? hscope
  have hplan := Call.plan?_updateLock hscope owner .tree l.table
  have honly : (update.perform l).2 = blocksItself → g.Below scope.resource scope.resource := by
    intro hreply
    cases hs : l.table.updating scope owner .tree with
    | error e =>
      obtain rfl := Reply.failed.inj ((Call.reply_of_error hplan hs).symm.trans hreply)
      exact hrelated.1 (Table.mem_related_of_updating hs)
    | ok s =>
      -- the update goes through, or it breaks off
      by_cases hgoes : l.Unhindered s.events
      · have hdone : (update.perform l).2 = .done := (Call.comesTo_of_ok hplan hs hgoes).reply
        exact absurd (hdone.symm.trans hreply) (by simp [blocksItself])
      · obtain ⟨-, reason, hbroken⟩ := Call.perform_of_hindered hplan hs hgoes
        exact absurd (hbroken.symm.trans hreply) (by simp [blocksItself, Conflict.refusal])
  refine ⟨⟨scope, hscope, hancestors, hdescendants⟩, honly, fun hholds => ⟨⟨honly, ?_⟩, ?_⟩,
    fun parent => Graph.below_insert_self, ?_⟩
  · intro hbelow
    exact Call.reply_of_error hplan (hholds.updating_of_mem (hrelated.2 hbelow))
  · intro htrap
    by_cases hbelow : g.Below scope.resource scope.resource
    · have hreply := Call.reply_of_error hplan (hholds.updating_of_mem (hrelated.2 hbelow))
      rw [hreply]
      exact iff_of_false nofun (not_not_intro hbelow)
    · obtain ⟨s, hs⟩ := hholds.updating_of_notMem (mt hrelated.1 hbelow)
      exact iff_of_true (Call.comesTo_of_ok hplan hs (.inl htrap)).reply hbelow
  · rintro moves horderly rfl
    exact Graph.acyclic_build horderly scope.resource

/-- Alice's editor has the cup, which then is moved below the lid that lies on it. Its own lock
keeps her from locking its tree. -/
theorem ownTree_updateLock_cupBelowItself :
    let g := Graph.build [("cup", some "table"), ("lid", some "cup"), ("cup", some "lid")]
    let l := (fresh {}).run (editorHasCup false)
    g.contains "cup" ∧ l.table.HoldsOnly "cup" "alice" ∧
      ((Call.updateLock g "cup" "alice" .tree).perform l).2 =
        .failed (.cannotLock "cup" "part of the tree of cup is locked (cup)") := by
  intro g l
  have hnode : g.contains "cup" := by decide +kernel
  have hholds : l.table.HoldsOnly "cup" "alice" := by
    have htable : l.table = (Table.empty.grant "cup" .exclusive "alice" false).cover "alice" "cup"
        {"cup"} := by
      decide +kernel
    refine ⟨⟨.first "cup" .exclusive "alice" false, by decide +kernel, rfl, rfl, rfl⟩, ?_⟩
    intro other hne
    rw [htable, Table.lookup?_cover, Table.lookup?_grant, if_neg hne.symm, Table.lookup?_empty]
  obtain ⟨-, -, hblocks, -, -⟩ := ownTree_updateLock l g "cup" "alice" hnode
  refine ⟨hnode, hholds, ((hblocks hholds).1).2 ?_⟩
  rw [← Graph.mem_below]
  decide +kernel

end Locks

end SceneLocks
