import SceneLocks.Proofs.Locks.TreeExclusion

/-!
# What a conflict says

The check of a request is exact: it finds a conflict if and only if one more grant would break
exclusion, and the conflict that it reports is one that the table holds. Which relative is named
depends on the order in which a scope lists the descendants. A graph promises none, so all is
stated for every order.
-/

namespace SceneLocks

/-! ## One more grant -/

/-- The entry after one more grant, whatever the grant is in conflict with. It is exclusive or a
tree lock if that held of the old entry or is asked for. -/
def Entry.addGrant (resource : Resource) (mode : Mode) (owner : User) (tree : Bool) :
    Option Entry → Entry
  | none => .first resource mode owner tree
  | some e =>
    { e.add owner with
      mode := if e.mode = .exclusive then .exclusive else mode
      tree := e.tree || tree }

namespace Entry

variable {e : Entry} {resource : Resource} {mode : Mode} {owner : User} {tree : Bool}

theorem Coherent.exists_grants (h : e.Coherent resource) : ∃ user, 0 < e.grants user := by
  obtain ⟨user, howned⟩ := h.owned
  exact ⟨user, h.isOwnedBy_iff.1 howned⟩

theorem exists_grants_addGrant (resource : Resource) (mode : Mode) (owner : User) (tree : Bool)
    (e : Option Entry) : ∃ user, 0 < (addGrant resource mode owner tree e).grants user := by
  refine ⟨owner, ?_⟩
  cases e with
  | none => simp [addGrant]
  | some e =>
    have hadded := grants_add e owner owner
    rw [if_pos rfl] at hadded
    exact Nat.lt_of_lt_of_eq (Nat.succ_pos _) hadded.symm

/-- With a grant on it already, an entry cannot be anybody's sole grant after one more. -/
theorem not_hasSoleGrant_addGrant (h : ∃ user, 0 < e.grants user) :
    ¬ (addGrant resource mode owner tree (some e)).HasSoleGrant := by
  rintro ⟨holder, howners⟩
  obtain ⟨user, hgrants⟩ := h
  have hone : ∀ user, (e.add owner).grants user = if holder = user then 1 else 0 := by
    intro user
    have howners : (e.add owner).owners = (∅ : Std.ExtTreeMap User Nat).insert holder 1 := howners
    simp [grants, howners, Std.ExtTreeMap.getD_insert]
  have howner := hone owner
  have huser := hone user
  rw [grants_add] at howner huser
  grind

end Entry

namespace Table

/-- The table after one more grant, whatever the grant is in conflict with. -/
def addGrant (t : Table) (resource : Resource) (mode : Mode) (owner : User) (tree : Bool) : Table :=
  { t with
    entries := t.entries.insert resource (.addGrant resource mode owner tree (t.lookup? resource)) }

/-- Exclusive entries and tree locks are held by one owner with one grant, and no relative of a
tree lock has an entry. Every entry is held by somebody, since one without owners is none
(`Entry.keepOwned`). It is so after every run (`Locks.exclusion_run`). -/
structure Exclusion (g : Graph) (t : Table) : Prop where
  held : ∀ resource e, t.lookup? resource = some e → ∃ user, 0 < e.grants user
  sole : ∀ resource e, t.lookup? resource = some e → e.mode = .exclusive ∨ e.tree = true →
    e.HasSoleGrant
  apart : t.TreeExclusion g

variable {g : Graph} {t : Table} {scope : Scope} {resource : Resource} {mode : Mode}
  {owner : User} {tree : Bool}

theorem lookup?_addGrant (t : Table) (resource other : Resource) (mode : Mode) (owner : User)
    (tree : Bool) :
    (t.addGrant resource mode owner tree).lookup? other =
      if resource = other then some (.addGrant resource mode owner tree (t.lookup? resource))
      else t.lookup? other := by
  simp [lookup?, addGrant, Std.ExtTreeMap.getElem?_insert]

/-- A request that is in no conflict is granted as it is: a shared entry need not become exclusive
or a tree lock. -/
theorem lookup?_addGrant_of_conflict? (hresource : scope.resource = resource)
    (h : t.conflict? scope mode tree = none) (other : Resource) :
    (t.addGrant resource mode owner tree).lookup? other =
      (t.grant resource mode owner tree).lookup? other := by
  obtain ⟨hown, -⟩ := conflict?_eq_none_iff.1 h
  rw [lookup?_addGrant, lookup?_grant]
  split
  · next hother =>
    subst hother hresource
    cases he : t.lookup? scope.resource with
    | none => rfl
    | some e =>
      obtain ⟨hshared, hmode, hplain, htree⟩ := hown e he
      simp [Entry.addGrant, Entry.add, hshared, hmode, hplain, htree]
  · rfl

/-! ## The check is exact -/

/-- A table where every entry is coherent. -/
theorem Coherent.exclusion (h : t.Coherent) (hapart : t.TreeExclusion g) : t.Exclusion g where
  held resource e he := (h resource e he).exists_grants
  sole resource e he hstrong := hstrong.elim (h resource e he).exclusive (h resource e he).tree
  apart := hapart

/-- What is in no conflict breaks nothing. -/
theorem Exclusion.addGrant (h : t.Exclusion g) (hscope : g.IsScope resource scope)
    (hfree : t.conflict? scope mode tree = none) (owner : User) :
    (t.addGrant resource mode owner tree).Exclusion g := by
  obtain ⟨hown, hrelatives⟩ := conflict?_eq_none_iff.1 hfree
  rw [hscope.resource_eq] at hown
  refine ⟨fun x e he => ?_, fun x e he hstrong => ?_, ?_⟩
  · rw [lookup?_addGrant] at he
    split at he
    · obtain rfl := Option.some.inj he
      exact Entry.exists_grants_addGrant ..
    · exact h.held x e he
  · rw [lookup?_addGrant] at he
    split at he
    · -- a grant on top of others is shared and plain, the first grant on a resource is alone
      obtain rfl := Option.some.inj he
      cases hfound : t.lookup? resource with
      | none => exact Entry.hasSoleGrant_first ..
      | some found =>
        obtain ⟨hshared, hmode, hplain, htree⟩ := hown found hfound
        simp [hfound, Entry.addGrant, hshared, hmode, hplain, htree] at hstrong
    · exact h.sole x e he hstrong
  · refine h.apart.of_entry hscope _ (lookup?_addGrant t resource · mode owner tree) ?_
    intro relative hrelative f hf
    obtain ⟨hfplain, htree⟩ := hrelatives relative hrelative f hf
    refine ⟨?_, hfplain⟩
    cases hfound : t.lookup? resource with
    | none => exact htree
    | some found => simp [Entry.addGrant, (hown found hfound).2.2.1, htree]

/-- What breaks nothing is in no conflict. -/
theorem Exclusion.conflict? (h : t.Exclusion g) (hscope : g.IsScope resource scope)
    (hkept : (t.addGrant resource mode owner tree).Exclusion g) :
    t.conflict? scope mode tree = none := by
  have hnew := lookup?_addGrant t resource resource mode owner tree
  rw [if_pos rfl] at hnew
  have hown : ∀ e, t.lookup? resource = some e →
      e.mode = .shared ∧ mode = .shared ∧ e.tree = false ∧ tree = false := by
    intro e he
    rw [he] at hnew
    have hweak := mt (hkept.sole resource _ hnew)
      (Entry.not_hasSoleGrant_addGrant (h.held resource e he))
    cases hmode : e.mode <;> cases mode <;> simp_all [Entry.addGrant]
  rw [conflict?_eq_none_iff, hscope.resource_eq]
  refine ⟨hown, ?_⟩
  intro relative hrelative f hf
  by_cases hself : relative = resource
  · -- on a cycle a node is among its own relatives
    subst hself
    exact (hown f hf).2.2
  · have hrelated := (hscope.mem_related hself).1 hrelative
    have hold := lookup?_addGrant t resource relative mode owner tree
    rw [if_neg (Ne.symm hself), hf] at hold
    obtain ⟨hplain, hfplain⟩ := hkept.apart resource relative hrelated _ f hnew hold
    refine ⟨hfplain, ?_⟩
    cases hfound : t.lookup? resource with
    | none =>
      rw [hfound] at hplain
      exact hplain
    | some found => exact (hown found hfound).2.2.2

/-! ## The conflict reported -/

/-- The lock of a relative stands in the way of a request: it covers its tree, or the request is
for a tree. -/
def Blocks (t : Table) (tree : Bool) (relative : Resource) : Prop :=
  ∃ e, t.lookup? relative = some e ∧ (e.tree = true ∨ tree = true)

/-- The first relative, in the order of the scope, that stands in the way. -/
def FirstBlocks (t : Table) (scope : Scope) (tree : Bool) (relative : Resource) : Prop :=
  ∃ before after, scope.related = before ++ relative :: after ∧ t.Blocks tree relative ∧
    ∀ earlier ∈ before, ¬ t.Blocks tree earlier

/-- What a conflict says of a table is so. -/
def BearsOut (g : Graph) (t : Table) (scope : Scope) (tree : Bool) : Conflict → Prop
  | .heldExclusively resource holder =>
    resource = scope.resource ∧ ∃ e, t.lookup? resource = some e ∧ e.mode = .exclusive ∧
      e.owners = (∅ : Std.ExtTreeMap User Nat).insert holder 1
  | .heldShared resource owners =>
    resource = scope.resource ∧ ∃ e, t.lookup? resource = some e ∧ e.mode = .shared ∧
      owners = e.owners.size
  | .inLockedTree resource root holder =>
    resource = scope.resource ∧ g.Related resource root ∧ t.FirstBlocks scope tree root ∧
      ∃ e, t.lookup? root = some e ∧ e.tree = true ∧
        e.owners = (∅ : Std.ExtTreeMap User Nat).insert holder 1
  | .treeNotFree resource blocking =>
    resource = scope.resource ∧ g.Related resource blocking ∧ t.FirstBlocks scope tree blocking ∧
      tree = true ∧ ∃ e, t.lookup? blocking = some e
  | .somethingLocked => False

theorem bearsOut_ownConflict? {e : Entry} {c : Conflict} (h : t.Exclusion g)
    (he : t.lookup? scope.resource = some e)
    (hc : ownConflict? scope.resource mode tree e = some c) : t.BearsOut g scope tree c := by
  unfold ownConflict? at hc
  split at hc
  · next hmode =>
    obtain ⟨holder, howners⟩ := h.sole _ e he (.inl hmode)
    rw [Entry.holder?, hmode, Entry.firstOwner?_of_sole howners] at hc
    obtain rfl := Option.some.inj hc
    exact ⟨rfl, e, he, hmode, howners⟩
  · next hmode =>
    obtain rfl := Option.some.inj hc
    exact ⟨rfl, e, he, hmode, rfl⟩
  · next hmode =>
    obtain ⟨-, hc⟩ := Option.ite_none_right_eq_some.1 hc
    obtain rfl := Option.some.inj hc
    exact ⟨rfl, e, he, hmode, rfl⟩

theorem blocks_iff {relative : Resource} :
    t.Blocks tree relative ↔
      (t.lookup? relative).bind (relativeConflict? resource tree relative) ≠ none := by
  simp only [Blocks, ne_eq, Option.bind_eq_none_iff, relativeConflict?_eq_none_iff, not_forall]
  grind

theorem bearsOut_relativeConflict? {relative : Resource} {e : Entry} {c : Conflict}
    (h : t.Exclusion g) (hrelated : g.Related scope.resource relative)
    (hfirst : t.FirstBlocks scope tree relative) (he : t.lookup? relative = some e)
    (hc : relativeConflict? scope.resource tree relative e = some c) :
    t.BearsOut g scope tree c := by
  unfold relativeConflict? at hc
  split at hc
  · next htree =>
    obtain ⟨holder, howners⟩ := h.sole relative e he (.inr htree)
    rw [Entry.firstOwner?_of_sole howners] at hc
    obtain rfl := Option.some.inj hc
    exact ⟨rfl, hrelated, hfirst, e, he, htree, howners⟩
  · obtain ⟨htree, hc⟩ := Option.ite_none_right_eq_some.1 hc
    obtain rfl := Option.some.inj hc
    exact ⟨rfl, hrelated, hfirst, htree, e, he⟩

/-- The conflict reported is there. -/
theorem Exclusion.bearsOut (h : t.Exclusion g) (hscope : g.IsScope resource scope)
    {c : Conflict} (hc : t.conflict? scope mode tree = some c) : t.BearsOut g scope tree c := by
  unfold Table.conflict? at hc
  rcases Option.or_eq_some_iff.1 hc with hown | ⟨hfree, hrelative⟩
  · obtain ⟨e, he, hown⟩ := Option.bind_eq_some_iff.1 hown
    exact bearsOut_ownConflict? h he hown
  · obtain ⟨before, relative, after, hrelated, hfound, hbefore⟩ :=
      List.findSome?_eq_some_iff.1 hrelative
    have hfirst : t.FirstBlocks scope tree relative := by
      refine ⟨before, after, hrelated, ?_, ?_⟩
      · exact blocks_iff.2 (by rw [hfound]; simp)
      · exact fun earlier hearlier => mt blocks_iff.1 (not_not.2 (hbefore earlier hearlier))
    obtain ⟨e, he, hconflict⟩ := Option.bind_eq_some_iff.1 hfound
    -- a node that is its own relative has been checked before, as the resource of the request
    have hne : relative ≠ scope.resource := by
      rintro rfl
      have hown := ownConflict?_eq_none_iff.1 (Option.bind_eq_none_iff.1 hfree e he)
      rw [relativeConflict?_eq_none_iff.2 hown.2.2] at hconflict
      cases hconflict
    have hmem : relative ∈ scope.related := by simp [hrelated]
    rw [hscope.resource_eq] at hne
    have hgraph : g.Related scope.resource relative :=
      hscope.resource_eq ▸ (hscope.mem_related hne).1 hmem
    exact bearsOut_relativeConflict? h hgraph hfirst he hconflict

/-- The check is exact and its diagnosis is true, in whatever order the scope lists the
descendants: in a table without broken exclusion, a request for a node is in no conflict if and only
if one more grant on the node, by whomever, breaks nothing either; then the node is granted just so;
and a conflict that is reported is there, with nothing in the way before it. -/
theorem conflict?_exact (h : t.Exclusion g) (hscope : g.IsScope resource scope) (mode : Mode)
    (tree : Bool) :
    (∀ owner, t.conflict? scope mode tree = none ↔
      (t.addGrant resource mode owner tree).Exclusion g) ∧
    (t.conflict? scope mode tree = none → ∀ owner other,
      (t.grant resource mode owner tree).lookup? other =
        (t.addGrant resource mode owner tree).lookup? other) ∧
    ∀ c, t.conflict? scope mode tree = some c → t.BearsOut g scope tree c := by
  refine ⟨fun owner => ⟨fun hfree => h.addGrant hscope hfree owner, h.conflict? hscope⟩, ?_,
    fun _ hc => h.bearsOut hscope hc⟩
  intro hfree owner other
  exact (lookup?_addGrant_of_conflict? hscope.resource_eq hfree other).symm

end Table

namespace Locks

/-- Exclusion is in order after every run on one graph. -/
theorem exclusion_run {g : Graph} (settings : LockSettings) {steps : List Step}
    (hg : ∀ step ∈ steps, step.On g) : ((fresh settings).run steps).table.Exclusion g := by
  let Inv (t : Table) : Prop := t.Coherent ∧ t.TreeExclusion g
  have hsection : ∀ t (p : Plan) s, p.On g → Inv t → p.edits t = .ok s → Inv (s.result t) :=
    fun _ _ _ hp h hs => ⟨h.1.result hp.resolved hs, h.2.result hp hs⟩
  have hrun : Inv ((fresh settings).run steps).table :=
    invariant_run ⟨Table.coherent_empty, Table.treeExclusion_empty g⟩ hsection settings
      fun _ hc _ _ hplan => Call.On.plan? (hg _ hc) hplan
  exact hrun.1.exclusion hrun.2

/-- A tray on the table and a cup on the tray. -/
def cupOnTray : Graph :=
  ((Graph.empty.insert "table" none).insert "tray" (some "table")).insert "cup" (some "tray")

/-- Alice and Bob share the cup, and Carol has the tray. -/
def sharedCup : List Step :=
  [.call (.acquireOnce cupOnTray 0 false { resource := "cup", owner := "alice", mode := .shared }),
    .call (.acquireOnce cupOnTray 0 false { resource := "cup", owner := "bob", mode := .shared }),
    .call (.acquireOnce cupOnTray 0 false { resource := "tray", owner := "carol" })]

/-- A third one may share the cup with them, but not have it alone. For the tree below the table
the tray is in the way if the search found it first; the cup is, if the descendants are sorted. -/
theorem conflict?_exact_sharedCup :
    let t := ((fresh {}).run sharedCup).table
    let cup : Scope := ⟨"cup", ["tray", "table"], []⟩
    let table (descendants : List Resource) : Scope := ⟨"table", [], descendants⟩
    (t.addGrant "cup" .shared "dave" false).Exclusion cupOnTray ∧
      ¬ (t.addGrant "cup" .exclusive "dave" false).Exclusion cupOnTray ∧
      t.BearsOut cupOnTray cup false (.heldShared "cup" 2) ∧
      t.BearsOut cupOnTray (table ["tray", "cup"]) true (.treeNotFree "table" "tray") ∧
      t.BearsOut cupOnTray (table ["cup", "tray"]) true (.treeNotFree "table" "cup") := by
  intro t cup table
  have hg : ∀ step ∈ sharedCup, step.On cupOnTray := by simp [sharedCup, Step.On, Call.On]
  have hkept : t.Exclusion cupOnTray := exclusion_run {} hg
  have hcup : cupOnTray.IsScope "cup" cup := Graph.isScope_of_scope? (by decide +kernel)
  have hfound : cupOnTray.IsScope "table" (table ["tray", "cup"]) :=
    Graph.isScope_of_scope? (by decide +kernel)
  have hsorted : cupOnTray.IsScope "table" (table ["cup", "tray"]) :=
    { hfound with descendants_perm := .trans (.swap ..) hfound.descendants_perm }
  have hshared : t.conflict? cup .shared false = none := by decide +kernel
  have hrefused : t.conflict? cup .exclusive false = some (.heldShared "cup" 2) := by
    decide +kernel
  obtain ⟨hgrant, -, -⟩ := Table.conflict?_exact hkept hcup .shared false
  obtain ⟨hexact, -, hsays⟩ := Table.conflict?_exact hkept hcup .exclusive false
  refine ⟨(hgrant "dave").1 hshared, ?_, hsays _ hrefused, ?_, ?_⟩
  · rw [← hexact "dave", hrefused]
    simp
  · exact (Table.conflict?_exact hkept hfound .exclusive true).2.2 _ (by decide +kernel)
  · exact (Table.conflict?_exact hkept hsorted .exclusive true).2.2 _ (by decide +kernel)

end Locks

end SceneLocks
