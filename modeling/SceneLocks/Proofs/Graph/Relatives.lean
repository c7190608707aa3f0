import Mathlib.Data.List.Nodup
import Mathlib.Data.List.Perm.Subperm
import Mathlib.Logic.Relation
import SceneLocks.Scope

/-!
# Relatives

Both searches of the graph against what they are to find. `Below g x y` says that `y` is met
on the way up from `x`; the chain of `ancestors` and the search for `descendants` agree with
it on every graph, with parents that are no nodes and with cycles, so the two are converse to
each other.

The searches count their steps, and the number of nodes is always enough of them. `Climbs` and
`Sweeps` are the same searches without a count; all that is proved of the results is proved of
these, by induction on how they went. A search below a node may take the children of each node in
any order: it may list what it finds differently then, but it finds the same.
-/

namespace SceneLocks

theorem nodup_toList (resources : Std.ExtTreeSet Resource) : resources.toList.Nodup :=
  resources.distinct_toList.imp fun hne heq => hne (Std.compare_eq_iff_eq.2 heq)

/-- A listing is a matter of order alone. -/
theorem Listing.perm_arrange (listing : Listing) {nodes : List Resource} (h : nodes.Nodup) :
    (listing.arrange nodes).Perm nodes := by
  cases listing with
  | found => exact .refl nodes
  | sorted =>
    refine (List.perm_ext_iff_of_nodup (nodup_toList _) h).2 fun x => ?_
    simp [Std.ExtTreeSet.mem_toList]

theorem Listing.arrange_filter (listing : Listing) (p : Resource → Bool) (nodes : List Resource) :
    listing.arrange (nodes.filter p) = (listing.arrange nodes).filter p := by
  cases listing with
  | found => rfl
  | sorted =>
    have hset : Std.ExtTreeSet.ofList (nodes.filter p) =
        (Std.ExtTreeSet.ofList nodes).filter p := by
      refine Std.ExtTreeSet.ext_mem fun x => ?_
      simp
    rw [arrange, arrange, hset, Std.ExtTreeSet.toList_filter]

namespace Graph

/-- One or more steps up from `x` lead to `y`. -/
def Below (g : Graph) : Resource → Resource → Prop :=
  Relation.TransGen fun x y => g.parent? x = some y

/-- Two different resources of which one is below the other. -/
def Related (g : Graph) (x y : Resource) : Prop :=
  x ≠ y ∧ (g.Below x y ∨ g.Below y x)

theorem Related.symm {g : Graph} {x y : Resource} (h : g.Related x y) : g.Related y x :=
  ⟨h.1.symm, h.2.symm⟩

theorem mem_parents_of_parent? {g : Graph} {x y : Resource} (h : g.parent? x = some y) :
    x ∈ g.parents.keys := by
  rw [Std.ExtTreeMap.mem_keys, Std.ExtTreeMap.mem_iff_isSome_getElem?]
  unfold parent? at h
  cases hx : g.parents[x]? with
  | none => simp [hx] at h
  | some p => rfl

/-- Distinct nodes are no more than the graph has. -/
theorem length_le_size {g : Graph} {nodes : List Resource} (hnodup : nodes.Nodup)
    (hnodes : ∀ x ∈ nodes, x ∈ g.parents.keys) : nodes.length ≤ g.size := by
  have h : nodes.length ≤ g.parents.keys.length := (hnodup.subperm hnodes).length_le
  rwa [Std.ExtTreeMap.length_keys] at h

/-! ## Searches without a bound -/

/-- The chain of parents from `current` on, followed for as long as it goes on: up to a root, or
to a parent that is in `avoid` or was met before. -/
inductive Climbs (g : Graph) : List Resource → Option Resource → List Resource → Prop where
  | root (avoid : List Resource) : Climbs g avoid none []
  | met {avoid : List Resource} {p : Resource} (hmet : p ∈ avoid) : Climbs g avoid (some p) []
  | up {avoid chain : List Resource} {p : Resource} (hnew : p ∉ avoid)
    (hrest : Climbs g (p :: avoid) (g.parent? p) chain) : Climbs g avoid (some p) (p :: chain)

/-- What a search breadth first has found, in the order of the search, when its queue is empty at
last. -/
inductive Sweeps (kids : Resource → List Resource) :
    List Resource → List Resource → List Resource → Prop where
  | empty (found : List Resource) : Sweeps kids [] found found
  | visit {current : Resource} {queue found fresh result : List Resource}
    (hfresh : fresh = (kids current).filter (· ∉ found))
    (hrest : Sweeps kids (queue ++ fresh) (found ++ fresh) result) :
    Sweeps kids (current :: queue) found result

theorem Climbs.unique {g : Graph} {avoid chain chain' : List Resource} {current : Option Resource}
    (h : g.Climbs avoid current chain) (h' : g.Climbs avoid current chain') : chain = chain' := by
  induction h generalizing chain' with
  | root avoid =>
    cases h'
    rfl
  | met hmet =>
    cases h' with
    | met _ => rfl
    | up hnew _ => exact absurd hmet hnew
  | up hnew _ ih =>
    cases h' with
    | met hmet => exact absurd hmet hnew
    | up _ hrest => rw [ih hrest]

theorem Sweeps.unique {kids : Resource → List Resource} {queue found result result' : List Resource}
    (h : Sweeps kids queue found result) (h' : Sweeps kids queue found result') :
    result = result' := by
  induction h with
  | empty found =>
    cases h'
    rfl
  | visit hfresh _ ih =>
    cases h' with
    | visit hfresh' hrest => exact ih (hfresh ▸ hfresh' ▸ hrest)

/-! ## Ancestors -/

/-- With enough fuel the climb is never cut short. The nodes met are distinct and all but the
last have parents, which is why the number of nodes bounds the fuel. -/
theorem climbs_climb {g : Graph} {n : Nat} (x : Resource) (met : List Resource)
    (hnodup : (x :: met).Nodup) (hmet : ∀ z ∈ met, z ∈ g.parents.keys)
    (hfuel : g.size < n + met.length) :
    g.Climbs (x :: met) (g.parent? x) (g.climb n (x :: met) (g.parent? x)) := by
  induction n generalizing x met with
  | zero =>
    -- more distinct nodes were met than there are
    have := length_le_size (List.nodup_cons.1 hnodup).2 hmet
    omega
  | succ n ih =>
    cases hp : g.parent? x with
    | none => exact .root (x :: met)
    | some p =>
      rw [climb]
      split
      · next hmem => exact .met hmem
      · next hmem =>
        refine .up hmem (ih p (x :: met) (List.nodup_cons.2 ⟨hmem, hnodup⟩) ?_ ?_)
        · intro z hz
          rcases List.mem_cons.1 hz with rfl | hz
          · exact mem_parents_of_parent? hp
          · exact hmet z hz
        · rw [List.length_cons]
          omega

/-- The climb to the ancestors ends, and they are what it met. -/
theorem climbs_ancestors (g : Graph) (x : Resource) :
    g.Climbs [x] (g.parent? x) (g.ancestors x) :=
  climbs_climb x [] (List.nodup_singleton x) (by simp) (by simp)

theorem Climbs.notMem {g : Graph} {avoid chain : List Resource} {current : Option Resource}
    {x : Resource} (h : g.Climbs avoid current chain) (hx : x ∈ avoid) : x ∉ chain := by
  induction h with
  | root avoid => exact List.not_mem_nil
  | met hmet => exact List.not_mem_nil
  | up hnew _ ih =>
    intro hmem
    rcases List.mem_cons.1 hmem with rfl | hmem
    · exact hnew hx
    · exact ih (List.mem_cons_of_mem _ hx) hmem

theorem Climbs.nodup {g : Graph} {avoid chain : List Resource} {current : Option Resource}
    (h : g.Climbs avoid current chain) : chain.Nodup := by
  induction h with
  | root avoid => exact List.nodup_nil
  | met hmet => exact List.nodup_nil
  | up hnew hrest ih => exact List.nodup_cons.2 ⟨hrest.notMem List.mem_cons_self, ih⟩

theorem below_of_climbs {g : Graph} {avoid chain : List Resource} {x y : Resource}
    (h : g.Climbs avoid (g.parent? x) chain) (hy : y ∈ chain) : g.Below x y := by
  generalize hcurrent : g.parent? x = current at h
  induction h generalizing x with
  | root avoid => exact absurd hy List.not_mem_nil
  | met hmet => exact absurd hy List.not_mem_nil
  | up hnew _ ih =>
    rcases List.mem_cons.1 hy with rfl | hy
    · exact .single hcurrent
    · exact .head hcurrent (ih hy rfl)

theorem Climbs.mem_of_some {g : Graph} {avoid chain : List Resource} {p : Resource}
    (h : g.Climbs avoid (some p) chain) : p ∈ avoid ∨ p ∈ chain := by
  cases h with
  | met hmet => exact .inl hmet
  | up _ _ => exact .inr List.mem_cons_self

/-- What a climb met is closed under taking parents, up to what it avoids. -/
theorem Climbs.closed {g : Graph} {avoid chain : List Resource} {current : Option Resource}
    (h : g.Climbs avoid current chain) {z p : Resource} (hz : z ∈ chain)
    (hp : g.parent? z = some p) : p ∈ avoid ∨ p ∈ chain := by
  induction h with
  | root avoid => exact absurd hz List.not_mem_nil
  | met hmet => exact absurd hz List.not_mem_nil
  | @up avoid chain q hnew hrest ih =>
    have hnext : p ∈ q :: avoid ∨ p ∈ chain := by
      rcases List.mem_cons.1 hz with rfl | hz
      · exact (hp ▸ hrest).mem_of_some
      · exact ih hz
    rw [List.mem_cons] at hnext ⊢
    tauto

theorem notMem_ancestors_self (g : Graph) (x : Resource) : x ∉ g.ancestors x :=
  (climbs_ancestors g x).notMem List.mem_cons_self

/-- The ancestors are what is met on the way up, the start apart. -/
theorem mem_ancestors {g : Graph} {x y : Resource} :
    y ∈ g.ancestors x ↔ y ≠ x ∧ g.Below x y := by
  have hclimbs := climbs_ancestors g x
  constructor
  · intro h
    exact ⟨fun hxy => notMem_ancestors_self g x (hxy ▸ h), below_of_climbs hclimbs h⟩
  · rintro ⟨hne, hbelow⟩
    have hmem : y ∈ [x] ∨ y ∈ g.ancestors x := by
      induction hbelow with
      | single h => exact (h ▸ hclimbs).mem_of_some
      | @tail z y _ h ih =>
        rcases eq_or_ne z x with rfl | hz
        · exact (h ▸ hclimbs).mem_of_some
        · exact hclimbs.closed ((ih hz).resolve_left (by simpa using hz)) h
    exact hmem.resolve_left (by simpa using hne)

/-! ## Descendants -/

theorem mem_children {g : Graph} {x y : Resource} :
    x ∈ g.children y ↔ g.parent? x = some y := by
  simp only [children, List.mem_filterMap, Prod.exists,
    Std.ExtTreeMap.mem_toList_iff_getElem?_eq_some, parent?]
  constructor
  · rintro ⟨child, parent, hlook, hif⟩
    split at hif
    · next hparent => simp_all
    · simp at hif
  · intro h
    refine ⟨x, some y, ?_, by simp⟩
    cases hx : g.parents[x]? with
    | none => simp [hx] at h
    | some p => simpa [hx] using h

theorem nodup_children (g : Graph) (y : Resource) : (g.children y).Nodup := by
  have hkeys := g.parents.distinct_keys_toList
  refine List.Pairwise.filterMap _ ?_ hkeys
  rintro ⟨a, pa⟩ ⟨b, pb⟩ hab c hc d hd rfl
  simp only [Option.ite_none_right_eq_some, Option.some.injEq] at hc hd
  exact hab (by simp [hc.2, hd.2])

/-- The children of each node, in any order. -/
def Children (g : Graph) (kids : Resource → List Resource) : Prop :=
  ∀ y, (kids y).Perm (g.children y)

theorem children_children (g : Graph) : g.Children g.children := fun _ => .refl _

section

variable {g : Graph} {kids : Resource → List Resource} {queue found result : List Resource}
  {x y : Resource}

theorem Children.mem_iff (hkids : g.Children kids) : x ∈ kids y ↔ g.parent? x = some y :=
  (hkids y).mem_iff.trans mem_children

theorem Children.mem_fresh (hkids : g.Children kids) :
    x ∈ (kids y).filter (· ∉ found) ↔ g.parent? x = some y ∧ x ∉ found := by
  simp [hkids.mem_iff]

/-- A search never finds a node twice. -/
theorem Children.nodup_append (hkids : g.Children kids) (hfound : found.Nodup) :
    (found ++ (kids y).filter (· ∉ found)).Nodup := by
  have hnodup : (kids y).Nodup := (hkids y).nodup_iff.2 (nodup_children g y)
  refine List.nodup_append.2 ⟨hfound, hnodup.filter _, ?_⟩
  rintro x hx _ hfresh rfl
  exact (hkids.mem_fresh.1 hfresh).2 hx

/-- With enough fuel the sweep is never cut short. A node enters the queue only when it is found,
so the queue and the nodes not found yet bound the fuel. -/
theorem sweeps_sweep (hkids : g.Children kids) {n : Nat} (queue found : List Resource)
    (hnodup : found.Nodup) (hfound : ∀ x ∈ found, x ∈ g.parents.keys)
    (hfuel : queue.length + g.size ≤ n + found.length) :
    Sweeps kids queue found (sweep kids n queue found) := by
  induction n generalizing queue found with
  | zero =>
    have hsize := length_le_size hnodup hfound
    have hnil : queue = [] := List.length_eq_zero_iff.1 (by omega)
    exact hnil ▸ .empty found
  | succ n ih =>
    cases queue with
    | nil => exact .empty found
    | cons current queue =>
      refine .visit rfl (ih _ _ (hkids.nodup_append hnodup) ?_ ?_)
      · intro x hx
        rcases List.mem_append.1 hx with hx | hx
        · exact hfound x hx
        · exact mem_parents_of_parent? (hkids.mem_fresh.1 hx).1
      · rw [List.length_append, List.length_append]
        rw [List.length_cons] at hfuel
        omega

/-- The sweep below a node ends, with all that it found. -/
theorem sweeps_below (g : Graph) (y : Resource) : Sweeps g.children [y] [] (g.below y) :=
  sweeps_sweep g.children_children [y] [] List.nodup_nil (by simp) (by simp [Nat.add_comm])

theorem Sweeps.nodup (h : Sweeps kids queue found result) (hkids : g.Children kids)
    (hfound : found.Nodup) : result.Nodup := by
  induction h with
  | empty found => exact hfound
  | visit hfresh _ ih => exact ih (hfresh ▸ hkids.nodup_append hfound)

theorem below_of_sweeps (h : Sweeps kids queue found result) (hkids : g.Children kids)
    (hx : x ∈ result) : x ∈ found ∨ ∃ y ∈ queue, g.Below x y := by
  induction h with
  | empty found => exact .inl hx
  | @visit current queue found fresh result hfresh _ ih =>
    have hchild : ∀ z ∈ fresh, g.parent? z = some current := fun z hz =>
      (hkids.mem_fresh.1 (hfresh ▸ hz)).1
    rcases ih hx with hx | ⟨y, hy, hbelow⟩
    · rcases List.mem_append.1 hx with hx | hx
      · exact .inl hx
      · exact .inr ⟨current, List.mem_cons_self, .single (hchild x hx)⟩
    · rcases List.mem_append.1 hy with hy | hy
      · exact .inr ⟨y, List.mem_cons_of_mem current hy, hbelow⟩
      · exact .inr ⟨current, List.mem_cons_self, hbelow.tail (hchild y hy)⟩

/-- What a sweep found is closed under taking children: of a node the children were found, unless
it is still in the queue. -/
theorem Sweeps.closed (h : Sweeps kids queue found result) (start : Resource)
    (hopen : ∀ y, y = start ∨ y ∈ found → y ∈ queue ∨ ∀ x ∈ kids y, x ∈ found) :
    ∀ y, y = start ∨ y ∈ result → ∀ x ∈ kids y, x ∈ result := by
  induction h with
  | empty found => exact fun y hy => (hopen y hy).resolve_left List.not_mem_nil
  | @visit current queue found fresh result hfresh _ ih =>
    refine ih fun y hy => ?_
    rcases eq_or_ne y current with rfl | hne
    · -- `current` leaves the queue, since its children are all found now
      refine .inr fun x hx => List.mem_append.2 ?_
      by_cases hx' : x ∈ found
      · exact .inl hx'
      · exact .inr (hfresh ▸ List.mem_filter.2 ⟨hx, decide_eq_true hx'⟩)
    · by_cases hy' : y ∈ fresh
      · exact .inl (List.mem_append_right queue hy')
      · have hold : y = start ∨ y ∈ found :=
          hy.imp_right fun h => (List.mem_append.1 h).resolve_right hy'
        rcases hopen y hold with h | h
        · exact .inl (List.mem_append_left fresh ((List.mem_cons.1 h).resolve_left hne))
        · exact .inr fun x hx => List.mem_append_left fresh (h x hx)

/-- What a search below a node finds is all whose way up leads to the node. -/
theorem Sweeps.mem_iff (h : Sweeps kids [y] [] result) (hkids : g.Children kids) :
    x ∈ result ↔ g.Below x y := by
  constructor
  · intro hx
    rcases below_of_sweeps h hkids hx with hx | ⟨z, hz, hbelow⟩
    · exact absurd hx List.not_mem_nil
    · exact List.mem_singleton.1 hz ▸ hbelow
  · intro hbelow
    have hclosed := h.closed y (by simp)
    induction hbelow using Relation.TransGen.head_induction_on with
    | single h => exact hclosed y (.inl rfl) _ (hkids.mem_iff.2 h)
    | head h _ ih => exact hclosed _ (.inr ih) _ (hkids.mem_iff.2 h)

theorem mem_below : x ∈ g.below y ↔ g.Below x y :=
  (sweeps_below g y).mem_iff g.children_children

theorem nodup_below (g : Graph) (y : Resource) : (g.below y).Nodup :=
  (sweeps_below g y).nodup g.children_children List.nodup_nil

/-- In whatever order a search takes the children of each node, it finds the same. -/
theorem Sweeps.perm_below (h : Sweeps kids [y] [] result) (hkids : g.Children kids) :
    result.Perm (g.below y) :=
  (List.perm_ext_iff_of_nodup (h.nodup hkids List.nodup_nil) (nodup_below g y)).2 fun _ =>
    (h.mem_iff hkids).trans mem_below.symm

end

theorem perm_descendants (g : Graph) (y : Resource) : (g.descendants y).Perm (g.below y) :=
  g.listing.perm_arrange (nodup_below g y)

/-- The descendants are what the way up from leads to the start. -/
theorem mem_descendants {g : Graph} {x y : Resource} : x ∈ g.descendants y ↔ g.Below x y := by
  rw [(perm_descendants g y).mem_iff, mem_below]

/-- Relatives are the ancestors and the descendants of each other. -/
theorem related_iff {g : Graph} {x y : Resource} :
    g.Related x y ↔ x ≠ y ∧ (y ∈ g.ancestors x ∨ y ∈ g.descendants x) := by
  unfold Related
  refine and_congr_right fun hne => ?_
  rw [mem_ancestors, mem_descendants, and_iff_right hne.symm]

/-! ## Scopes -/

/-- A scope of a node: the chain of its parents, and all that is below it, in any order. -/
structure IsScope (g : Graph) (resource : Resource) (scope : Scope) : Prop where
  node : g.contains resource
  resource_eq : scope.resource = resource
  ancestors_eq : scope.ancestors = g.ancestors resource
  descendants_perm : scope.descendants.Perm (g.below resource)

theorem isScope_of_scope? {g : Graph} {resource : Resource} {scope : Scope}
    (h : g.scope? resource = some scope) : g.IsScope resource scope := by
  unfold scope? at h
  split at h
  · next hnode =>
    obtain rfl := Option.some.inj h
    exact ⟨hnode, rfl, rfl, perm_descendants g resource⟩
  · cases h

/-- What a search finds makes up a scope, whatever the order of the children. -/
theorem isScope_of_sweeps {g : Graph} {kids : Resource → List Resource} {resource : Resource}
    {found : List Resource} (hnode : g.contains resource) (h : Sweeps kids [resource] [] found)
    (hkids : g.Children kids) : g.IsScope resource ⟨resource, g.ancestors resource, found⟩ :=
  ⟨hnode, rfl, rfl, h.perm_below hkids⟩

theorem resource_scope? {g : Graph} {resource : Resource} {scope : Scope}
    (h : g.scope? resource = some scope) : scope.resource = resource :=
  (isScope_of_scope? h).resource_eq

/-- The relatives in a scope of a node are the nodes above and below it. -/
theorem IsScope.mem_related {g : Graph} {resource relative : Resource} {scope : Scope}
    (h : g.IsScope resource scope) (hne : relative ≠ resource) :
    relative ∈ scope.related ↔ g.Related resource relative := by
  rw [Scope.related, List.mem_append, h.ancestors_eq, h.descendants_perm.mem_iff, mem_ancestors,
    mem_below, and_iff_right hne, Related, and_iff_right hne.symm]

theorem mem_related_scope? {g : Graph} {resource relative : Resource} {scope : Scope}
    (h : g.scope? resource = some scope) (hne : relative ≠ resource) :
    relative ∈ scope.related ↔ g.Related resource relative :=
  (isScope_of_scope? h).mem_related hne

/-- A node is one of its own relatives only on a cycle, as one of its descendants. -/
theorem mem_related_self {g : Graph} {resource : Resource} {scope : Scope}
    (h : g.scope? resource = some scope) :
    resource ∉ scope.ancestors ∧ (resource ∈ scope.descendants ↔ g.Below resource resource) ∧
      (resource ∈ scope.related ↔ g.Below resource resource) := by
  have hscope := isScope_of_scope? h
  have hancestors : resource ∉ scope.ancestors :=
    hscope.ancestors_eq ▸ notMem_ancestors_self g resource
  have hdescendants : resource ∈ scope.descendants ↔ g.Below resource resource :=
    hscope.descendants_perm.mem_iff.trans mem_below
  refine ⟨hancestors, hdescendants, ?_⟩
  rw [Scope.related, List.mem_append, hdescendants, or_iff_right hancestors]

theorem notMem_related_self {g : Graph} {resource : Resource} {scope : Scope}
    (h : g.scope? resource = some scope) (hacyclic : ¬ g.Below resource resource) :
    resource ∉ scope.related :=
  mt (mem_related_self h).2.2.1 hacyclic

end Graph

end SceneLocks
