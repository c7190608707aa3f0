import SceneLocks.Proofs.Graph.Relatives

/-!
# Removal

A node goes with everything below it and with nothing else. What stays keeps all of its
ancestors: a chain of parents that meets a node which goes leads on to the one that was removed.
-/

namespace SceneLocks.Graph

variable {g : Graph} {id x y : Resource}

/-! ## What goes -/

/-- The node goes when `id` is removed. -/
def Goes (g : Graph) (id x : Resource) : Prop := x = id ∨ g.Below x id

instance (g : Graph) (id x : Resource) : Decidable (g.Goes id x) :=
  decidable_of_iff (x = id ∨ x ∈ g.below id) (by rw [Goes, mem_below])

theorem goes_iff : g.Goes id x ↔ x = id ∨ id ∈ g.ancestors x := by
  rw [Goes, mem_ancestors]
  rcases eq_or_ne x id with rfl | hne
  · simp
  · rw [and_iff_right hne.symm]

theorem Goes.of_below (hy : g.Goes id y) (h : g.Below x y) : g.Goes id x := by
  rcases hy with rfl | hy
  · exact .inr h
  · exact .inr (h.trans hy)

theorem mem_doomed : x ∈ (g.below id).insert id ↔ g.Goes id x := by
  rw [List.mem_insert_iff, mem_below, Goes]

/-! ## What stays -/

theorem getElem?_remove (g : Graph) (id x : Resource) :
    (g.remove id).1.parents[x]? = if g.Goes id x then none else g.parents[x]? := by
  simp only [remove, Std.ExtTreeMap.getElem?_filter']
  split
  · next h => simp [mem_doomed.2 h]
  · next h => cases g.parents[x]? <;> simp [mt mem_doomed.1 h]

theorem contains_remove : (g.remove id).1.contains x ↔ g.contains x ∧ ¬ g.Goes id x := by
  unfold contains
  rw [Std.ExtTreeMap.contains_eq_isSome_getElem?, Std.ExtTreeMap.contains_eq_isSome_getElem?,
    getElem?_remove]
  split <;> simp_all

theorem parent?_remove (g : Graph) (id x : Resource) :
    (g.remove id).1.parent? x = if g.Goes id x then none else g.parent? x := by
  unfold parent?
  rw [getElem?_remove]
  split <;> rfl

theorem below_remove : (g.remove id).1.Below x y ↔ g.Below x y ∧ ¬ g.Goes id x := by
  have hstep : ∀ x y, (g.remove id).1.parent? x = some y ↔
      g.parent? x = some y ∧ ¬ g.Goes id x := by
    intro x y
    rw [parent?_remove]
    split <;> simp_all
  constructor
  · intro h
    obtain ⟨z, hz, -⟩ := Relation.TransGen.head'_iff.1 h
    exact ⟨Relation.TransGen.mono (fun a b hab => ((hstep a b).1 hab).1) x y h,
      ((hstep x z).1 hz).2⟩
  · rintro ⟨h, hstays⟩
    induction h using Relation.TransGen.head_induction_on with
    | single h => exact .single ((hstep _ y).2 ⟨h, hstays⟩)
    | head h _ ih =>
      exact .head ((hstep _ _).2 ⟨h, hstays⟩) (ih fun hgoes => hstays (hgoes.of_below (.single h)))

/-- A climb takes the same way through every graph in which what it met has the same parents. -/
theorem Climbs.congr {g' : Graph} {avoid chain : List Resource} {current : Option Resource}
    (h : g.Climbs avoid current chain) (hsame : ∀ z ∈ chain, g'.parent? z = g.parent? z) :
    g'.Climbs avoid current chain := by
  induction h with
  | root avoid => exact .root avoid
  | met hmet => exact .met hmet
  | up hnew _ ih =>
    refine .up hnew ?_
    rw [hsame _ List.mem_cons_self]
    exact ih fun z hz => hsame z (List.mem_cons_of_mem _ hz)

theorem ancestors_remove (hstays : ¬ g.Goes id x) :
    (g.remove id).1.ancestors x = g.ancestors x := by
  have hparent : (g.remove id).1.parent? x = g.parent? x := by rw [parent?_remove, if_neg hstays]
  have hclimbs : (g.remove id).1.Climbs [x] (g.parent? x) (g.ancestors x) := by
    refine (climbs_ancestors g x).congr fun z hz => ?_
    rw [parent?_remove, if_neg fun hgoes => hstays (hgoes.of_below (mem_ancestors.1 hz).2)]
  exact (climbs_ancestors (g.remove id).1 x).unique (hparent ▸ hclimbs)

theorem children_remove (g : Graph) (id y : Resource) :
    (g.remove id).1.children y = (g.children y).filter (¬ g.Goes id ·) := by
  unfold children
  rw [remove, Std.ExtTreeMap.toList_filter, List.filterMap_filter, List.filter_filterMap]
  refine List.filterMap_congr fun p _ => ?_
  simp only [mem_doomed]
  by_cases hparent : p.2 = some y <;> simp [hparent, Option.filter]

/-- A search finds the same as before of what stays, and in the same order: below what goes there
is nothing that stays. -/
theorem Sweeps.remove {queue found result : List Resource}
    (h : Sweeps g.children queue found result) :
    Sweeps (g.remove id).1.children (queue.filter (¬ g.Goes id ·)) (found.filter (¬ g.Goes id ·))
      (result.filter (¬ g.Goes id ·)) := by
  induction h with
  | empty found => exact .empty _
  | @visit current queue found fresh result hfresh _ ih =>
    rw [List.filter_append, List.filter_append] at ih
    by_cases hgoes : g.Goes id current
    · have hnone : fresh.filter (¬ g.Goes id ·) = [] := by
        rw [List.filter_eq_nil_iff]
        intro z hz
        have hparent := mem_children.1 (List.mem_of_mem_filter (hfresh ▸ hz))
        simpa using hgoes.of_below (.single hparent)
      rw [hnone, List.append_nil, List.append_nil] at ih
      rwa [List.filter_cons_of_neg (by simpa using hgoes)]
    · rw [List.filter_cons_of_pos (by simpa using hgoes)]
      refine .visit ?_ ih
      rw [hfresh, children_remove, List.filter_filter, List.filter_filter]
      refine List.filter_congr fun z _ => ?_
      by_cases hz : g.Goes id z <;> simp [hz]

theorem below_remove_eq (g : Graph) (id x : Resource) :
    (g.remove id).1.below x = (g.below x).filter (¬ g.Goes id ·) := by
  by_cases hgoes : g.Goes id x
  · have hnone : (g.remove id).1.below x = [] := by
      rw [List.eq_nil_iff_forall_not_mem]
      intro z hz
      obtain ⟨hbelow, hstays⟩ := below_remove.1 (mem_below.1 hz)
      exact hstays (hgoes.of_below hbelow)
    rw [hnone, eq_comm, List.filter_eq_nil_iff]
    intro z hz
    simpa using hgoes.of_below (mem_below.1 hz)
  · have hsweeps : Sweeps (g.remove id).1.children ([x].filter (¬ g.Goes id ·)) []
        ((g.below x).filter (¬ g.Goes id ·)) := (sweeps_below g x).remove
    rw [List.filter_cons_of_pos (by simpa using hgoes)] at hsweeps
    exact (sweeps_below (g.remove id).1 x).unique hsweeps

theorem descendants_remove (g : Graph) (id x : Resource) :
    (g.remove id).1.descendants x = (g.descendants x).filter (g.remove id).1.contains := by
  have hlisting : (g.remove id).1.listing = g.listing := rfl
  rw [descendants, hlisting, below_remove_eq, Listing.arrange_filter, descendants]
  refine List.filter_congr fun z hz => ?_
  -- what is below a node has a parent, and so it is a node itself
  have hbelow := mem_descendants.1 hz
  obtain ⟨p, hp, -⟩ := Relation.TransGen.head'_iff.1 hbelow
  have hnode : g.contains z = true := Std.ExtTreeMap.mem_keys.1 (mem_parents_of_parent? hp)
  rw [Bool.eq_iff_iff, contains_remove, and_iff_right hnode, decide_eq_true_iff]

/-! ## The count -/

theorem count_remove (g : Graph) (id : Resource) :
    (g.remove id).2 + (g.remove id).1.size = g.size := by
  set doomed := (g.below id).insert id with hdoomed
  have hsize : (g.remove id).1.size = (g.parents.keys.filter (!doomed.contains ·)).length := by
    rw [size, ← Std.ExtTreeMap.length_keys, remove, Std.ExtTreeMap.keys_filter_key]
    simp [hdoomed]
  have hcount : (g.remove id).2 = (g.parents.keys.filter (doomed.contains ·)).length := by
    -- the nodes among what goes are what goes among the nodes
    refine List.Perm.length_eq ((List.perm_ext_iff_of_nodup ?_ ?_).2 fun x => ?_)
    · exact (nodup_below g id).insert.filter _
    · exact Std.ExtTreeMap.nodup_keys.filter _
    · simp only [List.mem_filter, Std.ExtTreeMap.mem_keys, contains,
        Std.ExtTreeMap.contains_iff_mem, List.contains_iff_mem, and_comm, hdoomed]
  rw [hsize, hcount, ← List.length_eq_length_filter_add, Std.ExtTreeMap.length_keys, size]

theorem remove_remove (g : Graph) (id : Resource) :
    (g.remove id).1.remove id = ((g.remove id).1, 0) := by
  set g' := (g.remove id).1 with hg'
  have hparents : (g'.remove id).1.parents = g'.parents := by
    refine Std.ExtTreeMap.ext_getElem? fun x => ?_
    rw [getElem?_remove]
    split
    · next h =>
      -- nothing is below `id` any more, so only `id` itself could go
      rcases h with rfl | h
      · rw [hg', getElem?_remove, if_pos (.inl rfl)]
      · exact absurd (.inr (below_remove.1 h).1) (below_remove.1 h).2
    · rfl
  have hsame : (g'.remove id).1 = g' := congrArg (Graph.mk · g'.listing) hparents
  have hcount := count_remove g' id
  rw [hsame] at hcount
  exact Prod.ext hsame (by omega)

/-! ## Removing a subtree -/

/-- From `g` exactly what is below `id` was removed, `count` nodes in all. -/
structure WithoutSubtree (g : Graph) (id : Resource) (g' : Graph) (count : Nat) : Prop where
  getElem?_iff : ∀ (x : Resource) (parent : Option Resource), g'.parents[x]? = some parent ↔
    g.parents[x]? = some parent ∧ x ≠ id ∧ id ∉ g.ancestors x
  count_add_size : count + g'.size = g.size
  ancestors_eq : ∀ x, g'.contains x → g'.ancestors x = g.ancestors x
  /-- No node is left behind below one that was removed. -/
  ancestors_stay : ∀ x, g'.contains x → ∀ y ∈ g'.ancestors x,
    y ≠ id ∧ (g.contains y → g'.contains y)
  descendants_eq : ∀ x, g'.contains x → g'.descendants x = (g.descendants x).filter g'.contains
  remove_again : g'.remove id = (g', 0)

/-- A removal takes a node, known or not, and its subtree out of the graph, whatever the graph
looks like, and leaves the relatives of all that stays as they were among each other. -/
theorem withoutSubtree_remove (g : Graph) (id : Resource) :
    g.WithoutSubtree id (g.remove id).1 (g.remove id).2 where
  getElem?_iff x parent := by
    have hgoes : g.Goes id x ↔ ¬ (x ≠ id ∧ id ∉ g.ancestors x) := by
      rw [goes_iff]
      tauto
    rw [getElem?_remove]
    split <;> simp_all
  count_add_size := count_remove g id
  ancestors_eq x hx := ancestors_remove (contains_remove.1 hx).2
  ancestors_stay x hx y hy := by
    obtain ⟨-, hstays⟩ := contains_remove.1 hx
    rw [ancestors_remove hstays] at hy
    have hystays : ¬ g.Goes id y := fun hgoes =>
      hstays (hgoes.of_below (mem_ancestors.1 hy).2)
    exact ⟨fun hid => hystays (.inl hid), fun hcontains => contains_remove.2 ⟨hcontains, hystays⟩⟩
  descendants_eq x _ := descendants_remove g id x
  remove_again := remove_remove g id

/-- The cup and the lid lie on each other, and the drawer is no node. -/
example :
    let g := (((empty.insert "spoon" (some "cup")).insert "cup" (some "lid")).insert "lid"
      (some "cup")).insert "fork" (some "drawer")
    (g.remove "lid").2 = 3 ∧ (g.remove "drawer").2 = 1 ∧ (g.remove "spoon").2 = 1 ∧
      (g.remove "spoon").1.descendants "lid" = ["cup", "lid"] := by
  decide +kernel

end SceneLocks.Graph
