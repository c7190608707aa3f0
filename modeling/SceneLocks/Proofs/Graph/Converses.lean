import SceneLocks.Proofs.Graph.Relatives

/-!
# Searches that are converse to each other

The ancestors of a node are its chain of parents, one step up after the other; the descendants
are everything whose chain leads to it. Both hold on every graph and for every id, known or not,
and so does that one search finds a node exactly if the other one finds its way back.
-/

namespace SceneLocks.Graph

variable {g : Graph}

/-- The node that some steps up from `x` lead to, if they lead anywhere. -/
def up? (g : Graph) (x : Resource) : Nat → Option Resource
  | 0 => some x
  | n + 1 => (g.up? x n).bind g.parent?

/-- One or more steps up, by their number. -/
theorem below_iff_up? {x y : Resource} : g.Below x y ↔ ∃ n, g.up? x (n + 1) = some y := by
  constructor
  · intro h
    induction h with
    | single h => exact ⟨0, h⟩
    | tail _ h ih =>
      obtain ⟨n, hn⟩ := ih
      exact ⟨n + 1, by rw [up?, hn, Option.bind_some, h]⟩
  · rintro ⟨n, hn⟩
    induction n generalizing y with
    | zero => exact .single hn
    | succ n ih =>
      obtain ⟨z, hz, hparent⟩ := Option.bind_eq_some_iff.1 hn
      exact .tail (ih hz) hparent

/-- A climb that starts `k` steps up from `x` meets one node after the other on the way. -/
theorem Climbs.getElem?_eq_up? {avoid chain : List Resource} {current : Option Resource}
    (h : g.Climbs avoid current chain) {x : Resource} {k : Nat} (hstart : g.up? x k = current)
    (n : Nat) (hn : n < chain.length) : chain[n]? = g.up? x (k + n) := by
  induction h generalizing k n with
  | root avoid => simp at hn
  | met hmet => simp at hn
  | @up avoid chain p hnew _ ih =>
    cases n with
    | zero => exact hstart.symm
    | succ n =>
      have hnext : g.up? x (k + 1) = g.parent? p := by rw [up?, hstart, Option.bind_some]
      rw [List.getElem?_cons_succ, ih hnext n (Nat.lt_of_succ_lt_succ hn), Nat.add_assoc,
        Nat.add_comm 1 n]

/-- The chain of parents of `x`, nearest first, in full. -/
structure IsChain (g : Graph) (x : Resource) (chain : List Resource) : Prop where
  /-- Following the parents comes to an end. -/
  ends : g.Climbs [x] (g.parent? x) chain
  getElem?_eq : ∀ n < chain.length, chain[n]? = g.up? x (n + 1)
  nodup : chain.Nodup
  start_notMem : x ∉ chain
  complete : ∀ y n, y ≠ x → g.up? x (n + 1) = some y → y ∈ chain

/-- All that is below `y`. Whether `y` is below itself is left open. -/
structure IsDownset (g : Graph) (y : Resource) (nodes : List Resource) : Prop where
  /-- The search through the children comes to an end; its result is listed. -/
  ends : ∃ found, Sweeps g.children [y] [] found ∧ nodes = g.listing.arrange found
  nodup : nodes.Nodup
  mem_iff : ∀ x, x ≠ y → (x ∈ nodes ↔ ∃ n, g.up? x (n + 1) = some y)

theorem isChain_ancestors (g : Graph) (x : Resource) : g.IsChain x (g.ancestors x) where
  ends := climbs_ancestors g x
  getElem?_eq n hn := by
    have hstart : g.up? x 1 = g.parent? x := rfl
    rw [(climbs_ancestors g x).getElem?_eq_up? hstart n hn, Nat.add_comm]
  nodup := (climbs_ancestors g x).nodup
  start_notMem := notMem_ancestors_self g x
  complete _ n hne hn := mem_ancestors.2 ⟨hne, below_iff_up?.2 ⟨n, hn⟩⟩

theorem isDownset_descendants (g : Graph) (y : Resource) : g.IsDownset y (g.descendants y) where
  ends := ⟨g.below y, sweeps_below g y, rfl⟩
  nodup := (perm_descendants g y).nodup_iff.2 (nodup_below g y)
  mem_iff _ _ := mem_descendants.trans below_iff_up?

/-- Both searches come to an end on every graph, with parents that are no nodes, with nodes that
are their own parents and with cycles. The ancestors of a node are its chain of parents; the
descendants are the nodes whose chain leads to it; so of two nodes one is an ancestor of the
other exactly if the other is a descendant of it. -/
theorem converse_ancestors_descendants (g : Graph) :
    (∀ x, g.IsChain x (g.ancestors x)) ∧
    (∀ y, g.IsDownset y (g.descendants y)) ∧
    ∀ x y, x ≠ y → (y ∈ g.ancestors x ↔ x ∈ g.descendants y) := by
  refine ⟨isChain_ancestors g, isDownset_descendants g, fun x y hne => ?_⟩
  rw [mem_ancestors, mem_descendants, and_iff_right hne.symm]

/-- The cup and the lid lie on each other, and the drawer is no node. -/
example :
    let g := (((empty.insert "spoon" (some "cup")).insert "cup" (some "lid")).insert "lid"
      (some "cup")).insert "fork" (some "drawer")
    g.ancestors "spoon" = ["cup", "lid"] ∧ g.descendants "lid" = ["cup", "lid", "spoon"] ∧
      g.descendants "drawer" = ["fork"] := by
  decide +kernel

end SceneLocks.Graph
