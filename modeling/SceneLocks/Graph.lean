import Std.Data.ExtTreeMap
import Std.Data.ExtTreeSet
import SceneLocks.Resource

/-!
# The scene graph

Who sits below whom, as a map from each node to its parent. A parent need not be a node
itself, and moving nodes around can close a cycle; both searches stop all the same.
`ancestors` follows the chain of parents, `descendants` searches breadth first through
the children. A graph may list what it finds there in the order of the search, or sorted.
-/

namespace SceneLocks

/-- How a graph lists what is below a node. -/
inductive Listing where
  /-- As the search finds it. -/
  | found
  /-- By id. -/
  | sorted
deriving DecidableEq, Repr, Inhabited

/-- Puts nodes in the order of a listing. -/
def Listing.arrange : Listing → List Resource → List Resource
  | .found, nodes => nodes
  | .sorted, nodes => (Std.ExtTreeSet.ofList nodes).toList

/-- A map from each node to its parent; roots have none. -/
structure Graph where
  parents : Std.ExtTreeMap Resource (Option Resource)
  listing : Listing := .found
deriving DecidableEq, Inhabited

namespace Graph

/-! ## Nodes -/

/-- The graph without nodes. -/
def empty : Graph := { parents := ∅ }

/-- Adds a node, or moves it if it is there already. -/
def insert (g : Graph) (id : Resource) (parent : Option Resource) : Graph :=
  { g with parents := g.parents.insert id parent }

/-- The graph of the two whole-structure roots. -/
def withRoots : Graph :=
  (empty.insert .scene none).insert .project none

/-- Whether the id names a node. -/
def contains (g : Graph) (id : Resource) : Bool :=
  g.parents.contains id

/-- The number of nodes. -/
def size (g : Graph) : Nat :=
  g.parents.size

/-- The parent of a node, if it is a node and has one. -/
def parent? (g : Graph) (id : Resource) : Option Resource :=
  g.parents[id]?.join

@[simp] theorem contains_empty (id : Resource) : empty.contains id = false := by
  simp [contains, empty]

@[simp] theorem contains_insert (g : Graph) (id other : Resource) (parent : Option Resource) :
    (g.insert id parent).contains other ↔ id = other ∨ g.contains other := by
  simp [contains, insert]

theorem parent?_insert (g : Graph) (id other : Resource) (parent : Option Resource) :
    (g.insert id parent).parent? other = if id = other then parent else g.parent? other := by
  simp only [parent?, insert, Std.ExtTreeMap.getElem?_insert, Std.LawfulEqOrd.compare_eq_iff_eq]
  split <;> rfl

/-! ## Relatives -/

/-- The chain of parents from `current` on, up to the first one in `avoid` or met before. -/
def climb (g : Graph) : Nat → List Resource → Option Resource → List Resource
  | 0, _, _ => []
  | _ + 1, _, none => []
  | n + 1, avoid, some p =>
    if p ∈ avoid then [] else p :: g.climb n (p :: avoid) (g.parent? p)

/-- The parents up to the root, nearest first, without repetition and without `id`. -/
def ancestors (g : Graph) (id : Resource) : List Resource :=
  g.climb (g.size + 1) [id] (g.parent? id)

/-- The nodes right below `id`, in order. -/
def children (g : Graph) (id : Resource) : List Resource :=
  g.parents.toList.filterMap fun (child, parent) =>
    if parent = some id then some child else none

/-- The nodes in `found`, then all else below a node in `queue`, searched breadth first through
the children that each node has. -/
def sweep (kids : Resource → List Resource) :
    Nat → List Resource → List Resource → List Resource
  | 0, _, found => found
  | _ + 1, [], found => found
  | n + 1, current :: queue, found =>
    let fresh := (kids current).filter (· ∉ found)
    sweep kids n (queue ++ fresh) (found ++ fresh)

/-- All nodes below `id`, each once, as they are found if children are taken in order. -/
def below (g : Graph) (id : Resource) : List Resource :=
  sweep g.children (g.size + 1) [id] []

/-- All nodes below `id`, as the graph lists them. -/
def descendants (g : Graph) (id : Resource) : List Resource :=
  g.listing.arrange (g.below id)

/-! ## Removal -/

/-- Removes a node with everything below it; also the number of nodes removed. -/
def remove (g : Graph) (id : Resource) : Graph × Nat :=
  let doomed := (g.below id).insert id
  ({ g with parents := g.parents.filter fun node _ => node ∉ doomed },
    (doomed.filter g.contains).length)

end Graph

end SceneLocks
