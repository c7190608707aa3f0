import Std.Data.ExtTreeMap
import Std.Data.ExtTreeSet
import SceneLocks.Lock.Entry

/-!
# The lock table

Who holds what, and what the editors show as locked. The elementary changes of this module
check nothing; the critical sections built from them do.
-/

namespace SceneLocks

/-- What one user's editor locks cover, per locked root. -/
abbrev Coverage := Std.ExtTreeMap Resource (Std.ExtTreeSet Resource)

/-- The lock table. -/
structure Table where
  entries : Std.ExtTreeMap Resource Entry
  /-- For each user with editor locks, what they cover. -/
  shown : Std.ExtTreeMap User Coverage
deriving DecidableEq

namespace Table

/-- The table without locks. -/
def empty : Table := ⟨∅, ∅⟩

instance : Inhabited Table := ⟨empty⟩

/-! ## Looking -/

def lookup? (t : Table) (resource : Resource) : Option Entry := t.entries[resource]?

/-- The number of locked resources. -/
def size (t : Table) : Nat := t.entries.size

/-- All entries, in the order of their resources. -/
def rows (t : Table) : List Entry := t.entries.values

/-- The resources an owner has a part in, in order. -/
def ownedBy (t : Table) (owner : User) : List Resource :=
  (t.entries.filter fun _ e => e.isOwnedBy owner).keys

/-- The number of exclusive entries. -/
def exclusiveCount (t : Table) : Nat :=
  (t.entries.filter fun _ e => e.mode == .exclusive).size

/-- What a user's editor lock on `root` covers, if there is one. -/
def coverage? (t : Table) (owner : User) (root : Resource) : Option (Std.ExtTreeSet Resource) :=
  t.shown[owner]?.bind (·[root]?)

/-- Everything covered by the editor locks of one user. -/
def Coverage.union (c : Coverage) : Std.ExtTreeSet Resource :=
  c.values.foldl (· ∪ ·) ∅

/-- For each user with editor locks, the resources shown as locked. -/
def shownLocks (t : Table) : Std.ExtTreeMap User (Std.ExtTreeSet Resource) :=
  t.shown.map fun _ c => Coverage.union c

/-- Whether any editor lock is held. -/
def hasShownLocks (t : Table) : Bool := !t.shown.isEmpty

/-! ## Grants -/

/-- Adds a grant, with a new entry if the resource has none. -/
def grant (t : Table) (resource : Resource) (mode : Mode) (owner : User) (tree : Bool) : Table :=
  { t with
    entries := t.entries.alter resource fun
      | none => some (.first resource mode owner tree)
      | some e => some (e.add owner) }

/-- Takes one grant back; the last grant takes its owner along, the last owner the entry. -/
def revoke (t : Table) (resource : Resource) (owner : User) : Table :=
  { t with
    entries := t.entries.alter resource fun found => found.bind fun e =>
      (e.remove owner).keepOwned }

/-- Takes every grant of an owner on a resource back. -/
def revokeAll (t : Table) (resource : Resource) (owner : User) : Table :=
  { t with
    entries := t.entries.alter resource fun found => found.bind fun e =>
      (e.removeAll owner).keepOwned }

/-- Makes an entry cover the tree around its resource, or no longer. -/
def setTree (t : Table) (resource : Resource) (tree : Bool) : Table :=
  { t with entries := t.entries.modify resource fun e => { e with tree } }

/-! ## Editor locks -/

/-- Records what a user's editor lock on `root` covers. -/
def cover (t : Table) (owner : User) (root : Resource) (covered : Std.ExtTreeSet Resource) :
    Table :=
  { t with shown := t.shown.alter owner fun c => some ((c.getD ∅).insert root covered) }

/-- A user without editor locks is not listed. -/
def keepShown (c : Coverage) : Option Coverage :=
  if c.isEmpty then none else some c

/-- Forgets a user's editor lock on `root`. -/
def uncover (t : Table) (owner : User) (root : Resource) : Table :=
  { t with shown := t.shown.alter owner fun c => c.bind fun c => keepShown (c.erase root) }

/-- Forgets all editor locks of a user. -/
def uncoverAll (t : Table) (owner : User) : Table :=
  { t with shown := t.shown.erase owner }

/-! ## Laws -/

@[simp] theorem lookup?_empty (resource : Resource) : empty.lookup? resource = none := by
  simp [lookup?, empty]

theorem lookup?_grant (t : Table) (resource other : Resource) (mode : Mode) (owner : User)
    (tree : Bool) :
    (t.grant resource mode owner tree).lookup? other =
      if resource = other then
        some ((t.lookup? other).elim (.first other mode owner tree) (·.add owner))
      else t.lookup? other := by
  simp only [lookup?, grant, Std.ExtTreeMap.getElem?_alter, Std.LawfulEqOrd.compare_eq_iff_eq]
  split
  · next h => subst h; cases t.entries[resource]? <;> rfl
  · rfl

theorem lookup?_revoke (t : Table) (resource other : Resource) (owner : User) :
    (t.revoke resource owner).lookup? other =
      if resource = other then (t.lookup? other).bind fun e => (e.remove owner).keepOwned
      else t.lookup? other := by
  simp only [lookup?, revoke, Std.ExtTreeMap.getElem?_alter, Std.LawfulEqOrd.compare_eq_iff_eq]
  split
  · next h => subst h; rfl
  · rfl

theorem lookup?_revokeAll (t : Table) (resource other : Resource) (owner : User) :
    (t.revokeAll resource owner).lookup? other =
      if resource = other then (t.lookup? other).bind fun e => (e.removeAll owner).keepOwned
      else t.lookup? other := by
  simp only [lookup?, revokeAll, Std.ExtTreeMap.getElem?_alter, Std.LawfulEqOrd.compare_eq_iff_eq]
  split
  · next h => subst h; rfl
  · rfl

theorem lookup?_setTree (t : Table) (resource other : Resource) (tree : Bool) :
    (t.setTree resource tree).lookup? other =
      if resource = other then (t.lookup? other).map fun e => { e with tree }
      else t.lookup? other := by
  simp only [lookup?, setTree, Std.ExtTreeMap.getElem?_modify, Std.LawfulEqOrd.compare_eq_iff_eq]
  split
  · next h => subst h; rfl
  · rfl

@[simp] theorem lookup?_cover (t : Table) (owner : User) (root resource : Resource)
    (covered : Std.ExtTreeSet Resource) :
    (t.cover owner root covered).lookup? resource = t.lookup? resource := rfl

@[simp] theorem lookup?_uncover (t : Table) (owner : User) (root resource : Resource) :
    (t.uncover owner root).lookup? resource = t.lookup? resource := rfl

@[simp] theorem lookup?_uncoverAll (t : Table) (owner : User) (resource : Resource) :
    (t.uncoverAll owner).lookup? resource = t.lookup? resource := rfl

@[simp] theorem coverage?_grant (t : Table) (resource : Resource) (mode : Mode) (owner : User)
    (tree : Bool) (user : User) (root : Resource) :
    (t.grant resource mode owner tree).coverage? user root = t.coverage? user root := rfl

@[simp] theorem coverage?_revoke (t : Table) (resource : Resource) (owner user : User)
    (root : Resource) : (t.revoke resource owner).coverage? user root = t.coverage? user root := rfl

@[simp] theorem coverage?_revokeAll (t : Table) (resource : Resource) (owner user : User)
    (root : Resource) :
    (t.revokeAll resource owner).coverage? user root = t.coverage? user root := rfl

@[simp] theorem coverage?_setTree (t : Table) (resource : Resource) (tree : Bool) (user : User)
    (root : Resource) : (t.setTree resource tree).coverage? user root = t.coverage? user root := rfl

theorem coverage?_cover (t : Table) (owner user : User) (root other : Resource)
    (covered : Std.ExtTreeSet Resource) :
    (t.cover owner root covered).coverage? user other =
      if owner = user ∧ root = other then some covered else t.coverage? user other := by
  simp only [coverage?, cover, Std.ExtTreeMap.getElem?_alter, Std.LawfulEqOrd.compare_eq_iff_eq]
  by_cases h : owner = user
  · subst h
    simp only [if_true, Option.bind_some, Std.ExtTreeMap.getElem?_insert,
      Std.LawfulEqOrd.compare_eq_iff_eq, true_and]
    split
    · rfl
    · cases t.shown[owner]? <;> simp
  · simp [h]

theorem bind_keepShown (coverage : Coverage) (root : Resource) :
    (keepShown coverage).bind (·[root]?) = coverage[root]? := by
  unfold keepShown
  split
  · next h => rw [Std.ExtTreeMap.isEmpty_iff.1 h]; simp
  · rfl

theorem coverage?_uncover (t : Table) (owner user : User) (root other : Resource) :
    (t.uncover owner root).coverage? user other =
      if owner = user ∧ root = other then none else t.coverage? user other := by
  simp only [coverage?, uncover, Std.ExtTreeMap.getElem?_alter, Std.LawfulEqOrd.compare_eq_iff_eq]
  by_cases h : owner = user
  · subst h
    cases t.shown[owner]? with
    | none => simp
    | some c => simp [bind_keepShown, Std.ExtTreeMap.getElem?_erase]
  · simp [h]

end Table

end SceneLocks
