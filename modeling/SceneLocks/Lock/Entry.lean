import Std.Data.ExtTreeMap
import SceneLocks.Lock.Request

/-!
# Lock entries

One row of the lock table: who holds a resource, in which mode, and how often each owner
was granted it. The time of its first grant is not kept, since no decision looks at it.
-/

namespace SceneLocks

/-- A locked resource and its owners. -/
structure Entry where
  resource : Resource
  mode : Mode
  /-- The number of grants of each owner. It stands for a word of 32 bits: what is said of tables
  is meant for counts below `2 ^ 32`. -/
  owners : Std.ExtTreeMap User Nat
  /-- Whether conflict checks cover the ancestors and descendants as well. -/
  tree : Bool
deriving DecidableEq

namespace Entry

/-- The entry made by the first grant on a resource. -/
def first (resource : Resource) (mode : Mode) (owner : User) (tree : Bool) : Entry :=
  ⟨resource, mode, (∅ : Std.ExtTreeMap User Nat).insert owner 1, tree⟩

def isOwnedBy (e : Entry) (owner : User) : Bool := e.owners.contains owner

/-- How often an owner was granted the entry. -/
def grants (e : Entry) (owner : User) : Nat := e.owners.getD owner 0

/-! ## Grants -/

/-- One more grant of an owner. -/
def add (e : Entry) (owner : User) : Entry :=
  { e with owners := e.owners.alter owner fun n => some (n.getD 0 + 1) }

/-- One grant less; the last one takes its owner along. -/
def remove (e : Entry) (owner : User) : Entry :=
  { e with
    owners := e.owners.alter owner fun grants => grants.bind fun n =>
      if n ≤ 1 then none else some (n - 1) }

/-- All grants of an owner taken away. -/
def removeAll (e : Entry) (owner : User) : Entry := { e with owners := e.owners.erase owner }

/-- An entry without owners is no entry. -/
def keepOwned (e : Entry) : Option Entry := if e.owners.isEmpty then none else some e

/-! ## Laws -/

@[simp] theorem grants_first (resource : Resource) (mode : Mode) (owner : User) (tree : Bool)
    (user : User) :
    (first resource mode owner tree).grants user = if owner = user then 1 else 0 := by
  simp [grants, first, Std.ExtTreeMap.getD_insert]

@[simp] theorem isOwnedBy_first (resource : Resource) (mode : Mode) (owner : User) (tree : Bool)
    (user : User) : (first resource mode owner tree).isOwnedBy user ↔ owner = user := by
  simp [isOwnedBy, first]

theorem grants_add (e : Entry) (owner user : User) :
    (e.add owner).grants user = if owner = user then e.grants user + 1 else e.grants user := by
  simp only [grants, add, Std.ExtTreeMap.getD_eq_getD_getElem?, Std.ExtTreeMap.getElem?_alter]
  split <;> simp_all

theorem grants_remove (e : Entry) (owner user : User) :
    (e.remove owner).grants user = if owner = user then e.grants user - 1 else e.grants user := by
  simp only [grants, remove, Std.ExtTreeMap.getD_eq_getD_getElem?, Std.ExtTreeMap.getElem?_alter]
  by_cases h : owner = user
  · subst h
    cases e.owners[owner]? with
    | none => simp
    | some n => by_cases hn : n ≤ 1 <;> simp [hn, Nat.sub_eq_zero_of_le]
  · simp [h]

theorem grants_removeAll (e : Entry) (owner user : User) :
    (e.removeAll owner).grants user = if owner = user then 0 else e.grants user := by
  simp [grants, removeAll, Std.ExtTreeMap.getD_erase]

/-! ## Owners -/

/-- The first owner in name order. -/
def firstOwner? (e : Entry) : Option User := e.owners.minKey?

/-- The owner of an exclusive entry. -/
def holder? (e : Entry) : Option User :=
  match e.mode with
  | .exclusive => e.firstOwner?
  | .shared => none

end Entry

end SceneLocks
