import SceneLocks.Scope
import SceneLocks.Lock.Table
import SceneLocks.Lock.Error

/-!
# Admission

Whether a request can be granted right now. A resource admits one exclusive grant or any
number of plain shared ones; a tree lock admits no other lock on a relative. The entry of
the resource itself is checked first, then its relatives in the order of the scope, and
the first conflict found is the one reported.
-/

namespace SceneLocks

namespace Table

/-- The conflict of a request with the entry of its own resource. -/
def ownConflict? (resource : Resource) (mode : Mode) (tree : Bool) (e : Entry) :
    Option Conflict :=
  match e.mode, mode with
  | .exclusive, _ => some (.heldExclusively resource (e.holder?.getD ""))
  | .shared, .exclusive => some (.heldShared resource e.owners.size)
  | .shared, .shared =>
    if tree ∨ e.tree then some (.heldShared resource e.owners.size) else none

/-- The conflict of a request with the entry of a relative. -/
def relativeConflict? (resource : Resource) (tree : Bool) (relative : Resource) (e : Entry) :
    Option Conflict :=
  if e.tree then some (.inLockedTree resource relative (e.firstOwner?.getD ""))
  else if tree then some (.treeNotFree resource relative)
  else none

/-- What stands in the way of a grant on the resource of a scope, if anything does. -/
def conflict? (t : Table) (scope : Scope) (mode : Mode) (tree : Bool) : Option Conflict :=
  (t.lookup? scope.resource |>.bind (ownConflict? scope.resource mode tree)).or
    (scope.related.findSome? fun relative =>
      t.lookup? relative |>.bind (relativeConflict? scope.resource tree relative))

/-- What stands in the way of locking a whole structure: any editor lock, any exclusive
entry. -/
def wholeConflict? (t : Table) : Option Conflict :=
  if t.hasShownLocks ∨ 0 < t.exclusiveCount then some .somethingLocked else none

end Table

end SceneLocks
