import SceneLocks.Lock.Request

/-!
# Lock errors

Why a lock operation failed, and how that is said. `Conflict` names what stands in the way
of a request.
-/

namespace SceneLocks

/-- What stands in the way of a grant. -/
inductive Conflict where
  | heldExclusively (resource : Resource) (holder : User)
  | heldShared (resource : Resource) (owners : Nat)
  /-- A relative is locked as a tree. -/
  | inLockedTree (resource root : Resource) (holder : User)
  /-- A tree was asked for, and a relative is locked. -/
  | treeNotFree (resource blocking : Resource)
  /-- The whole structure was asked for, and something is locked. -/
  | somethingLocked
deriving DecidableEq, Repr

def Conflict.message : Conflict → String
  | .heldExclusively resource holder =>
    "resource " ++ resource ++ " is held exclusively by user " ++ holder
  | .heldShared resource owners =>
    "resource " ++ resource ++ " is shared by " ++ toString owners ++ " owner(s)"
  | .inLockedTree resource root holder =>
    "resource " ++ resource ++ " is part of a tree locked at " ++ root ++ " by user " ++ holder
  | .treeNotFree resource blocking =>
    "part of the tree of " ++ resource ++ " is locked (" ++ blocking ++ ")"
  | .somethingLocked => "there are locked objects"

/-- Why a lock operation failed. -/
inductive LockError where
  /-- The resource is held in a way that does not admit the request. -/
  | cannotLock (resource : Resource) (reason : String)
  /-- The graph does not know the resource. -/
  | unknownResource (resource : Resource)
  /-- Only an owner can give a lock back or change it. -/
  | notLocked (resource : Resource) (owner : User)
  /-- Somebody else holds the resource exclusively. -/
  | invalidOwner (resource : Resource) (owner holder : User)
  /-- The lock covers already what the update asks for. -/
  | nothingToUpdate (resource : Resource)
  /-- A critical section broke off. -/
  | broken (reason : String)
deriving DecidableEq, Repr

namespace LockError

def code : LockError → String
  | .cannotLock .. => "E300"
  | .unknownResource .. => "E301"
  | .notLocked .. => "E302"
  | .invalidOwner .. => "E303"
  | .nothingToUpdate .. => "E304"
  | .broken .. => "E305"

def message : LockError → String
  | .cannotLock resource reason => "Cannot lock '" ++ resource ++ "': " ++ reason
  | .unknownResource resource => "Unknown resource '" ++ resource ++ "'"
  | .notLocked resource owner =>
    "Resource '" ++ resource ++ "' is not locked by '" ++ owner ++ "'"
  | .invalidOwner resource owner holder =>
    "Resource '" ++ resource ++ "' is held exclusively by '" ++ holder ++ "', not '" ++ owner ++ "'"
  | .nothingToUpdate resource => "Nothing to update on lock of '" ++ resource ++ "'"
  | .broken reason => "Internal lock error: " ++ reason

/-- Whether trying again later may succeed. -/
def isContention : LockError → Bool
  | .cannotLock .. => true
  | _ => false

end LockError

/-- The refusal of a request for `resource`. -/
def Conflict.refusal (c : Conflict) (resource : Resource) : LockError :=
  .cannotLock resource c.message

end SceneLocks
