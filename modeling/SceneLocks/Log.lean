import SceneLocks.Lock.Error

/-!
# The log

Warnings and errors that no caller gets to see otherwise. A record is its fields and a
message made from them.
-/

namespace SceneLocks

/-- A warning or an error. -/
inductive Record where
  /-- The last attempt of a request failed. -/
  | lockingFailed (resource : Resource) (owner : User) (attempts elapsedMs : Nat)
      (error : LockError)
  /-- A request was granted after more than a quarter of its retries. -/
  | longWait (resource : Resource) (owner : User) (attempts elapsedMs : Nat)
  | alreadyHeld (resource : Resource) (user : User)
  /-- Locks of a user were taken away. -/
  | discarded (user : User) (released announced : Nat)
  /-- A plain handle was lost; its lock stays. -/
  | handleDropped (resource : Resource) (owner : User)
  /-- A critical section broke off and the table was put back. -/
  | rolledBack (reason : String) (entries : Nat)
  /-- A reading section broke off earlier. -/
  | recovered
  | reclaimFailed (user : User) (error : LockError)
  | broadcasterFailed
deriving DecidableEq, Repr

/-- The value of a field. -/
inductive Record.Value where
  | text (s : String)
  | count (n : Nat)
deriving DecidableEq, Repr

namespace Record

def message : Record → String
  | .lockingFailed .. => "Locking failed"
  | .longWait .. => "Lock acquired after a long wait"
  | .alreadyHeld .. => "User attempted to re-acquire a held lock; treating as success"
  | .discarded user released _ =>
    toString released ++ " lock(s) of user " ++ user ++ " were just discarded"
  | .handleDropped .. => "Lock handle dropped without release; lock stays held"
  | .rolledBack .. => "Lock table critical section panicked; changes rolled back"
  | .recovered => "Lock table guard poisoned by a panicking read; recovering"
  | .reclaimFailed .. => "Could not release locks of disconnected user"
  | .broadcasterFailed => "Notification broadcaster did not stop cleanly"

/-- The fields besides the message. -/
def fields : Record → List (String × Value)
  | .lockingFailed resource owner attempts elapsed error =>
    [("resource", .text resource), ("owner", .text owner), ("attempts", .count attempts),
      ("elapsed_ms", .count elapsed), ("error", .text error.message)]
  | .longWait resource owner attempts elapsed =>
    [("resource", .text resource), ("owner", .text owner), ("attempts", .count attempts),
      ("elapsed_ms", .count elapsed)]
  | .alreadyHeld resource user => [("resource", .text resource), ("user", .text user)]
  | .discarded user released announced =>
    [("user", .text user), ("released", .count released), ("announced", .count announced)]
  | .handleDropped resource owner => [("resource", .text resource), ("owner", .text owner)]
  | .rolledBack reason entries => [("reason", .text reason), ("entries", .count entries)]
  | .recovered => []
  | .reclaimFailed user error => [("user", .text user), ("error", .text error.message)]
  | .broadcasterFailed => []

end Record

end SceneLocks
