import SceneLocks.Lock.Admission
import SceneLocks.Lock.Event

/-!
# Critical sections

What an operation does to the table, as a list of elementary edits worked out beforehand
from the table as it is. A section is performed as a whole or, when it breaks off, undone
as a whole; only the events it announced up to then remain.
-/

namespace SceneLocks

/-- An elementary step of a critical section. -/
inductive Edit where
  | grant (resource : Resource) (mode : Mode) (owner : User) (tree : Bool)
  | revoke (resource : Resource) (owner : User)
  | revokeAll (resource : Resource) (owner : User)
  | setTree (resource : Resource) (tree : Bool)
  | cover (owner : User) (root : Resource) (covered : Std.ExtTreeSet Resource)
  | uncover (owner : User) (root : Resource)
  | uncoverAll (owner : User)
  /-- Tells every connection. -/
  | announce (event : Event)
deriving DecidableEq

namespace Edit

/-- The table after an edit. -/
def apply (t : Table) : Edit → Table
  | .grant resource mode owner tree => t.grant resource mode owner tree
  | .revoke resource owner => t.revoke resource owner
  | .revokeAll resource owner => t.revokeAll resource owner
  | .setTree resource tree => t.setTree resource tree
  | .cover owner root covered => t.cover owner root covered
  | .uncover owner root => t.uncover owner root
  | .uncoverAll owner => t.uncoverAll owner
  | .announce _ => t

/-- The event that an edit announces. -/
def event? : Edit → Option Event
  | .announce event => some event
  | _ => none

end Edit

/-- The edits of an operation, in order. -/
abbrev Section := List Edit

namespace Section

/-- The table after all edits. -/
def result (s : Section) (t : Table) : Table := s.foldl Edit.apply t

/-- The events announced, in order. -/
def events (s : Section) : List Event := s.filterMap Edit.event?

/-- One announcement per resource, in order. -/
def announceAll (event : Resource → Event) (resources : Std.ExtTreeSet Resource) : Section :=
  resources.toList.map fun resource => .announce (event resource)

@[simp] theorem result_nil (t : Table) : Section.result [] t = t := rfl

@[simp] theorem result_cons (edit : Edit) (s : Section) (t : Table) :
    Section.result (edit :: s) t = s.result (edit.apply t) := rfl

@[simp] theorem result_append (s u : Section) (t : Table) :
    Section.result (s ++ u) t = u.result (s.result t) := by
  simp [result]

@[simp] theorem result_announceAll (event : Resource → Event) (resources : Std.ExtTreeSet Resource)
    (t : Table) : (announceAll event resources).result t = t := by
  unfold announceAll
  induction resources.toList with
  | nil => rfl
  | cons _ _ ih => exact ih

@[simp] theorem events_nil : Section.events [] = [] := rfl

@[simp] theorem events_append (s u : Section) :
    Section.events (s ++ u) = s.events ++ u.events := by
  simp [events]

@[simp] theorem events_announceAll (event : Resource → Event)
    (resources : Std.ExtTreeSet Resource) :
    (announceAll event resources).events = resources.toList.map event := by
  unfold announceAll
  induction resources.toList with
  | nil => rfl
  | cons r _ ih => exact congrArg (event r :: ·) ih

end Section

namespace Table

/-! ## Grants -/

/-- What the editors show for a lock: the resource, or all that a tree lock covers. -/
def coverageOf (scope : Scope) (resource : Resource) (tree : Bool) : Std.ExtTreeSet Resource :=
  if tree then scope.coverage else {resource}

/-- Grants a request if nothing stands in its way. A request for a `whole` structure is also
refused while anything is shown as locked or held exclusively. -/
def granting (t : Table) (whole : Bool) (scope : Scope) (r : Request) :
    Except LockError Section :=
  match (if whole then t.wholeConflict? else none).or (t.conflict? scope r.mode r.tree) with
  | some conflict => .error (conflict.refusal r.resource)
  | none =>
    let covered := coverageOf scope r.resource r.tree
    .ok <| .grant r.resource r.mode r.owner r.tree ::
      match r.visibility with
      | .internal => []
      | .ui =>
        Section.announceAll (.locked · r.owner) covered ++ [.cover r.owner r.resource covered]

/-! ## Releases -/

/-- Why somebody cannot give a resource back: another owner holds it exclusively, or it is
not theirs. -/
def strangerError (resource : Resource) (owner : User) (e : Entry) : LockError :=
  match e.holder? with
  | some holder => .invalidOwner resource owner holder
  | none => .notLocked resource owner

/-- Takes one grant of an owner back. With the last one, everything that the owner's editor
lock on the resource covers is announced as free. -/
def releasing (t : Table) (resource : Resource) (owner : User) : Except LockError Section :=
  match t.lookup? resource with
  | none => .error (.notLocked resource owner)
  | some e =>
    if e.isOwnedBy owner then
      .ok <| .revoke resource owner ::
        if e.grants owner ≤ 1 then
          .uncover owner resource ::
            Section.announceAll (.unlocked · owner) ((t.coverage? owner resource).getD ∅)
        else []
    else
      .error (strangerError resource owner e)

/-- Everything shown as locked by a user. -/
def shownBy (t : Table) (owner : User) : Std.ExtTreeSet Resource :=
  (t.shown[owner]?.map Coverage.union).getD ∅

/-- Takes all grants of an owner back, and announces each resource shown for them once. -/
def reclaiming (t : Table) (owner : User) : Section :=
  (t.ownedBy owner).map (.revokeAll · owner) ++
    .uncoverAll owner :: Section.announceAll (.unlocked · owner) (t.shownBy owner)

/-! ## Updates -/

/-- Why somebody cannot update a lock: another owner holds it exclusively, or it is not an
exclusive lock of theirs. -/
def updateError (resource : Resource) (owner : User) (e : Entry) : LockError :=
  match e.holder? with
  | some holder =>
    if holder ≠ owner then .invalidOwner resource owner holder else .notLocked resource owner
  | none => .notLocked resource owner

/-- The first relative that is locked. -/
def lockedRelative? (t : Table) (scope : Scope) : Option Resource :=
  scope.related.find? fun relative => (t.lookup? relative).isSome

/-- Extends an exclusive lock to the tree around it. The relatives that the editors did not
show yet are announced as locked. -/
def extending (t : Table) (scope : Scope) (owner : User) (e : Entry) : Except LockError Section :=
  let resource := scope.resource
  if e.tree then .error (.nothingToUpdate resource)
  else
    match t.lockedRelative? scope with
    | some blocking => .error ((Conflict.treeNotFree resource blocking).refusal resource)
    | none =>
      .ok <| .setTree resource true ::
        match t.coverage? owner resource with
        | none => []
        | some previous =>
          Section.announceAll (.locked · owner) (scope.coverage \ previous) ++
            [.cover owner resource scope.coverage]

/-- Shrinks an exclusive tree lock to its object. What else it covered for the editors is
announced as free. -/
def shrinking (t : Table) (scope : Scope) (owner : User) (e : Entry) : Except LockError Section :=
  let resource := scope.resource
  if e.tree then
    .ok <| .setTree resource false ::
      match t.coverage? owner resource with
      | none => []
      | some previous =>
        Section.announceAll (.unlocked · owner) (previous.erase resource) ++
          [.cover owner resource {resource}]
  else .error (.nothingToUpdate resource)

/-- Changes what an exclusive lock covers. -/
def updating (t : Table) (scope : Scope) (owner : User) (kind : UpdateKind) :
    Except LockError Section :=
  match t.lookup? scope.resource with
  | none => .error (.notLocked scope.resource owner)
  | some e =>
    if e.mode = .exclusive ∧ e.isOwnedBy owner then
      match kind with
      | .tree => t.extending scope owner e
      | .object => t.shrinking scope owner e
    else
      .error (updateError scope.resource owner e)

end Table

end SceneLocks
