import SceneLocks.Locks

/-!
# Acquisitions

A request on its way to being granted, as a value that outlives the waits between its
attempts. The scope is looked up once, before the first attempt. Only contention is tried
again.
-/

namespace SceneLocks

open Time

/-- A request between two attempts. -/
structure Acquisition where
  request : Request
  scope : Scope
  /-- Whether a whole structure is asked for. -/
  whole : Bool
  policy : RetryPolicy
  /-- The tick of the start. -/
  started : Nat
  /-- The attempts made. -/
  made : Nat
  /-- The attempts left. -/
  left : Nat
deriving DecidableEq

/-- What an attempt leads to. -/
inductive Progress where
  | granted (handle : Handle)
  | failed (error : LockError)
  /-- Refused for now, and to be tried again after the wait of its policy. -/
  | waiting (next : Acquisition) (error : LockError)
deriving DecidableEq

namespace Locks

/-- How a request is retried: as it says, or else as the settings say. -/
def policyFor (l : Locks) (r : Request) : RetryPolicy :=
  { l.settings.policy with
    retries := r.retries.getD l.settings.policy.retries
    wait := r.wait.getD l.settings.policy.wait }

/-- Starts on a request, unless the graph does not know its resource. -/
def begin (l : Locks) (g : Graph) (now : Nat) (whole : Bool) (r : Request) :
    Except LockError Acquisition := do
  let scope ← resolve g r.resource
  let policy := l.policyFor r
  .ok { request := r, scope, whole, policy, started := now, made := 0, left := policy.attempts }

/-- Makes the next attempt. -/
def attempt (l : Locks) (now : Nat) (a : Acquisition) : Locks × Progress :=
  let r := a.request
  let made := a.made + 1
  let elapsed := now - a.started
  match l.tryGrant a.whole a.scope r with
  | (l, .ok h) =>
    (if a.policy.waitedLong made then l.record (.longWait r.resource r.owner made elapsed) else l,
      .granted h)
  | (l, .error e) =>
    if !e.isContention then (l, .failed e)
    else if a.left ≤ 1 then
      (l.record (.lockingFailed r.resource r.owner made elapsed e), .failed e)
    else
      (l, .waiting { a with made, left := a.left - 1 } e)

/-- The request of a whole structure. -/
def wholeRequest (root : Resource) (owner : User) : Request :=
  { resource := root, owner, tree := true }

/-- Makes the only attempt on a request. -/
def acquireOnce (l : Locks) (g : Graph) (now : Nat) (whole : Bool) (r : Request) :
    Locks × Except LockError Handle :=
  match l.begin g now whole r.once with
  | .error e => (l, .error e)
  | .ok a =>
    match l.attempt now a with
    | (l, .granted h) => (l, .ok h)
    | (l, .failed e) | (l, .waiting _ e) => (l, .error e)

/-- Locks an object, or its tree, for an editor. Who holds it already just gets told so. -/
def lock (l : Locks) (g : Graph) (now : Nat) (resource : Resource) (owner : User) (tree : Bool) :
    Locks × Except LockError Unit :=
  let (l, held) := l.read (alreadyHeld · resource owner tree)
  if held then (l.record (.alreadyHeld resource owner), .ok ())
  else
    let (l, result) := l.acquireOnce g now false (editorRequest resource owner tree)
    (l, result.map fun _ => ())

end Locks

end SceneLocks
