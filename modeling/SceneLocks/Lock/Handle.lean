import SceneLocks.Lock.Request

/-!
# Handles

What a caller gets for a granted request. A plain handle has to be given back by hand, a
scoped one gives its lock back when it goes out of scope. A handle that went stale still
looks the same; only the table knows. The number of a handle and the time of its grant go into
log records only and are not kept.
-/

namespace SceneLocks

/-- The receipt for a granted request. -/
structure Handle where
  resource : Resource
  owner : User
  mode : Mode
  tree : Bool
  visibility : Visibility
  /-- Whether the holder changed the resource. -/
  modified : Bool := false
deriving DecidableEq, Repr

namespace Handle

/-- The handle that a request is answered with. -/
def ofRequest (r : Request) : Handle :=
  { resource := r.resource, owner := r.owner, mode := r.mode, tree := r.tree,
    visibility := r.visibility }

/-- Records that the holder changed the resource. -/
def markModified (h : Handle) : Handle := { h with modified := true }

/-- Whether giving the handle back makes cached data stale. -/
def invalidates (h : Handle) : Bool := h.mode == .exclusive && h.modified

/-- The handle in one line. -/
def text (h : Handle) : String :=
  "Lock[" ++ h.mode.name ++ ":" ++ h.resource ++ (if h.tree then "+tree" else "") ++ ":" ++
    h.owner ++ "]"

end Handle

/-- A handle in somebody's hands. -/
inductive Holding where
  | plain (handle : Handle)
  /-- Given back when it goes out of scope. -/
  | scoped (handle : Handle)
deriving DecidableEq, Repr

/-- The handle held. -/
def Holding.handle : Holding → Handle
  | .plain h => h
  | .scoped h => h

/-- Changes the handle held. -/
def Holding.map (f : Handle → Handle) : Holding → Holding
  | .plain h => .plain (f h)
  | .scoped h => .scoped (f h)

end SceneLocks
