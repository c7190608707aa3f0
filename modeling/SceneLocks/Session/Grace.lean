import Std.Data.ExtTreeMap
import SceneLocks.Resource
import SceneLocks.Time.Duration

/-!
# Grace periods

Who is to lose their locks, and when. Every disconnect starts a timer with a generation of
its own; a timer that fires acts only if its generation is still the registered one, and
takes its record along. So a cancelled or replaced timer may fire late and finds nothing to
do.
-/

namespace SceneLocks

open Time

/-- A reclamation that has not happened yet. -/
structure Pending where
  generation : Nat
  deadline : Instant
deriving DecidableEq, Repr, Inhabited

/-- A delayed reclamation that was started. -/
structure GraceTimer where
  user : User
  generation : Nat
deriving DecidableEq, Repr, Inhabited

/-- The grace periods of disconnected users. -/
structure Grace where
  /-- How long a disconnected user keeps the locks. -/
  timeout : Duration
  /-- The generation given out last. -/
  generation : Nat := 0
  pending : Std.ExtTreeMap User Pending := ∅
deriving DecidableEq, Inhabited

namespace Grace

/-- Starts the grace period of a user, in place of one that is pending. A deadline out of
the clock's range breaks off; the generation is used up all the same. -/
def onDisconnect (g : Grace) (now : Instant) (user : User) : Grace × Option GraceTimer :=
  let generation := g.generation + 1
  match now.after? g.timeout with
  | none => ({ g with generation }, none)
  | some deadline =>
    ({ g with generation, pending := g.pending.insert user ⟨generation, deadline⟩ },
      some ⟨user, generation⟩)

/-- Ends the grace period of a user who came back; also whether there was one. -/
def onConnect (g : Grace) (user : User) : Grace × Bool :=
  ({ g with pending := g.pending.erase user }, g.pending.contains user)

/-- Claims the reclamation of a timer that fires: the state without it, unless the timer is
out of date. -/
def claim? (g : Grace) (t : GraceTimer) : Option Grace :=
  if g.pending[t.user]?.any (·.generation = t.generation) then
    some { g with pending := g.pending.erase t.user }
  else none

/-- Ends all grace periods; also how many there were. -/
def shutdown (g : Grace) : Grace × Nat := ({ g with pending := ∅ }, g.pending.size)

theorem isSome_claim? (g : Grace) (t : GraceTimer) :
    (g.claim? t).isSome ↔ ∃ p, g.pending[t.user]? = some p ∧ p.generation = t.generation := by
  unfold claim?
  cases g.pending[t.user]? <;> simp

@[simp] theorem claim?_shutdown (g : Grace) (t : GraceTimer) : g.shutdown.1.claim? t = none := by
  simp [shutdown, claim?]

/-- Who is to lose their locks and when, by user. -/
def deadlines (g : Grace) : List (User × Instant) :=
  g.pending.toList.map fun (user, p) => (user, p.deadline)

end Grace

end SceneLocks
