import SceneLocks.Graph

/-!
# Scopes

A resource together with its relatives, as they were when it was looked up. Conflict
checks and the coverage of tree locks work on scopes, never on the graph.
-/

namespace SceneLocks

/-- A resource with its tree relations. -/
structure Scope where
  resource : Resource
  /-- Nearest first. -/
  ancestors : List Resource
  /-- As the graph lists them. -/
  descendants : List Resource
deriving DecidableEq, Inhabited

namespace Scope

/-- A resource without known relations. -/
def isolated (resource : Resource) : Scope :=
  ⟨resource, [], []⟩

/-- The ancestors, then the descendants. -/
def related (s : Scope) : List Resource :=
  s.ancestors ++ s.descendants

/-- What a tree lock covers: the resource and its relatives. -/
def coverage (s : Scope) : Std.ExtTreeSet Resource :=
  (Std.ExtTreeSet.ofList s.related).insert s.resource

end Scope

/-- Looks a resource up; only nodes of the graph have a scope. -/
def Graph.scope? (g : Graph) (resource : Resource) : Option Scope :=
  if g.contains resource then
    some ⟨resource, g.ancestors resource, g.descendants resource⟩
  else
    none

@[simp] theorem Scope.mem_coverage (s : Scope) (resource : Resource) :
    resource ∈ s.coverage ↔ resource = s.resource ∨ resource ∈ s.related := by
  simp [Scope.coverage, @eq_comm _ resource s.resource]

theorem Graph.isSome_scope? (g : Graph) (resource : Resource) :
    (g.scope? resource).isSome = g.contains resource := by
  unfold Graph.scope?
  split <;> simp_all

end SceneLocks
