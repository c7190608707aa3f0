import Mathlib.Data.List.Induction
import SceneLocks.Proofs.Graph.Relatives

/-!
# Cycles

A node is below itself when the way up from it leads back to it; that alone makes it one of its
own descendants. A graph without cycles gets one only by a node that is moved below itself or
below one of its descendants.
-/

namespace SceneLocks.Graph

variable {g g' : Graph} {id x : Resource} {parent : Option Resource}

/-- The way up to a node does not depend on the parent of that node. -/
theorem leadsTo_congr (hsame : ∀ z, z ≠ id → g'.parent? z = g.parent? z)
    (h : x = id ∨ g.Below x id) : x = id ∨ g'.Below x id := by
  rcases h with rfl | h
  · exact .inl rfl
  · induction h using Relation.TransGen.head_induction_on with
    | @single z hstep =>
      rcases eq_or_ne z id with rfl | hne
      · exact .inl rfl
      · exact .inr (.single ((hsame z hne).trans hstep))
    | @head z y hstep _ ih =>
      rcases eq_or_ne z id with rfl | hne
      · exact .inl rfl
      · have hstep' : g'.parent? z = some y := (hsame z hne).trans hstep
        rcases ih with rfl | ih
        · exact .inr (.single hstep')
        · exact .inr (.head hstep' ih)

theorem parent?_insert_of_ne (hne : x ≠ id) : (g.insert id parent).parent? x = g.parent? x := by
  rw [parent?_insert, if_neg hne.symm]

/-- A node gets below itself when it is moved below itself or below one of its descendants. -/
theorem below_insert_self :
    (g.insert id parent).Below id id ↔ ∃ p, parent = some p ∧ (p = id ∨ p ∈ g.descendants id) := by
  have hmoved : (g.insert id parent).parent? id = parent := by rw [parent?_insert, if_pos rfl]
  simp only [mem_descendants]
  constructor
  · intro h
    obtain ⟨p, hp, hback⟩ := Relation.TransGen.head'_iff.1 h
    rw [hmoved] at hp
    have hback' : p = id ∨ (g.insert id parent).Below p id :=
      (Relation.reflTransGen_iff_eq_or_transGen.1 hback).imp_left Eq.symm
    exact ⟨p, hp, leadsTo_congr (fun z hne => (parent?_insert_of_ne hne).symm) hback'⟩
  · rintro ⟨p, rfl, hback⟩
    rcases leadsTo_congr (fun z hne => parent?_insert_of_ne (g := g) hne) hback with rfl | hback
    · exact .single hmoved
    · exact .head hmoved hback

/-! ## Graphs without cycles -/

/-- No node is below itself. -/
def Acyclic (g : Graph) : Prop := ∀ x, ¬ g.Below x x

theorem acyclic_empty : empty.Acyclic := by
  intro x h
  obtain ⟨p, hp, -⟩ := Relation.TransGen.head'_iff.1 h
  simp [parent?, empty] at hp

/-- A cycle that a change of one parent brings about leads through that node. -/
theorem Acyclic.of_change (hacyclic : g.Acyclic)
    (hsame : ∀ z, z ≠ id → g'.parent? z = g.parent? z) (hid : ¬ g'.Below id id) : g'.Acyclic := by
  intro x hx
  -- the cycle meets `id` nowhere, so it was there before
  have hbefore : ∀ a, g'.Below a x → g'.Below x a → g.Below a x := by
    intro a hax
    induction hax using Relation.TransGen.head_induction_on with
    | @single a hstep =>
      intro hxa
      have hne : a ≠ id := by
        rintro rfl
        exact hid (.head hstep hxa)
      exact .single ((hsame a hne).symm.trans hstep)
    | @head a c hstep hcx ih =>
      intro hxa
      have hne : a ≠ id := by
        rintro rfl
        exact hid (.head hstep (hcx.trans hxa))
      exact .head ((hsame a hne).symm.trans hstep) (ih (hxa.tail hstep))
  exact hacyclic x (hbefore x hx hx)

/-- A graph stays without cycles unless a node is moved below itself or one of its descendants. -/
theorem Acyclic.insert_iff (hacyclic : g.Acyclic) : (g.insert id parent).Acyclic ↔
    ∀ p, parent = some p → p ≠ id ∧ p ∉ g.descendants id := by
  constructor
  · intro h p hp
    exact not_or.1 fun hmove => h id (below_insert_self.2 ⟨p, hp, hmove⟩)
  · intro h
    refine hacyclic.of_change (fun z hne => parent?_insert_of_ne hne) fun hid => ?_
    obtain ⟨p, hp, hmove⟩ := below_insert_self.1 hid
    exact not_or.2 (h p hp) hmove

/-! ## Building a graph -/

/-- The graph that nodes make which are added or moved one after the other. -/
def build (moves : List (Resource × Option Resource)) : Graph :=
  moves.foldl (fun g (id, parent) => g.insert id parent) empty

/-- No node is moved below itself or below one of its descendants. -/
def Orderly (moves : List (Resource × Option Resource)) : Prop :=
  ∀ before id p after, moves = before ++ (id, some p) :: after →
    p ≠ id ∧ p ∉ (build before).descendants id

theorem acyclic_build {moves : List (Resource × Option Resource)} (h : Orderly moves) :
    (build moves).Acyclic := by
  induction moves using List.reverseRecOn with
  | nil => exact acyclic_empty
  | append_singleton moves move ih =>
    obtain ⟨last, parent⟩ := move
    have hbefore : (build moves).Acyclic := by
      refine ih fun before id p after hmoves => h before id p (after ++ [(last, parent)]) ?_
      rw [hmoves, List.append_assoc, List.cons_append]
    have hlast : build (moves ++ [(last, parent)]) = (build moves).insert last parent := by
      simp [build]
    rw [hlast, hbefore.insert_iff]
    rintro p rfl
    exact h moves last p [] rfl

end SceneLocks.Graph
