import Mathlib.Tactic.ByContra
import SceneLocks.Lock.Section

/-!
# Entries and their conflicts

What each operation on an entry does to its owners, and what it takes for an entry to stand
in nobody's way.
-/

namespace SceneLocks

namespace Entry

variable {e e' : Entry} {owner user : User}

/-! ## Owners -/

theorem isOwnedBy_iff : e.isOwnedBy owner ↔ ∃ n : Nat, e.owners[owner]? = some n := by
  unfold isOwnedBy
  rw [Std.ExtTreeMap.contains_eq_isSome_getElem?, Option.isSome_iff_exists]

theorem grants_eq_getD (e : Entry) (owner : User) : e.grants owner = e.owners[owner]?.getD 0 :=
  Std.ExtTreeMap.getD_eq_getD_getElem?

theorem getElem?_owners_first (resource : Resource) (mode : Mode) (owner user : User)
    (tree : Bool) :
    (first resource mode owner tree).owners[user]? = if owner = user then some 1 else none := by
  simp [first, Std.ExtTreeMap.getElem?_insert]

theorem getElem?_owners_add (e : Entry) (owner user : User) :
    (e.add owner).owners[user]? =
      if owner = user then some (e.grants user + 1) else e.owners[user]? := by
  simp only [add, Std.ExtTreeMap.getElem?_alter, Std.LawfulEqOrd.compare_eq_iff_eq]
  split
  · next h => rw [grants_eq_getD, h]
  · rfl

theorem getElem?_owners_remove (e : Entry) (owner user : User) :
    (e.remove owner).owners[user]? =
      if owner = user then e.owners[user]?.bind fun n => if n ≤ 1 then none else some (n - 1)
      else e.owners[user]? := by
  simp only [remove, Std.ExtTreeMap.getElem?_alter, Std.LawfulEqOrd.compare_eq_iff_eq]
  split
  · next h => rw [h]
  · rfl

theorem getElem?_owners_removeAll (e : Entry) (owner user : User) :
    (e.removeAll owner).owners[user]? = if owner = user then none else e.owners[user]? := by
  simp [removeAll, Std.ExtTreeMap.getElem?_erase]

theorem isOwnedBy_add : (e.add owner).isOwnedBy user ↔ owner = user ∨ e.isOwnedBy user := by
  rw [isOwnedBy_iff, getElem?_owners_add, isOwnedBy_iff]
  split
  · next h => simp [h]
  · next h => simp [h]

/-- An owner with more than one grant remains one. -/
theorem isOwnedBy_remove :
    (e.remove owner).isOwnedBy user ↔ e.isOwnedBy user ∧ (owner = user → 1 < e.grants user) := by
  rw [isOwnedBy_iff, getElem?_owners_remove, isOwnedBy_iff, grants_eq_getD]
  cases e.owners[user]? with
  | none => simp
  | some n =>
    by_cases h : owner = user
    · by_cases hn : n ≤ 1
      · simp [h, hn]
      · simp [h, hn, Nat.lt_of_not_le hn]
    · simp [h]

theorem isOwnedBy_removeAll :
    (e.removeAll owner).isOwnedBy user ↔ owner ≠ user ∧ e.isOwnedBy user := by
  rw [isOwnedBy_iff, getElem?_owners_removeAll, isOwnedBy_iff]
  split
  · next h => simp [h]
  · next h => simp [h]

theorem keepOwned_eq_none_iff : e.keepOwned = none ↔ ∀ owner : User, e.owners[owner]? = none := by
  unfold keepOwned
  rw [ite_eq_left_iff, Std.ExtTreeMap.isEmpty_iff]
  constructor
  · intro h owner
    have hempty : e.owners = ∅ := by
      by_contra hne
      exact absurd (h hne) nofun
    simp [hempty]
  · intro h hne
    exact absurd (Std.ExtTreeMap.ext_getElem? fun owner => by simp [h owner]) hne

/-- Only an entry with an owner is kept. -/
theorem keepOwned_eq_some_iff :
    e.keepOwned = some e' ↔ e = e' ∧ ∃ owner, e.isOwnedBy owner := by
  have hkept : e.keepOwned ≠ none ↔ ∃ owner, e.isOwnedBy owner := by
    simp only [ne_eq, keepOwned_eq_none_iff, not_forall, ← Option.ne_none_iff_exists',
      isOwnedBy_iff]
  rw [← hkept]
  unfold keepOwned
  split <;> simp

/-- Where nothing is kept there is no grant left. -/
theorem elim_keepOwned (e : Entry) (user : User) :
    e.keepOwned.elim 0 (·.grants user) = e.grants user := by
  cases hkept : e.keepOwned with
  | none =>
    rw [grants_eq_getD, keepOwned_eq_none_iff.1 hkept user]
    rfl
  | some e' =>
    obtain ⟨rfl, -⟩ := keepOwned_eq_some_iff.1 hkept
    rfl

end Entry

namespace Table

variable {t : Table} {scope : Scope} {mode : Mode} {tree : Bool}

/-! ## Conflicts -/

theorem ownConflict?_eq_none_iff {resource : Resource} {e : Entry} :
    ownConflict? resource mode tree e = none ↔
      e.mode = .shared ∧ mode = .shared ∧ e.tree = false ∧ tree = false := by
  unfold ownConflict?
  split
  · next h => simp [h]
  · next h => simp [h]
  · next h =>
    cases tree <;> cases he : e.tree <;> simp [h]

theorem relativeConflict?_eq_none_iff {resource relative : Resource} {e : Entry} :
    relativeConflict? resource tree relative e = none ↔ e.tree = false ∧ tree = false := by
  unfold relativeConflict?
  cases e.tree <;> cases tree <;> simp

/-- Nothing stands in the way of a grant if its resource is free, or shared like the request
and without its tree, and no relative is in a locked tree or, for a tree, locked at all. -/
theorem conflict?_eq_none_iff :
    t.conflict? scope mode tree = none ↔
      (∀ e, t.lookup? scope.resource = some e →
        e.mode = .shared ∧ mode = .shared ∧ e.tree = false ∧ tree = false) ∧
      ∀ relative ∈ scope.related, ∀ e, t.lookup? relative = some e →
        e.tree = false ∧ tree = false := by
  unfold conflict?
  simp only [Option.or_eq_none_iff, Option.bind_eq_none_iff, List.findSome?_eq_none_iff,
    ownConflict?_eq_none_iff, relativeConflict?_eq_none_iff]

theorem lockedRelative?_eq_none_iff :
    t.lockedRelative? scope = none ↔ ∀ relative ∈ scope.related, t.lookup? relative = none := by
  simp [lockedRelative?]

end Table

end SceneLocks
