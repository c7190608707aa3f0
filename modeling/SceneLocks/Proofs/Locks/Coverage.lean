import SceneLocks.Proofs.Locks.Exclusion

/-!
# Coverage of the editor locks

What the table records for the editors goes with its entries: an editor lock is recorded for
an owner of the locked resource, and covers more than the resource only if the entry covers
its tree.
-/

namespace SceneLocks

namespace Table

/-- Each editor lock belongs to an entry of its user, and covers the locked resource, alone
unless the entry covers its tree. -/
def Covered (t : Table) : Prop :=
  ∀ user root covered, t.coverage? user root = some covered →
    root ∈ covered ∧ ∃ e, t.lookup? root = some e ∧ e.isOwnedBy user ∧
      (e.tree = false → covered = {root})

variable {t : Table} {s : Section}

theorem covered_empty : Table.empty.Covered := by
  intro user root covered h
  simp [coverage?, Table.empty] at h

theorem Covered.eq_singleton {user : User} {root : Resource} {covered : Std.ExtTreeSet Resource}
    {e : Entry} (h : t.Covered) (hcoverage : t.coverage? user root = some covered)
    (he : t.lookup? root = some e) (hplain : e.tree = false) : covered = {root} := by
  obtain ⟨-, found, hfound, -, hsingle⟩ := h user root covered hcoverage
  obtain rfl := Option.some.inj (he.symm.trans hfound)
  exact hsingle hplain

theorem mem_coverageOf_self {scope : Scope} {resource : Resource}
    (hscope : scope.resource = resource) (tree : Bool) :
    resource ∈ coverageOf scope resource tree := by
  unfold coverageOf
  split
  · simp [hscope]
  · simp

/-- The entry of a granted request is owned by its owner. -/
theorem Covered.granted {whole : Bool} {scope : Scope} {r : Request} (h : t.Covered)
    (hscope : scope.resource = r.resource) (hs : Granted t whole scope r s) :
    (s.result t).Covered := by
  obtain ⟨hown, -⟩ := conflict?_eq_none_iff.1 hs.free
  rw [hscope] at hown
  intro user root covered hcovered
  rw [hs.coverage?] at hcovered
  split at hcovered
  · next hnew =>
    obtain ⟨-, rfl, rfl⟩ := hnew
    simp only [Option.some.injEq] at hcovered
    subst hcovered
    refine ⟨mem_coverageOf_self hscope r.tree, ?_⟩
    rw [hs.lookup?, if_pos rfl]
    cases hfound : t.lookup? r.resource with
    | none =>
      refine ⟨_, rfl, (Entry.isOwnedBy_first ..).2 rfl, fun hplain => ?_⟩
      have hplain : r.tree = false := hplain
      simp [coverageOf, hplain]
    | some e =>
      obtain ⟨-, -, -, hplain⟩ := hown e hfound
      exact ⟨e.add r.owner, rfl, Entry.isOwnedBy_add.2 (.inl rfl), fun _ => by
        simp [coverageOf, hplain]⟩
  · obtain ⟨hroot, e, he, howned, hplain⟩ := h user root covered hcovered
    refine ⟨hroot, ?_⟩
    rw [hs.lookup?]
    split
    · rw [he]
      exact ⟨e.add r.owner, rfl, Entry.isOwnedBy_add.2 (.inr howned), hplain⟩
    · exact ⟨e, he, howned, hplain⟩

/-- With the last grant of its owner an editor lock goes; the others keep their entries. -/
theorem Covered.released {resource : Resource} {owner : User} {found : Entry} (h : t.Covered)
    (hs : Released t resource owner found s) : (s.result t).Covered := by
  intro user root covered hcovered
  rw [hs.coverage?] at hcovered
  split at hcovered
  · simp at hcovered
  · next hkept =>
    obtain ⟨hroot, e, he, howned, hplain⟩ := h user root covered hcovered
    refine ⟨hroot, ?_⟩
    rw [hs.lookup?]
    split
    · next hx =>
      subst hx
      obtain rfl : found = e := Option.some.inj (hs.found.symm.trans he)
      have hstill : (found.remove owner).isOwnedBy user := by
        refine Entry.isOwnedBy_remove.2 ⟨howned, ?_⟩
        rintro rfl
        by_contra hlast
        exact hkept ⟨Nat.le_of_not_lt hlast, rfl, rfl⟩
      exact ⟨found.remove owner, Entry.keepOwned_eq_some_iff.2 ⟨rfl, user, hstill⟩, hstill,
        hplain⟩
    · exact ⟨e, he, howned, hplain⟩

theorem Covered.reclaimed {owner : User} (h : t.Covered) (hs : Reclaimed t owner s) :
    (s.result t).Covered := by
  intro user root covered hcovered
  rw [hs.coverage?] at hcovered
  split at hcovered
  · simp at hcovered
  · next hother =>
    obtain ⟨hroot, e, he, howned, hplain⟩ := h user root covered hcovered
    refine ⟨hroot, ?_⟩
    rw [hs.lookup?, he, Option.bind_some]
    split
    · have hstill : (e.removeAll owner).isOwnedBy user :=
        Entry.isOwnedBy_removeAll.2 ⟨hother, howned⟩
      exact ⟨e.removeAll owner, Entry.keepOwned_eq_some_iff.2 ⟨rfl, user, hstill⟩, hstill,
        hplain⟩
    · exact ⟨e, rfl, howned, hplain⟩

/-- An updated entry is exclusive, so no other user has an editor lock on it. -/
theorem Covered.resized {resource : Resource} {owner : User} {found : Entry} {tree : Bool}
    {covered : Std.ExtTreeSet Resource} (h : t.Covered) (hcoherent : t.Coherent)
    (hs : Resized t resource owner found tree covered s) (hself : resource ∈ covered)
    (hplain : tree = false → covered = {resource}) : (s.result t).Covered := by
  intro user root now hnow
  rw [hs.coverage?] at hnow
  rw [hs.lookup?]
  split at hnow
  · next hx =>
    obtain ⟨rfl, rfl⟩ := hx
    obtain ⟨before, -, rfl⟩ := Option.map_eq_some_iff.1 hnow
    rw [if_pos rfl]
    exact ⟨hself, { found with tree }, rfl, hs.owned, hplain⟩
  · next hother =>
    obtain ⟨hroot, e, he, howned, hsingle⟩ := h user root now hnow
    refine ⟨hroot, ?_⟩
    split
    · next hx =>
      subst hx
      obtain rfl : found = e := Option.some.inj (hs.found.symm.trans he)
      -- the sole owner is the one who updates, whose lock the first case is about
      have hsole := (hcoherent resource found hs.found).exclusive hs.exclusive
      exact absurd ⟨hsole.eq_of_isOwnedBy hs.owned howned, rfl⟩ hother
    · exact ⟨e, he, howned, hsingle⟩

theorem Covered.result {p : Plan} (hp : p.Resolved) (hcoherent : t.Coherent) (h : t.Covered)
    (hs : p.edits t = .ok s) : (s.result t).Covered := by
  have hdone := Plan.done_of_edits hs
  cases p with
  | grant whole scope r => exact h.granted hp hdone
  | release resource owner =>
    obtain ⟨e, hreleased⟩ := hdone
    exact h.released hreleased
  | reclaim owner => exact h.reclaimed hdone
  | update scope owner kind =>
    obtain ⟨e, hupdated⟩ := hdone
    obtain ⟨tree, covered, hresized, hself, hplain⟩ := hupdated.resized
    exact h.resized hcoherent hresized hself hplain

/-- The entries are coherent, and the coverage of the editor locks goes with them. -/
structure Consistent (t : Table) : Prop where
  coherent : t.Coherent
  covered : t.Covered

theorem Consistent.result {p : Plan} (hp : p.Resolved) (h : t.Consistent)
    (hs : p.edits t = .ok s) : (s.result t).Consistent :=
  ⟨h.coherent.result hp hs, h.covered.result hp h.coherent hs⟩

end Table

end SceneLocks
