import SceneLocks.Proofs.Locks.Runs
import SceneLocks.Proofs.Locks.Sections

/-!
# Mutual exclusion

An exclusive entry, and an entry that covers its tree, has one owner with one grant; every
other entry is shared, by owners who each hold some grant. This is kept by each operation on
an entry, hence by each section, hence by every run.
-/

namespace SceneLocks

namespace Entry

/-- One owner, who was granted the entry once. -/
def HasSoleGrant (e : Entry) : Prop :=
  ∃ owner, e.owners = (∅ : Std.ExtTreeMap User Nat).insert owner 1

/-- What holds of every entry stored under `resource`. -/
structure Coherent (resource : Resource) (e : Entry) : Prop where
  stored : e.resource = resource
  owned : ∃ owner, e.isOwnedBy owner
  positive : ∀ (owner : User) n, e.owners[owner]? = some n → 0 < n
  exclusive : e.mode = .exclusive → e.HasSoleGrant
  tree : e.tree = true → e.HasSoleGrant

variable {e e' : Entry} {resource : Resource} {owner : User}

/-! ## Sole grants -/

theorem hasSoleGrant_first (resource : Resource) (mode : Mode) (owner : User) (tree : Bool) :
    (first resource mode owner tree).HasSoleGrant :=
  ⟨owner, rfl⟩

/-- The owner of a sole grant is the one that comes first. -/
theorem firstOwner?_of_sole (h : e.owners = (∅ : Std.ExtTreeMap User Nat).insert owner 1) :
    e.firstOwner? = some owner := by
  simp [firstOwner?, h, Std.ExtTreeMap.minKey?_insert]

/-- Nobody else owns an entry with a sole grant. -/
theorem HasSoleGrant.eq_of_isOwnedBy {user : User} (h : e.HasSoleGrant) (howner : e.isOwnedBy owner)
    (huser : e.isOwnedBy user) : owner = user := by
  obtain ⟨holder, howners⟩ := h
  have hholder : ∀ user, e.isOwnedBy user → holder = user := by
    intro user
    simp [Entry.isOwnedBy, howners]
  exact (hholder owner howner).symm.trans (hholder user huser)

/-- Owners who lose grants leave a sole grant alone, or nothing is left of it. -/
theorem HasSoleGrant.of_le (h : e.HasSoleGrant) (howned : ∃ owner, e'.isOwnedBy owner)
    (hle : ∀ (user : User) n, e'.owners[user]? = some n → 0 < n ∧ n ≤ e.grants user) :
    e'.HasSoleGrant := by
  obtain ⟨holder, howners⟩ := h
  have hgrants : ∀ user, e.grants user = if holder = user then 1 else 0 := by
    intro user
    simp [grants, howners, Std.ExtTreeMap.getD_insert]
  -- only the holder has a grant that could be left, and only one
  have hsole : ∀ (user : User) n, e'.owners[user]? = some n → holder = user ∧ n = 1 := by
    intro user n hn
    have hn := hle user n hn
    rw [hgrants] at hn
    split at hn
    · next hholder => exact ⟨hholder, by omega⟩
    · omega
  obtain ⟨user, huser⟩ := howned
  obtain ⟨n, hn⟩ := isOwnedBy_iff.1 huser
  obtain ⟨rfl, rfl⟩ := hsole user n hn
  refine ⟨holder, Std.ExtTreeMap.ext_getElem? fun other => ?_⟩
  simp only [Std.ExtTreeMap.getElem?_insert, Std.LawfulEqOrd.compare_eq_iff_eq]
  split
  · next hother => rw [← hother, hn]
  · next hother =>
    rw [Std.ExtTreeMap.getElem?_empty]
    exact Option.eq_none_iff_forall_ne_some.2 fun m hm => hother (hsole other m hm).1

/-! ## Operations on entries -/

theorem coherent_first (resource : Resource) (mode : Mode) (owner : User) (tree : Bool) :
    (first resource mode owner tree).Coherent resource where
  stored := rfl
  owned := ⟨owner, (isOwnedBy_first ..).2 rfl⟩
  positive := by
    intro user n hn
    rw [getElem?_owners_first] at hn
    split at hn
    · simp only [Option.some.injEq] at hn
      omega
    · simp at hn
  exclusive _ := hasSoleGrant_first ..
  tree _ := hasSoleGrant_first ..

/-- Only an entry that is shared and does not cover its tree takes another grant. -/
theorem Coherent.add (h : e.Coherent resource) (hshared : e.mode = .shared)
    (hplain : e.tree = false) (owner : User) : (e.add owner).Coherent resource where
  stored := h.stored
  owned := ⟨owner, isOwnedBy_add.2 (.inl rfl)⟩
  positive := by
    intro user n hn
    rw [getElem?_owners_add] at hn
    split at hn
    · simp only [Option.some.injEq] at hn
      omega
    · exact h.positive user n hn
  exclusive hexclusive := absurd (hshared.symm.trans hexclusive) nofun
  tree htree := absurd (hplain.symm.trans htree) nofun

/-- An entry that keeps an owner stays coherent when grants are taken away. -/
theorem Coherent.of_le (h : e.Coherent resource) (hstored : e'.resource = e.resource)
    (hmode : e'.mode = e.mode) (htree : e'.tree = e.tree) (howned : ∃ owner, e'.isOwnedBy owner)
    (hle : ∀ (user : User) n, e'.owners[user]? = some n → 0 < n ∧ n ≤ e.grants user) :
    e'.Coherent resource where
  stored := hstored.trans h.stored
  owned := howned
  positive user n hn := (hle user n hn).1
  exclusive hexclusive := (h.exclusive (hmode ▸ hexclusive)).of_le howned hle
  tree htree' := (h.tree (htree ▸ htree')).of_le howned hle

theorem Coherent.remove (h : e.Coherent resource) (hkept : (e.remove owner).keepOwned = some e') :
    e'.Coherent resource := by
  obtain ⟨rfl, howned⟩ := keepOwned_eq_some_iff.1 hkept
  refine h.of_le rfl rfl rfl howned fun user n hn => ?_
  rw [getElem?_owners_remove] at hn
  split at hn
  · obtain ⟨m, hm, hn⟩ := Option.bind_eq_some_iff.1 hn
    rw [grants_eq_getD, hm, Option.getD_some]
    split at hn
    · simp at hn
    · simp only [Option.some.injEq] at hn
      omega
  · rw [grants_eq_getD, hn]
    exact ⟨h.positive user n hn, Nat.le_refl n⟩

theorem Coherent.removeAll (h : e.Coherent resource)
    (hkept : (e.removeAll owner).keepOwned = some e') : e'.Coherent resource := by
  obtain ⟨rfl, howned⟩ := keepOwned_eq_some_iff.1 hkept
  refine h.of_le rfl rfl rfl howned fun user n hn => ?_
  rw [getElem?_owners_removeAll] at hn
  split at hn
  · simp at hn
  · rw [grants_eq_getD, hn]
    exact ⟨h.positive user n hn, Nat.le_refl n⟩

/-- An exclusive entry may come to cover its tree, or no longer. -/
theorem Coherent.setTree (h : e.Coherent resource) (hexclusive : e.mode = .exclusive)
    (tree : Bool) : { e with tree }.Coherent resource :=
  ⟨h.stored, h.owned, h.positive, h.exclusive, fun _ => h.exclusive hexclusive⟩

theorem Coherent.isOwnedBy_iff (h : e.Coherent resource) :
    e.isOwnedBy owner ↔ 0 < e.grants owner := by
  rw [Entry.isOwnedBy_iff, grants_eq_getD]
  constructor
  · rintro ⟨n, hn⟩
    rw [hn]
    exact h.positive owner n hn
  · intro hpos
    cases hn : e.owners[owner]? with
    | none => simp [hn] at hpos
    | some n => exact ⟨n, rfl⟩

end Entry

namespace Table

/-- Every entry is coherent. -/
def Coherent (t : Table) : Prop :=
  ∀ resource e, t.lookup? resource = some e → e.Coherent resource

theorem coherent_empty : Table.empty.Coherent := by
  intro resource e h
  simp at h

/-! ## Sections -/

variable {t : Table} {s : Section}

theorem Coherent.granted {whole : Bool} {scope : Scope} {r : Request} (h : t.Coherent)
    (hscope : scope.resource = r.resource) (hs : Granted t whole scope r s) :
    (s.result t).Coherent := by
  intro x e he
  rw [hs.lookup?] at he
  split at he
  · next hx =>
    subst hx
    obtain ⟨hown, -⟩ := conflict?_eq_none_iff.1 hs.free
    rw [hscope] at hown
    cases hlookup : t.lookup? r.resource with
    | none =>
      simp only [hlookup, Option.elim, Option.some.injEq] at he
      exact he ▸ Entry.coherent_first r.resource r.mode r.owner r.tree
    | some found =>
      -- the check was made on this very entry, in the section that adds the grant
      simp only [hlookup, Option.elim, Option.some.injEq] at he
      obtain ⟨hshared, -, hplain, -⟩ := hown found hlookup
      exact he ▸ (h r.resource found hlookup).add hshared hplain r.owner
  · exact h x e he

theorem Coherent.released {resource : Resource} {owner : User} {found : Entry} (h : t.Coherent)
    (hs : Released t resource owner found s) : (s.result t).Coherent := by
  intro x e he
  rw [hs.lookup?] at he
  split at he
  · next hx => exact hx ▸ (h resource found hs.found).remove he
  · exact h x e he

theorem Coherent.reclaimed {owner : User} (h : t.Coherent) (hs : Reclaimed t owner s) :
    (s.result t).Coherent := by
  intro x e he
  rw [hs.lookup?] at he
  obtain ⟨found, hfound, he⟩ := Option.bind_eq_some_iff.1 he
  split at he
  · exact (h x found hfound).removeAll he
  · exact Option.some.inj he ▸ h x found hfound

theorem Coherent.resized {resource : Resource} {owner : User} {found : Entry} {tree : Bool}
    {covered : Std.ExtTreeSet Resource} (h : t.Coherent)
    (hs : Resized t resource owner found tree covered s) : (s.result t).Coherent := by
  intro x e he
  rw [hs.lookup?] at he
  split at he
  · next hx =>
    subst hx
    exact Option.some.inj he ▸ (h resource found hs.found).setTree hs.exclusive tree
  · exact h x e he

/-- Every section keeps the table coherent. -/
theorem Coherent.result {p : Plan} (hp : p.Resolved) (h : t.Coherent) (hs : p.edits t = .ok s) :
    (s.result t).Coherent := by
  have hdone := Plan.done_of_edits hs
  cases p with
  | grant whole scope r => exact h.granted hp hdone
  | release resource owner =>
    obtain ⟨e, hreleased⟩ := hdone
    exact h.released hreleased
  | reclaim owner => exact h.reclaimed hdone
  | update scope owner kind =>
    obtain ⟨e, hupdated⟩ := hdone
    obtain ⟨tree, covered, hresized, -, -⟩ := hupdated.resized
    exact h.resized hresized

end Table

/-! ## Runs -/

/-- Mutual exclusion: after every run, sections that broke off and calls of any users in any
order included, every entry is stored under its own resource and has owners with some grant
each, and an entry that is exclusive or covers its tree has one owner with one grant. -/
theorem Locks.coherent_run (settings : LockSettings) (steps : List Step) :
    ((fresh settings).run steps).table.Coherent :=
  invariant_run Table.coherent_empty (fun _ _ _ hp h hs => h.result hp hs) settings
    fun _ _ _ _ hplan => Call.resolved_of_plan? hplan

end SceneLocks
