import SceneLocks.Proofs.Locks.Exclusion

/-!
# Tree exclusion

No lock of any mode and any owner stands next to a tree lock on a relative. The table has no
entry for what a tree lock covers; the two one-sided checks of a request, against relatives
that are locked and against relatives with a locked tree, make up for each other because the
relatives of a node are the nodes that it is a relative of.
-/

namespace SceneLocks

namespace Table

/-- Of two relatives with an entry, neither entry covers its tree. -/
def TreeExclusion (g : Graph) (t : Table) : Prop :=
  ∀ x y, g.Related x y → ∀ e f, t.lookup? x = some e → t.lookup? y = some f →
    e.tree = false ∧ f.tree = false

variable {g : Graph} {t t' : Table} {s : Section}

theorem treeExclusion_empty (g : Graph) : TreeExclusion g .empty := by
  intro x y _ e f he
  simp at he

/-- Entries that go, or no longer cover their tree, exclude nothing new. -/
theorem TreeExclusion.of_le (h : t.TreeExclusion g)
    (hle : ∀ x e', t'.lookup? x = some e' →
      ∃ e, t.lookup? x = some e ∧ (e'.tree = true → e.tree = true)) :
    t'.TreeExclusion g := by
  intro x y hrelated e' f' he' hf'
  obtain ⟨e, he, hetree⟩ := hle x e' he'
  obtain ⟨f, hf, hftree⟩ := hle y f' hf'
  obtain ⟨heplain, hfplain⟩ := h x y hrelated e f he hf
  constructor
  · rw [← Bool.not_eq_true]
    exact fun htree => absurd (heplain.symm.trans (hetree htree)) nofun
  · rw [← Bool.not_eq_true]
    exact fun htree => absurd (hfplain.symm.trans (hftree htree)) nofun

/-- A new entry is compared with the entries in the scope of its resource; which of two
relatives it belongs to does not matter. -/
theorem TreeExclusion.of_entry {scope : Scope} {resource : Resource} (h : t.TreeExclusion g)
    (hscope : g.IsScope resource scope) (new : Entry)
    (hlookup : ∀ x, t'.lookup? x = if resource = x then some new else t.lookup? x)
    (hnew : ∀ relative ∈ scope.related, ∀ f, t.lookup? relative = some f →
      new.tree = false ∧ f.tree = false) :
    t'.TreeExclusion g := by
  -- the scope of `resource` holds all its relatives, on whichever side the pair has it
  have hrelative : ∀ relative, g.Related resource relative → ∀ f,
      t'.lookup? relative = some f → new.tree = false ∧ f.tree = false := by
    intro relative hrelated f hf
    rw [hlookup, if_neg hrelated.1] at hf
    exact hnew relative ((hscope.mem_related hrelated.1.symm).2 hrelated) f hf
  intro x y hrelated e f he hf
  by_cases hx : resource = x
  · subst hx
    rw [hlookup, if_pos rfl, Option.some.injEq] at he
    exact he ▸ hrelative y hrelated f hf
  · by_cases hy : resource = y
    · subst hy
      rw [hlookup, if_pos rfl, Option.some.injEq] at hf
      exact hf ▸ (hrelative x hrelated.symm e he).symm
    · rw [hlookup, if_neg hx] at he
      rw [hlookup, if_neg hy] at hf
      exact h x y hrelated e f he hf

/-! ## Sections -/

/-- The entry after a grant covers its tree only if the request asked for that. -/
theorem TreeExclusion.granted {whole : Bool} {scope : Scope} {r : Request}
    (h : t.TreeExclusion g) (hscope : g.scope? r.resource = some scope)
    (hs : Granted t whole scope r s) : (s.result t).TreeExclusion g := by
  have hresource : scope.resource = r.resource := Graph.resource_scope? hscope
  obtain ⟨hown, hrelatives⟩ := conflict?_eq_none_iff.1 hs.free
  rw [hresource] at hown
  refine h.of_entry (Graph.isScope_of_scope? hscope) ((t.lookup? r.resource).elim
    (.first r.resource r.mode r.owner r.tree) (·.add r.owner)) ?_ ?_
  · intro x
    rw [hs.lookup?]
    split
    · next hx => rw [hx]
    · rfl
  · intro relative hrelative f hf
    obtain ⟨hfplain, hplain⟩ := hrelatives relative hrelative f hf
    refine ⟨?_, hfplain⟩
    cases hfound : t.lookup? r.resource with
    | none => exact hplain
    | some found => exact (hown found hfound).2.2.1

theorem TreeExclusion.released {resource : Resource} {owner : User} {found : Entry}
    (h : t.TreeExclusion g) (hs : Released t resource owner found s) :
    (s.result t).TreeExclusion g := by
  refine h.of_le fun x e' he' => ?_
  obtain ⟨e, he, -, htree⟩ := hs.before he'
  exact ⟨e, he, fun h => htree ▸ h⟩

theorem TreeExclusion.reclaimed {owner : User} (h : t.TreeExclusion g)
    (hs : Reclaimed t owner s) : (s.result t).TreeExclusion g := by
  refine h.of_le fun x e' he' => ?_
  obtain ⟨e, he, -, htree⟩ := hs.before he'
  exact ⟨e, he, fun h => htree ▸ h⟩

/-- An extension finds no relative locked. -/
theorem TreeExclusion.extended {scope : Scope} {owner : User} {found : Entry}
    (h : t.TreeExclusion g) (hscope : g.scope? scope.resource = some scope)
    (hs : Extended t scope owner found s) : (s.result t).TreeExclusion g := by
  refine h.of_entry (Graph.isScope_of_scope? hscope) _ hs.lookup? fun relative hrelative f hf => ?_
  have hfree := lockedRelative?_eq_none_iff.1 hs.free relative hrelative
  exact absurd (hfree.symm.trans hf) nofun

theorem TreeExclusion.shrunk {scope : Scope} {owner : User} {found : Entry}
    (h : t.TreeExclusion g) (hs : Shrunk t scope owner found s) :
    (s.result t).TreeExclusion g := by
  refine h.of_le fun x e' he' => ?_
  rw [hs.lookup?] at he'
  split at he'
  · next hx =>
    refine ⟨found, hx ▸ hs.found, fun htree => ?_⟩
    rw [← Option.some.inj he'] at htree
    exact absurd htree nofun
  · exact ⟨e', he', id⟩

/-- Every section on resources looked up in the graph keeps tree locks apart. -/
theorem TreeExclusion.result {p : Plan} (hp : p.On g) (h : t.TreeExclusion g)
    (hs : p.edits t = .ok s) : (s.result t).TreeExclusion g := by
  have hdone := Plan.done_of_edits hs
  cases p with
  | grant whole scope r => exact h.granted hp hdone
  | release resource owner =>
    obtain ⟨e, hreleased⟩ := hdone
    exact h.released hreleased
  | reclaim owner => exact h.reclaimed hdone
  | update scope owner kind =>
    obtain ⟨e, hupdated⟩ := hdone
    cases kind with
    | tree => exact h.extended hp hupdated
    | object => exact h.shrunk hupdated

end Table

/-! ## Runs -/

namespace Locks

/-- Tree exclusion: as long as the graph stays as it is, whatever shape it has, two relatives
are never both locked with one of the locks covering its tree. -/
theorem treeExclusion_run {g : Graph} (settings : LockSettings) {steps : List Step}
    (hg : ∀ step ∈ steps, step.On g) :
    ((fresh settings).run steps).table.TreeExclusion g :=
  invariant_run (Table.treeExclusion_empty g) (fun _ _ _ hp h hs => h.result hp hs) settings
    fun _ hc _ _ hplan => Call.On.plan? (hg _ hc) hplan

/-- A table with a cup on it. -/
def cupOnTable : Graph := (Graph.empty.insert "table" none).insert "cup" (some "table")

/-- Bob asks for the table, which is in the tree around Alice's cup. -/
def cupThenTable : List Step :=
  [.call (.lock cupOnTable 0 "cup" "alice" true), .call (.lock cupOnTable 0 "table" "bob" false)]

theorem treeExclusion_run_cupThenTable :
    (((fresh {}).run cupThenTable).table.lookup? "cup").isSome ∧
    ((fresh {}).run cupThenTable).table.lookup? "table" = none ∧
    ((fresh {}).run cupThenTable).table.TreeExclusion cupOnTable :=
  ⟨by decide +kernel, by decide +kernel,
    treeExclusion_run {} (by simp [cupThenTable, Step.On, Call.On])⟩

end Locks

end SceneLocks
