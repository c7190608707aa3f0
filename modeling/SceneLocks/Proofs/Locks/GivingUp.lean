import SceneLocks.Proofs.Locks.EditorView
import SceneLocks.Proofs.Locks.WholeStructure

/-!
# Giving locks up

Grants that are taken back and trees that shrink to their objects leave less behind than there was
(`Remains`): fewer entries and owners, fewer trees, fewer editor locks. Each check before a grant
only asks for things not to be there, so what could be granted before can be granted afterwards
(`stillFree_run`).
-/

namespace SceneLocks

/-! ## Operations that give something up -/

/-- The plan takes grants back, or shrinks a tree to its object. -/
def Plan.Yields : Plan → Prop
  | .release _ _ | .reclaim _ | .update _ _ .object => True
  | .update _ _ .tree | .grant .. => False

/-- The call gives something up, or lets go of a handle. -/
def Call.Yields : Call → Prop
  | .unlock _ _ | .release _ | .drop _ | .releaseAll _ | .updateLock _ _ _ .object => True
  | .updateLock _ _ _ .tree | .attempt .. | .acquireOnce .. | .lock .. | .replay .. => False

/-- Something is given up, or its section breaks off; or the queue is read. -/
def Step.Yields : Step → Prop
  | .call c => c.Yields
  | .breakOff p _ _ => p.Yields
  | .requeue queue => queue.trap? = none

theorem Call.Yields.plan? {c : Call} {t : Table} {p : Plan} (h : c.Yields)
    (hplan : c.plan? t = some p) : p.Yields := by
  cases plans_of_plan? hplan with
  | updateLock owner kind hscope =>
    cases kind with
    | tree => exact h
    | object => trivial
  | unlock resource owner => trivial
  | release handle => trivial
  | drop handle => trivial
  | releaseAll owner => trivial
  | attempt now a resolved => exact h
  | acquireOnce now whole r hscope => exact h
  | lock now hheld hscope => exact h

namespace Table

/-! ## What remains -/

/-- `t'` is what remains of `t` when something was given up. -/
structure Remains (t t' : Table) : Prop where
  entry : ∀ resource e', t'.lookup? resource = some e' → ∃ e, t.lookup? resource = some e ∧
    e'.mode = e.mode ∧ (e'.tree = true → e.tree = true) ∧
    ∀ user, e'.isOwnedBy user → e.isOwnedBy user
  shown : ∀ user root, (t'.coverage? user root).isSome → (t.coverage? user root).isSome
  /-- An editor lock on an object alone lasts as long as its owner does. -/
  kept : ∀ user root e e', t.lookup? root = some e → e.tree = false →
    t'.lookup? root = some e' → e'.isOwnedBy user → t'.coverage? user root = t.coverage? user root

variable {t t' t'' : Table} {s : Section}

theorem remains_rfl (t : Table) : t.Remains t where
  entry _ e he := ⟨e, he, rfl, id, fun _ h => h⟩
  shown _ _ h := h
  kept _ _ _ _ _ _ _ _ := rfl

theorem Remains.trans (h : t.Remains t') (h' : t'.Remains t'') : t.Remains t'' where
  entry resource e'' he'' := by
    obtain ⟨e', he', hmode', htree', howned'⟩ := h'.entry resource e'' he''
    obtain ⟨e, he, hmode, htree, howned⟩ := h.entry resource e' he'
    exact ⟨e, he, hmode'.trans hmode, htree ∘ htree', fun user => howned user ∘ howned' user⟩
  shown user root := h.shown user root ∘ h'.shown user root
  kept user root e e'' he hplain he'' howns := by
    obtain ⟨e', he', -, htree', howned'⟩ := h'.entry root e'' he''
    obtain ⟨found, hfound, -, htree, -⟩ := h.entry root e' he'
    obtain rfl : found = e := Option.some.inj (hfound.symm.trans he)
    have hplain' : e'.tree = false := by
      rw [← Bool.not_eq_true] at hplain ⊢
      exact mt htree hplain
    rw [h'.kept user root e' e'' he' hplain' he'' howns,
      h.kept user root found e' he hplain he' (howned' user howns)]

theorem remains_released {resource : Resource} {owner : User} {found : Entry}
    (hs : Released t resource owner found s) : t.Remains (s.result t) where
  entry x e' he' := by
    rw [hs.lookup?] at he'
    split at he'
    · next hx =>
      obtain ⟨rfl, -⟩ := Entry.keepOwned_eq_some_iff.1 he'
      exact ⟨found, hx ▸ hs.found, rfl, id, fun user h => (Entry.isOwnedBy_remove.1 h).1⟩
    · exact ⟨e', he', rfl, id, fun _ h => h⟩
  shown user root h := by
    rw [hs.coverage?] at h
    split at h
    · simp at h
    · exact h
  kept user root e e' _ _ he' howns := by
    rw [hs.coverage?, if_neg]
    rintro ⟨hlast, rfl, rfl⟩
    -- with the last grant the owner would be gone
    rw [hs.lookup?, if_pos rfl] at he'
    obtain ⟨rfl, -⟩ := Entry.keepOwned_eq_some_iff.1 he'
    have hmore := (Entry.isOwnedBy_remove.1 howns).2 rfl
    omega

theorem remains_reclaimed {owner : User} (hs : Reclaimed t owner s) : t.Remains (s.result t) where
  entry x e' he' := by
    rw [hs.lookup?] at he'
    obtain ⟨e, he, he'⟩ := Option.bind_eq_some_iff.1 he'
    split at he'
    · obtain ⟨rfl, -⟩ := Entry.keepOwned_eq_some_iff.1 he'
      exact ⟨e, he, rfl, id, fun user h => (Entry.isOwnedBy_removeAll.1 h).2⟩
    · obtain rfl := Option.some.inj he'
      exact ⟨e, he, rfl, id, fun _ h => h⟩
  shown user root h := by
    rw [hs.coverage?] at h
    split at h
    · simp at h
    · exact h
  kept user root e e' _ _ he' howns := by
    rw [hs.coverage?, if_neg]
    rintro rfl
    exact not_owned_reclaimed hs root ⟨e', he', howns⟩

theorem remains_shrunk {scope : Scope} {owner : User} {found : Entry}
    (hs : Shrunk t scope owner found s) : t.Remains (s.result t) where
  entry x e' he' := by
    rw [hs.lookup?] at he'
    split at he'
    · next hx =>
      obtain rfl := Option.some.inj he'
      exact ⟨found, hx ▸ hs.found, rfl, nofun, fun _ h => h⟩
    · exact ⟨e', he', rfl, id, fun _ h => h⟩
  shown user root h := by
    rw [hs.coverage?] at h
    split at h
    · next hboth =>
      rw [Option.isSome_map] at h
      exact hboth.1 ▸ hboth.2 ▸ h
    · exact h
  kept user root e e' he hplain _ _ := by
    rw [hs.coverage?, if_neg]
    rintro ⟨rfl, rfl⟩
    -- only a tree is shrunk
    obtain rfl : found = e := Option.some.inj (hs.found.symm.trans he)
    have htree := hs.changed
    rw [hplain] at htree
    cases htree

theorem remains_result {p : Plan} (hyields : p.Yields) (hs : p.edits t = .ok s) :
    t.Remains (s.result t) := by
  have hdone := Plan.done_of_edits hs
  cases p with
  | grant whole scope r => exact hyields.elim
  | release resource owner =>
    obtain ⟨e, hreleased⟩ := hdone
    exact remains_released hreleased
  | reclaim owner => exact remains_reclaimed hdone
  | update scope owner kind =>
    cases kind with
    | tree => exact hyields.elim
    | object =>
      obtain ⟨e, hshrunk⟩ := hdone
      exact remains_shrunk hshrunk

/-! ## What can be granted -/

theorem Remains.lookup?_eq_none {resource : Resource} (h : t.Remains t')
    (hfree : t.lookup? resource = none) : t'.lookup? resource = none := by
  rw [Option.eq_none_iff_forall_ne_some] at hfree ⊢
  intro e' he'
  obtain ⟨e, he, -⟩ := h.entry resource e' he'
  exact hfree e he

theorem Remains.conflict?_eq_none {scope : Scope} {mode : Mode} {tree : Bool} (h : t.Remains t')
    (hfree : t.conflict? scope mode tree = none) : t'.conflict? scope mode tree = none := by
  obtain ⟨hown, hrelatives⟩ := conflict?_eq_none_iff.1 hfree
  refine conflict?_eq_none_iff.2 ⟨fun e' he' => ?_, fun relative hrelative e' he' => ?_⟩
  · obtain ⟨e, he, hmode, htree, -⟩ := h.entry scope.resource e' he'
    obtain ⟨hshared, hasked, hplain, hobject⟩ := hown e he
    exact ⟨hmode.trans hshared, hasked, by simpa [hplain] using htree, hobject⟩
  · obtain ⟨e, he, -, htree, -⟩ := h.entry relative e' he'
    obtain ⟨hplain, hobject⟩ := hrelatives relative hrelative e he
    exact ⟨by simpa [hplain] using htree, hobject⟩

theorem Remains.wholeConflict?_eq_none (h : t.Remains t') (ht : t.Listed) (ht' : t'.Listed)
    (hfree : t.wholeConflict? = none) : t'.wholeConflict? = none := by
  obtain ⟨hunshown, hshared⟩ := wholeConflict?_eq_none_iff.1 hfree
  rw [← Bool.not_eq_true, ht.hasShownLocks_iff] at hunshown
  refine wholeConflict?_eq_none_iff.2 ⟨?_, fun resource e' he' => ?_⟩
  · rw [← Bool.not_eq_true, ht'.hasShownLocks_iff]
    rintro ⟨user, root, hshown⟩
    exact hunshown ⟨user, root, h.shown user root hshown⟩
  · obtain ⟨e, he, hmode, -⟩ := h.entry resource e' he'
    exact hmode.trans (hshared resource e he)

/-- A grant comes to the same section as before. -/
theorem Remains.granting {whole : Bool} {scope : Scope} {r : Request} (h : t.Remains t')
    (ht : t.Listed) (ht' : t'.Listed) (hs : t.granting whole scope r = .ok s) :
    t'.granting whole scope r = .ok s := by
  have hgranted := granted_of_granting hs
  have hwhole : (if whole then t.wholeConflict? else none) = none := by
    cases whole with
    | false => rfl
    | true => exact hgranted.wholeFree rfl
  have hwhole' : (if whole then t'.wholeConflict? else none) = none := by
    cases whole with
    | false => rfl
    | true => exact h.wholeConflict?_eq_none ht ht' hwhole
  have hfree' := h.conflict?_eq_none hgranted.free
  rw [← hs]
  simp only [Table.granting, hwhole, hwhole', hgranted.free, hfree']

/-- An extension to the tree comes to the same section as before, if the lock is still there. -/
theorem Remains.updating {scope : Scope} {owner : User} (h : t.Remains t') (ht : t.Coherent)
    (ht' : t'.Coherent) (hlocked : (t'.lookup? scope.resource).isSome)
    (hs : t.updating scope owner .tree = .ok s) : t'.updating scope owner .tree = .ok s := by
  obtain ⟨e, hextended⟩ := updated_of_updating hs
  obtain ⟨e', he'⟩ := Option.isSome_iff_exists.1 hlocked
  obtain ⟨found, hfound, hmode, htree, howned⟩ := h.entry scope.resource e' he'
  obtain rfl : found = e := Option.some.inj (hfound.symm.trans hextended.found)
  have hplain : found.tree = false := hextended.changed
  have hplain' : e'.tree = false := by simpa [hplain] using htree
  have hexclusive' : e'.mode = .exclusive := hmode.trans hextended.exclusive
  have howns' : e'.isOwnedBy owner := by
    -- whoever has the lock now had it before, and then nobody but `owner` did
    obtain ⟨user, huser⟩ := (ht' scope.resource e' he').owned
    have hsole := (ht scope.resource found hfound).exclusive hextended.exclusive
    exact hsole.eq_of_isOwnedBy (howned user huser) hextended.owned ▸ huser
  have hfree' : t'.lockedRelative? scope = none := lockedRelative?_eq_none_iff.2
    fun relative hrelative =>
      h.lookup?_eq_none (lockedRelative?_eq_none_iff.1 hextended.free relative hrelative)
  have hcoverage := h.kept owner scope.resource found e' hfound hplain he' howns'
  rw [← hs]
  simp only [Table.updating, he', hfound, hexclusive', hextended.exclusive, howns',
    hextended.owned, extending, hplain, hplain', hfree', hextended.free, hcoverage, and_self,
    if_true]

end Table

/-! ## Runs -/

namespace Locks

variable {l : Locks}

theorem trap?_transact (h : l.queue.trap? = none) (plan : Table → Except LockError Section) :
    (l.transact plan).1.queue.trap? = none := by
  have htransact := transact_of_trap?_eq_none h plan
  split at htransact <;> simp [htransact, perform, Queue.broadcast, h]

end Locks

namespace Step

variable {l : Locks} {step : Step}

theorem remains_perform (hyields : step.Yields) : l.table.Remains (step.perform l).table := by
  rcases step.perform_cases l with ⟨c, p, s, rfl, hplan, hs, -, h⟩ | ⟨h, -⟩
  · exact h ▸ Table.remains_result (Call.Yields.plan? hyields hplan) hs
  · exact h ▸ Table.remains_rfl l.table

/-- Giving something up sets no trap. -/
theorem trap?_perform (hyields : step.Yields) (h : l.queue.trap? = none) :
    (step.perform l).queue.trap? = none := by
  cases step with
  | call c =>
    cases hplan : c.plan? l.table with
    | none =>
      rcases Call.agree_perform hplan with hagree | ⟨connection, user, rfl⟩
      · exact hagree.2 ▸ h
      · exact hyields.elim
    | some p => exact (Call.enters_perform hplan).1.2 ▸ Locks.trap?_transact h (p.edits ·)
  | breakOff p n fault =>
    simp only [perform]
    split
    · simpa using h
    · simp [Locks.rollBack]
  | requeue queue => exact hyields

end Step

namespace Locks

theorem remains_run {l : Locks} {steps : List Step} (hyields : ∀ step ∈ steps, step.Yields) :
    l.table.Remains (l.run steps).table := by
  induction steps generalizing l with
  | nil => exact Table.remains_rfl l.table
  | cons step steps ih =>
    have hstep := Step.remains_perform (l := l) (hyields step List.mem_cons_self)
    exact hstep.trans (ih fun later hlater => hyields later (List.mem_cons_of_mem step hlater))

theorem trap?_run {l : Locks} {steps : List Step} (hyields : ∀ step ∈ steps, step.Yields)
    (h : l.queue.trap? = none) : (l.run steps).queue.trap? = none := by
  induction steps generalizing l with
  | nil => exact h
  | cons step steps ih =>
    exact ih (fun later hlater => hyields later (List.mem_cons_of_mem step hlater))
      (Step.trap?_perform (hyields step List.mem_cons_self) h)

/-- A section that could be performed can still be performed, if it is still worked out the same
way. -/
theorem result_transact_run {l : Locks} {steps : List Step}
    {plan : Table → Except LockError Section}
    (hyields : ∀ step ∈ steps, step.Yields)
    (hsame : ∀ s, plan l.table = .ok s → plan (l.run steps).table = .ok s)
    (h : (l.transact plan).2 = .ok ()) : ((l.run steps).transact plan).2 = .ok () := by
  have hok : (l.transact plan).2.isOk = true := by rw [h]; rfl
  obtain ⟨s, hs, hunhindered⟩ := isOk_transact_iff.1 hok
  have hstill : (l.run steps).Unhindered s.events := hunhindered.imp_left (trap?_run hyields)
  rw [transact_of_ok plan (hsame s hs) hstill]

/-- Giving up locks never blocks anyone. However many grants and trees are given up, by whomever,
what had no conflict has none, a whole structure that could be locked can still be, an exclusive
lock that is still there can be extended to its tree if it could before, and an attempt on a request
that would have been granted is granted. -/
theorem stillFree_run (settings : LockSettings) (steps later : List Step)
    (hyields : ∀ step ∈ later, step.Yields) :
    let l := (fresh settings).run steps
    let l' := l.run later
    (∀ scope mode tree,
      l.table.conflict? scope mode tree = none → l'.table.conflict? scope mode tree = none) ∧
    (l.table.wholeConflict? = none → l'.table.wholeConflict? = none) ∧
    (∀ g resource owner, (l'.table.lookup? resource).isSome →
      (l.updateLock g resource owner .tree).2 = .ok () →
        (l'.updateLock g resource owner .tree).2 = .ok ()) ∧
    ∀ whole scope r h,
      (l.tryGrant whole scope r).2 = .ok h → (l'.tryGrant whole scope r).2 = .ok h := by
  intro l l'
  have hremains : l.table.Remains l'.table := remains_run hyields
  have hrun : l' = (fresh settings).run (steps ++ later) := (List.foldl_append ..).symm
  have hlisted : l.table.Listed := listed_run settings steps
  have hlisted' : l'.table.Listed := hrun ▸ listed_run settings (steps ++ later)
  refine ⟨?_, ?_, ?_, ?_⟩
  · exact fun scope mode tree => hremains.conflict?_eq_none
  · exact hremains.wholeConflict?_eq_none hlisted hlisted'
  · intro g resource owner hlocked hextends
    -- an extension asks that the entry is still there; what it tests is monotone
    cases hscope : g.scope? resource with
    | none => simp [updateLock, resolve, hscope] at hextends
    | some scope =>
      have hcoherent : l.table.Coherent := (consistent_run settings steps).coherent
      have hcoherent' : l'.table.Coherent :=
        hrun ▸ (consistent_run settings (steps ++ later)).coherent
      have hresource := Graph.resource_scope? hscope
      rw [result_updateLock hscope] at hextends ⊢
      exact result_transact_run hyields
        (fun s => hremains.updating hcoherent hcoherent' (hresource ▸ hlocked)) hextends
  · intro whole scope r h hgranted
    obtain ⟨hperformed, rfl⟩ := tryGrant_eq_ok_iff.1 hgranted
    have hstill := result_transact_run hyields (fun s => hremains.granting hlisted hlisted')
      hperformed
    exact tryGrant_eq_ok_iff.2 ⟨hstill, rfl⟩

/-- Bob shares the second action point twice. -/
def bobSharesTwice : List Step :=
  let share : Call := .acquireOnce actionPoints 0 false
    { resource := "ap_2", owner := "bob", mode := .shared }
  [.call share, .call share]

/-- He gives one of the grants back, which leaves the project as free to be locked as a whole as it
was; and the lock that Alice's editor may have got in between can be extended before and after. -/
theorem stillFree_run_bobSharesTwice :
    let shared := (fresh {}).run bobSharesTwice
    let locked := (fresh {}).run
      (bobSharesTwice ++ [.call (.lock actionPoints 0 "ap_1" "alice" false)])
    let later : List Step := [.call (.unlock "ap_2" "bob")]
    (shared.run later).table.wholeConflict? = none ∧
      ((locked.run later).updateLock actionPoints "ap_1" "alice" .tree).2 = .ok () := by
  intro shared locked later
  have hyields : ∀ step ∈ later, step.Yields := by
    simp [later, Step.Yields, Call.Yields]
  obtain ⟨-, hwhole, -, -⟩ := stillFree_run {} bobSharesTwice later hyields
  obtain ⟨-, -, hextends, -⟩ := stillFree_run {}
    (bobSharesTwice ++ [.call (.lock actionPoints 0 "ap_1" "alice" false)]) later hyields
  exact ⟨hwhole (by decide +kernel),
    hextends actionPoints "ap_1" "alice" (by decide +kernel) (by decide +kernel)⟩

end Locks

end SceneLocks
