import Mathlib.Data.Finset.Basic
import SceneLocks.Proofs.Locks.Coverage

/-!
# What the editors show

An editor that follows all broadcasts shows a set of pairs of a user and a resource. The
table lists for each user what the editor locks cover together, but the events of a release
and of a shrinking are worked out from the one lock that is given up. So the two agree until
a lock is given up whose coverage meets that of another editor lock of the same user, and
then the editors show less than the table lists (`truthful_serve_iff`).
-/

namespace SceneLocks

/-! ## The view -/

/-- What is shown after an event. -/
def Event.tell (view : Finset (User × Resource)) (event : Event) : Finset (User × Resource) :=
  match event.kind with
  | .locked => insert (event.user, event.resource) view
  | .unlocked => view.erase (event.user, event.resource)

theorem mem_foldl_tell_locked {view : Finset (User × Resource)} {owner user : User}
    {resources : List Resource} {resource : Resource} :
    (user, resource) ∈ (resources.map (Event.locked · owner)).foldl Event.tell view ↔
      (user, resource) ∈ view ∨ user = owner ∧ resource ∈ resources := by
  induction resources generalizing view with
  | nil => simp
  | cons r resources ih =>
    rw [List.map_cons, List.foldl_cons, ih]
    simp only [Event.tell, Event.locked, Finset.mem_insert, Prod.mk.injEq, List.mem_cons]
    tauto

theorem mem_foldl_tell_unlocked {view : Finset (User × Resource)} {owner user : User}
    {resources : List Resource} {resource : Resource} :
    (user, resource) ∈ (resources.map (Event.unlocked · owner)).foldl Event.tell view ↔
      (user, resource) ∈ view ∧ ¬ (user = owner ∧ resource ∈ resources) := by
  induction resources generalizing view with
  | nil => simp
  | cons r resources ih =>
    rw [List.map_cons, List.foldl_cons, ih]
    simp only [Event.tell, Event.unlocked, Finset.mem_erase, ne_eq, Prod.mk.injEq, List.mem_cons]
    tauto

namespace Locks

/-- What an editor shows that followed all broadcasts. -/
def view (l : Locks) : Finset (User × Resource) := l.announced.foldl Event.tell ∅

/-- The editors show just what the table lists as shown. -/
def Truthful (l : Locks) : Prop :=
  ∀ user resource, (user, resource) ∈ l.view ↔
    ∃ resources, l.table.shownLocks[user]? = some resources ∧ resource ∈ resources

theorem truthful_iff {l : Locks} :
    l.Truthful ↔ ∀ user resource, (user, resource) ∈ l.view ↔ l.table.Shows user resource := by
  simp only [Truthful, Table.mem_shownLocks]

end Locks

/-! ## What sections show -/

/-- The section announces resources as locked by `owner`, and these are listed from then on. -/
structure Section.Adds (t : Table) (s : Section) (owner : User) (resources : List Resource) :
    Prop where
  events : s.events = resources.map (Event.locked · owner)
  shows : ∀ user resource, (s.result t).Shows user resource ↔
    t.Shows user resource ∨ user = owner ∧ resource ∈ resources

/-- The section announces resources as freed by `owner`, and these are no longer listed, but
for the ones that are `kept`. -/
structure Section.Frees (t : Table) (s : Section) (owner : User) (resources : List Resource)
    (kept : Resource → Prop) : Prop where
  events : s.events = resources.map (Event.unlocked · owner)
  shows : ∀ user resource, (s.result t).Shows user resource ↔
    t.Shows user resource ∧ (user = owner → resource ∈ resources → kept resource)

/-- The plan takes the last grant of the user's editor lock on `root` back, or shrinks it from
its tree to `root`, and `resource` is among what it frees by that. -/
def Plan.GivesUp (t : Table) (user : User) (root resource : Resource) : Plan → Prop
  | .release r owner => r = root ∧ owner = user ∧ t.Covers user root resource ∧
    ∃ e, t.lookup? root = some e ∧ e.isOwnedBy user ∧ e.grants user ≤ 1
  | .update scope owner .object => scope.resource = root ∧ owner = user ∧
    t.Covers user root resource ∧ resource ≠ root ∧
    ∃ e, t.lookup? root = some e ∧ e.mode = .exclusive ∧ e.isOwnedBy user ∧ e.tree
  | _ => False

/-- The plan frees a resource that another editor lock of the same user covers. -/
def Plan.FreesShown (t : Table) (user : User) (resource : Resource) (p : Plan) : Prop :=
  ∃ root other, p.GivesUp t user root resource ∧ other ≠ root ∧ t.Covers user other resource

namespace Table

variable {t t' : Table} {s : Section} {owner : User} {root : Resource}

/-- An editor lock other than the one of `owner` on `root` covers the resource. -/
def ShowsBeside (t : Table) (owner : User) (root : Resource) (user : User) (resource : Resource) :
    Prop :=
  ∃ other, ¬ (owner = user ∧ root = other) ∧ t.Covers user other resource

theorem ShowsBeside.shows {user : User} {resource : Resource}
    (h : t.ShowsBeside owner root user resource) : t.Shows user resource := by
  obtain ⟨other, -, hcovers⟩ := h
  exact ⟨other, hcovers⟩

theorem showsBeside_self {resource : Resource} :
    t.ShowsBeside owner root owner resource ↔
      ∃ other, other ≠ root ∧ t.Covers owner other resource := by
  simp [ShowsBeside, eq_comm]

/-- A resource is shown by the lock in question or beside it. -/
theorem shows_iff (owner : User) (root : Resource) {user : User} {resource : Resource} :
    t.Shows user resource ↔
      t.ShowsBeside owner root user resource ∨ user = owner ∧ t.Covers owner root resource := by
  constructor
  · rintro ⟨other, hcovers⟩
    by_cases h : owner = user ∧ root = other
    · obtain ⟨rfl, rfl⟩ := h
      exact .inr ⟨rfl, hcovers⟩
    · exact .inl ⟨other, h, hcovers⟩
  · rintro (h | ⟨rfl, hcovers⟩)
    · exact h.shows
    · exact ⟨root, hcovers⟩

theorem shows_iff_of_cover {covered : Option (Std.ExtTreeSet Resource)}
    (h : ∀ u x, t'.coverage? u x = if owner = u ∧ root = x then covered else t.coverage? u x)
    (user : User) (resource : Resource) :
    t'.Shows user resource ↔ t.ShowsBeside owner root user resource ∨
      user = owner ∧ ∃ resources, covered = some resources ∧ resource ∈ resources := by
  have hself : t'.Covers owner root resource ↔
      ∃ resources, covered = some resources ∧ resource ∈ resources := by
    simp [Covers, h]
  have hbeside : t'.ShowsBeside owner root user resource ↔
      t.ShowsBeside owner root user resource := by
    refine exists_congr fun other => and_congr_right fun hother => ?_
    simp [Covers, h, hother]
  rw [shows_iff owner root, hself, hbeside]

/-- A grant shows its coverage, which includes what an earlier grant may have shown. -/
theorem adds_of_granted {whole : Bool} {scope : Scope} {r : Request} (hcovered : t.Covered)
    (hscope : scope.resource = r.resource) (hs : Granted t whole scope r s) :
    ∃ resources, s.Adds t r.owner resources := by
  cases hv : r.visibility with
  | internal =>
    refine ⟨[], by simp [hs.events, hv], fun user resource => ?_⟩
    simp [Shows, Covers, hs.coverage?, hv]
  | ui =>
    refine ⟨(coverageOf scope r.resource r.tree).toList, by simp [hs.events, hv],
      fun user resource => ?_⟩
    have hcoverage : ∀ u x, (s.result t).coverage? u x =
        if r.owner = u ∧ r.resource = x then some (coverageOf scope r.resource r.tree)
        else t.coverage? u x := by
      simpa [hv] using hs.coverage?
    -- only a plain entry takes another grant, so an earlier grant showed the resource alone
    have hearlier : t.Covers r.owner r.resource resource →
        resource ∈ coverageOf scope r.resource r.tree := by
      rintro ⟨covered, hc, hmem⟩
      obtain ⟨-, e, he, -, hsingle⟩ := hcovered r.owner r.resource covered hc
      obtain ⟨hown, -⟩ := conflict?_eq_none_iff.1 hs.free
      obtain ⟨-, -, hplain, -⟩ := hown e (hscope ▸ he)
      rw [hsingle hplain] at hmem
      obtain rfl : r.resource = resource := by simpa using hmem
      exact mem_coverageOf_self hscope r.tree
    rw [shows_iff_of_cover hcoverage, shows_iff r.owner r.resource]
    simp only [Option.some.injEq, exists_eq_left', Std.ExtTreeSet.mem_toList]
    tauto

/-- An extension announces what the lock did not show before. -/
theorem adds_of_extended {scope : Scope} {found : Entry} (hcovered : t.Covered)
    (hs : Extended t scope owner found s) : ∃ resources, s.Adds t owner resources := by
  have hshows := shows_iff_of_cover hs.coverage?
  have hevents := hs.events
  cases hc : t.coverage? owner scope.resource with
  | none =>
    refine ⟨[], by simp [hevents, hc], fun user resource => ?_⟩
    rw [hshows, shows_iff owner scope.resource]
    simp [hc, Covers]
  | some previous =>
    refine ⟨(scope.coverage \ previous).toList, by simp [hevents, hc], fun user resource => ?_⟩
    have hprevious : t.Covers owner scope.resource resource ↔ resource ∈ previous := by
      simp [Covers, hc]
    -- the entry was plain, so `previous` is the resource alone
    have hearlier : resource ∈ previous → resource ∈ scope.coverage := by
      intro hmem
      rw [hcovered.eq_singleton hc hs.found (by simpa using hs.changed)] at hmem
      obtain rfl : scope.resource = resource := by simpa using hmem
      simp
    rw [hshows, shows_iff owner scope.resource, hprevious, hc]
    simp only [Option.map_some, Option.some.injEq, exists_eq_left', Std.ExtTreeSet.mem_toList,
      Std.ExtTreeSet.mem_diff_iff]
    tauto

/-- A section that takes some of the coverage of an editor lock away, and announces that, frees
it but for what is shown beside the lock. -/
theorem frees_of_cover {covered : Option (Std.ExtTreeSet Resource)} {resources : List Resource}
    (hevents : s.events = resources.map (Event.unlocked · owner))
    (hcoverage : ∀ u x, (s.result t).coverage? u x =
      if owner = u ∧ root = x then covered else t.coverage? u x)
    (hkept : ∀ x, (∃ c, covered = some c ∧ x ∈ c) → t.Covers owner root x)
    (hresources : ∀ x, x ∈ resources ↔
      t.Covers owner root x ∧ ¬ ∃ c, covered = some c ∧ x ∈ c) :
    s.Frees t owner resources fun x => ∃ other, other ≠ root ∧ t.Covers owner other x := by
  refine ⟨hevents, fun user resource => ?_⟩
  rw [shows_iff_of_cover hcoverage, shows_iff owner root, hresources, ← showsBeside_self]
  constructor
  · rintro (h | ⟨rfl, h⟩)
    · exact ⟨.inl h, by rintro rfl -; exact h⟩
    · exact ⟨.inr ⟨rfl, hkept resource h⟩, fun _ hfreed => absurd h hfreed.2⟩
  · rintro ⟨h | ⟨rfl, hcovers⟩, hbeside⟩
    · exact .inl h
    · by_cases h : ∃ c, covered = some c ∧ resource ∈ c
      · exact .inr ⟨rfl, h⟩
      · exact .inl (hbeside rfl ⟨hcovers, h⟩)

/-- What a plan frees of one editor lock stays shown where another lock covers it. -/
theorem freesShown_iff {p : Plan} {resources : List Resource}
    (hgives : ∀ user root' resource, p.GivesUp t user root' resource ↔
      user = owner ∧ root' = root ∧ resource ∈ resources) (user : User) (resource : Resource) :
    p.FreesShown t user resource ↔ user = owner ∧ resource ∈ resources ∧
      ∃ other, other ≠ root ∧ t.Covers owner other resource := by
  constructor
  · rintro ⟨root', other, h, hother⟩
    obtain ⟨rfl, rfl, hmem⟩ := (hgives user root' resource).1 h
    exact ⟨rfl, hmem, other, hother⟩
  · rintro ⟨rfl, hmem, other, hother⟩
    exact ⟨root, other, (hgives user root resource).2 ⟨rfl, rfl, hmem⟩, hother⟩

/-- With its last grant an editor lock frees what it covers, shown beside it or not. -/
theorem frees_of_released {found : Entry} (hs : Released t root owner found s) :
    ∃ resources kept, s.Frees t owner resources kept ∧ ∀ user resource,
      (Plan.release root owner).FreesShown t user resource ↔
        user = owner ∧ resource ∈ resources ∧ kept resource := by
  by_cases hlast : found.grants owner ≤ 1
  · have hmem : ∀ x, x ∈ ((t.coverage? owner root).getD ∅).toList ↔ t.Covers owner root x := by
      intro x
      rw [Std.ExtTreeSet.mem_toList, mem_getD_coverage]
    refine ⟨((t.coverage? owner root).getD ∅).toList, _,
      frees_of_cover (by simp [hs.events, hlast]) (by simpa [hlast] using hs.coverage?)
        (by simp) ?_,
      freesShown_iff fun user root' resource => ?_⟩
    · simp [hmem]
    · rw [hmem]
      constructor
      · rintro ⟨rfl, rfl, hcovers, -⟩
        exact ⟨rfl, rfl, hcovers⟩
      · rintro ⟨rfl, rfl, hcovers⟩
        exact ⟨rfl, rfl, hcovers, found, hs.found, hs.owned, hlast⟩
  · -- some grant remains: nothing is announced and nothing changes for the editors
    refine ⟨[], fun _ => False, ⟨by simp [hs.events, hlast], fun user resource => ?_⟩,
      fun user resource => ?_⟩
    · simp [Shows, Covers, hs.coverage?, hlast]
    · simp only [List.not_mem_nil, and_false, iff_false]
      rintro ⟨root', other, ⟨rfl, rfl, -, e, he, -, hlast'⟩, -⟩
      obtain rfl : found = e := Option.some.inj (hs.found.symm.trans he)
      exact hlast hlast'

/-- A shrinking frees what the lock covers around its resource, shown beside it or not. -/
theorem frees_of_shrunk {scope : Scope} {found : Entry} (hcovered : t.Covered)
    (hs : Shrunk t scope owner found s) :
    ∃ resources kept, s.Frees t owner resources kept ∧ ∀ user resource,
      (Plan.update scope owner .object).FreesShown t user resource ↔
        user = owner ∧ resource ∈ resources ∧ kept resource := by
  let resources := (t.coverage? owner scope.resource).elim [] fun previous =>
    (previous.erase scope.resource).toList
  have hevents : s.events = resources.map (Event.unlocked · owner) := by
    rw [hs.events]
    cases hc : t.coverage? owner scope.resource <;> simp [resources, hc]
  have hmem : ∀ x, x ∈ resources ↔ t.Covers owner scope.resource x ∧ x ≠ scope.resource := by
    intro x
    cases hc : t.coverage? owner scope.resource with
    | none => simp [resources, Covers, hc]
    | some previous =>
      simp only [resources, Covers, hc, Option.elim, Option.some.injEq, exists_eq_left',
        Std.ExtTreeSet.mem_toList, Std.ExtTreeSet.mem_erase, ne_eq,
        Std.LawfulEqOrd.compare_eq_iff_eq]
      exact ⟨fun h => ⟨h.2, Ne.symm h.1⟩, fun h => ⟨Ne.symm h.2, h.1⟩⟩
  -- the resource itself stays covered, if the editors were shown the lock at all
  have hkept : ∀ x, (∃ c, ((t.coverage? owner scope.resource).map fun _ =>
      ({scope.resource} : Std.ExtTreeSet Resource)) = some c ∧ x ∈ c) ↔
      t.Covers owner scope.resource x ∧ x = scope.resource := by
    intro x
    cases hc : t.coverage? owner scope.resource with
    | none => simp [Covers, hc]
    | some previous =>
      have hself := (hcovered owner scope.resource previous hc).1
      simp only [Option.map_some, Option.some.injEq, exists_eq_left', Covers, hc,
        Std.ExtTreeSet.singleton_eq_insert, Std.ExtTreeSet.mem_insert,
        Std.LawfulEqOrd.compare_eq_iff_eq, Std.ExtTreeSet.not_mem_empty, or_false]
      exact ⟨fun h => ⟨h ▸ hself, h.symm⟩, fun h => h.2.symm⟩
  refine ⟨resources, _, frees_of_cover hevents hs.coverage? (fun x hx => ((hkept x).1 hx).1) ?_,
    freesShown_iff fun user root' resource => ?_⟩
  · intro x
    rw [hmem, hkept]
    tauto
  · rw [hmem]
    constructor
    · rintro ⟨rfl, rfl, hcovers, hne, -⟩
      exact ⟨rfl, rfl, hcovers, hne⟩
    · rintro ⟨rfl, rfl, hcovers, hne⟩
      exact ⟨rfl, rfl, hcovers, hne, found, hs.found, hs.exclusive, hs.owned,
        by simpa using hs.changed⟩

/-- A reclamation keeps nothing of its owner. -/
theorem frees_of_reclaimed (hs : Reclaimed t owner s) :
    s.Frees t owner (t.shownBy owner).toList fun _ => False := by
  refine ⟨hs.events, fun user resource => ?_⟩
  rw [Std.ExtTreeSet.mem_toList, mem_shownBy]
  by_cases h : owner = user
  · subst h
    simp [Shows, Covers, hs.coverage?]
  · simp [Shows, Covers, hs.coverage?, h, Ne.symm h]

end Table

/-- A section adds to what is listed, or frees some of it. -/
theorem Plan.adds_or_frees {t : Table} {s : Section} {p : Plan} (hp : p.Resolved)
    (hcovered : t.Covered) (hs : p.edits t = .ok s) :
    (∃ owner resources, s.Adds t owner resources ∧
      ∀ user resource, ¬ p.FreesShown t user resource) ∨
    ∃ owner resources kept, s.Frees t owner resources kept ∧ ∀ user resource,
      p.FreesShown t user resource ↔ user = owner ∧ resource ∈ resources ∧ kept resource := by
  have hdone := Plan.done_of_edits hs
  cases p with
  | grant whole scope r =>
    obtain ⟨resources, hadds⟩ := Table.adds_of_granted hcovered hp hdone
    exact .inl ⟨r.owner, resources, hadds, fun _ _ ⟨_, _, h, _⟩ => h⟩
  | release resource owner =>
    obtain ⟨e, hreleased⟩ := hdone
    exact .inr ⟨owner, Table.frees_of_released hreleased⟩
  | reclaim owner =>
    refine .inr ⟨owner, _, _, Table.frees_of_reclaimed hdone, fun user resource => ?_⟩
    simp [Plan.FreesShown, Plan.GivesUp]
  | update scope owner kind =>
    obtain ⟨e, hupdated⟩ := hdone
    cases kind with
    | tree =>
      obtain ⟨resources, hadds⟩ := Table.adds_of_extended hcovered hupdated
      exact .inl ⟨owner, resources, hadds, fun _ _ ⟨_, _, h, _⟩ => h⟩
    | object => exact .inr ⟨owner, Table.frees_of_shrunk hcovered hupdated⟩

/-- A plan that gives an editor lock up is carried out. -/
theorem Plan.GivesUp.edits {t : Table} {p : Plan} {user : User} {root resource : Resource}
    (h : p.GivesUp t user root resource) : ∃ s, p.edits t = .ok s := by
  cases p with
  | release r owner =>
    obtain ⟨rfl, rfl, -, e, he, howned, -⟩ := h
    simp [Plan.edits, Table.releasing, he, howned]
  | update scope owner kind =>
    cases kind with
    | tree => exact h.elim
    | object =>
      obtain ⟨rfl, rfl, -, -, e, he, hexclusive, howned, htree⟩ := h
      simp [Plan.edits, Table.updating, Table.shrinking, he, hexclusive, howned, htree]
  | grant | reclaim => exact h.elim

/-! ## Sections and the view -/

section Views

variable {t : Table} {s : Section} {p : Plan} {view : Finset (User × Resource)}

/-- No event tells of a lock that is not listed. -/
theorem shows_of_mem_foldl_tell (hp : p.Resolved) (hcovered : t.Covered)
    (hs : p.edits t = .ok s) {user : User} {resource : Resource}
    (hview : (user, resource) ∈ view → t.Shows user resource)
    (hmem : (user, resource) ∈ s.events.foldl Event.tell view) :
    (s.result t).Shows user resource := by
  rcases Plan.adds_or_frees hp hcovered hs with
    ⟨owner, resources, hadds, -⟩ | ⟨owner, resources, kept, hfrees, -⟩
  · rw [hadds.events, mem_foldl_tell_locked] at hmem
    rw [hadds.shows]
    exact hmem.imp_left hview
  · rw [hfrees.events, mem_foldl_tell_unlocked] at hmem
    rw [hfrees.shows]
    exact ⟨hview hmem.1, fun howner h => absurd ⟨howner, h⟩ hmem.2⟩

/-- What the editors miss after a section is what it frees although it stays listed. -/
theorem mem_foldl_tell_iff (hp : p.Resolved) (hcovered : t.Covered) (hs : p.edits t = .ok s)
    (hview : ∀ user resource, (user, resource) ∈ view ↔ t.Shows user resource) (user : User)
    (resource : Resource) :
    (user, resource) ∈ s.events.foldl Event.tell view ↔
      (s.result t).Shows user resource ∧ ¬ p.FreesShown t user resource := by
  rcases Plan.adds_or_frees hp hcovered hs with
    ⟨owner, resources, hadds, hnone⟩ | ⟨owner, resources, kept, hfrees, hfreed⟩
  · rw [hadds.events, mem_foldl_tell_locked, hadds.shows, hview,
      and_iff_left (hnone user resource)]
  · rw [hfrees.events, mem_foldl_tell_unlocked, hfrees.shows, hview, hfreed]
    tauto

theorem Plan.FreesShown.shows {user : User} {resource : Resource} (hp : p.Resolved)
    (hcovered : t.Covered) (hs : p.edits t = .ok s) (h : p.FreesShown t user resource) :
    (s.result t).Shows user resource := by
  rcases Plan.adds_or_frees hp hcovered hs with
    ⟨owner, resources, -, hnone⟩ | ⟨owner, resources, kept, hfrees, hfreed⟩
  · exact absurd h (hnone user resource)
  · obtain ⟨-, -, hkept⟩ := (hfreed user resource).1 h
    obtain ⟨-, other, -, -, hcovers⟩ := h
    exact (hfrees.shows user resource).2 ⟨⟨other, hcovers⟩, fun _ _ => hkept⟩

end Views

/-! ## Runs -/

/-- The call gives an editor lock up that covers, besides its root, something that another
editor lock of the same user covers. -/
def Call.FreesShown (t : Table) (c : Call) : Prop :=
  ∃ p user resource, c.plan? t = some p ∧ p.FreesShown t user resource

namespace Locks

/-- What a run without faults comes to, as far as the editors are concerned. -/
structure Sound (l : Locks) : Prop where
  quiet : l.Quiet
  consistent : l.table.Consistent
  honest : ∀ user resource, (user, resource) ∈ l.view → l.table.Shows user resource

theorem sound_fresh (settings : LockSettings) : (fresh settings).Sound where
  quiet := quiet_fresh settings
  consistent := ⟨Table.coherent_empty, Table.covered_empty⟩
  honest _ _ h := by simp [view, announced_fresh] at h

theorem Performed.view {l l' : Locks} {s : Section} (h : l.Performed l' s) :
    l'.view = s.events.foldl Event.tell l.view := by
  rw [Locks.view, h.announced, List.foldl_append, Locks.view]

theorem Sound.perform {l : Locks} (h : l.Sound) (c : Call) : (c.perform l).1.Sound := by
  rcases Call.performed_cases h.quiet c with ⟨p, s, hplan, hs, hperformed, -⟩ | ⟨-, hperformed⟩
  · have hp := Call.resolved_of_plan? hplan
    refine ⟨hperformed.quiet, ?_, fun user resource hmem => ?_⟩
    · rw [hperformed.table]
      exact h.consistent.result hp hs
    · rw [hperformed.view] at hmem
      rw [hperformed.table]
      exact shows_of_mem_foldl_tell hp h.consistent.covered hs (h.honest user resource) hmem
  · refine ⟨hperformed.quiet, ?_, fun user resource hmem => ?_⟩
    · rw [hperformed.table]
      exact h.consistent
    · rw [hperformed.view] at hmem
      rw [hperformed.table]
      exact h.honest user resource hmem

/-- From a truthful state a call leads to one unless it frees what stays shown. -/
theorem Sound.truthful_perform_iff {l : Locks} (h : l.Sound) (htruthful : l.Truthful) (c : Call) :
    (c.perform l).1.Truthful ↔ ¬ c.FreesShown l.table := by
  rw [truthful_iff] at htruthful ⊢
  rcases Call.performed_cases h.quiet c with
    ⟨p, s, hplan, hs, hperformed, -⟩ | ⟨hnone, hperformed⟩
  · have hp := Call.resolved_of_plan? hplan
    have hview := mem_foldl_tell_iff hp h.consistent.covered hs htruthful
    rw [hperformed.view, hperformed.table]
    constructor
    · rintro hafter ⟨q, user, resource, hq, hfrees⟩
      obtain rfl : p = q := Option.some.inj (hplan.symm.trans hq)
      have hshows := hfrees.shows hp h.consistent.covered hs
      exact ((hview user resource).1 ((hafter user resource).2 hshows)).2 hfrees
    · intro hfrees user resource
      rw [hview user resource, and_iff_left fun h => hfrees ⟨p, user, resource, hplan, h⟩]
  · rw [hperformed.view, hperformed.table]
    refine iff_of_true htruthful ?_
    -- a plan that gives a lock up would have been carried out
    rintro ⟨p, user, resource, hplan, root, other, hgives, -⟩
    obtain ⟨s, hs⟩ := hgives.edits
    exact (hnone p hplan).1 s hs

theorem Sound.serve {l : Locks} (h : l.Sound) (calls : List Call) : (l.serve calls).Sound := by
  induction calls generalizing l with
  | nil => exact h
  | cons c calls ih => exact ih (h.perform c)

theorem Sound.truthful_prefixes_iff {l : Locks} (h : l.Sound) (htruthful : l.Truthful)
    (calls : List Call) :
    (∀ before, before <+: calls → (l.serve before).Truthful) ↔
      ∀ before c, before ++ [c] <+: calls → ¬ c.FreesShown (l.serve before).table := by
  induction calls generalizing l with
  | nil =>
    constructor
    · intro _ before c hprefix
      simp at hprefix
    · intro _ before hprefix
      rw [List.prefix_nil.1 hprefix]
      exact htruthful
  | cons c calls ih =>
    have hstep := h.truthful_perform_iff htruthful c
    constructor
    · intro hall before d hprefix
      have hfirst : (c.perform l).1.Truthful := hall [c] (by simp)
      cases before with
      | nil =>
        obtain ⟨rfl, -⟩ := List.cons_prefix_cons.1 hprefix
        exact hstep.1 hfirst
      | cons b before =>
        obtain ⟨rfl, htail⟩ := List.cons_prefix_cons.1 hprefix
        refine (ih (h.perform b) hfirst).1 (fun before hbefore => ?_) before d htail
        exact hall (b :: before) (List.cons_prefix_cons.2 ⟨rfl, hbefore⟩)
    · intro hall before hprefix
      have hfirst : (c.perform l).1.Truthful := hstep.2 (hall [] c (by simp))
      cases before with
      | nil => exact htruthful
      | cons b before =>
        obtain ⟨rfl, htail⟩ := List.cons_prefix_cons.1 hprefix
        refine (ih (h.perform b) hfirst).2 (fun before d hbefore => ?_) before htail
        exact hall (b :: before) d (List.cons_prefix_cons.2 ⟨rfl, hbefore⟩)

theorem truthful_fresh (settings : LockSettings) : (fresh settings).Truthful := by
  have hview : (fresh settings).view = ∅ := by rw [view, announced_fresh, List.foldl_nil]
  rw [truthful_iff]
  intro user resource
  rw [hview]
  simp [fresh, Table.Shows, Table.Covers, Table.coverage?, Table.empty]

/-- The editors never show a lock that is not listed. They show all that is listed, after every
call of a run, just when no call of the run gives an editor lock up and frees by that what
another editor lock of the same user still covers. -/
theorem truthful_serve_iff (settings : LockSettings) (calls : List Call) :
    (∀ user resource, (user, resource) ∈ ((fresh settings).serve calls).view →
      ∃ resources, ((fresh settings).serve calls).table.shownLocks[user]? = some resources ∧
        resource ∈ resources) ∧
    ((∀ before, before <+: calls → ((fresh settings).serve before).Truthful) ↔
      ∀ before c, before ++ [c] <+: calls →
        ¬ c.FreesShown ((fresh settings).serve before).table) := by
  have hsound := sound_fresh settings
  refine ⟨fun user resource hmem => ?_, ?_⟩
  · exact Table.mem_shownLocks.2 ((hsound.serve calls).honest user resource hmem)
  · exact hsound.truthful_prefixes_iff (truthful_fresh settings) calls

/-- Two action points of a project. -/
def actionPoints : Graph :=
  (Graph.withRoots.insert "ap_1" (some Resource.project)).insert "ap_2" (some Resource.project)

/-- Alice locks the trees around both action points, then unlocks the first. -/
def firstOfTwo : List Call :=
  [.lock actionPoints 0 "ap_1" "alice" true, .lock actionPoints 0 "ap_2" "alice" true,
    .unlock "ap_1" "alice"]

/-- The tree around the second action point still covers the project, which is told to be free. -/
example :
    ("alice", Resource.project) ∉ ((fresh {}).serve firstOfTwo).view ∧
    (((fresh {}).serve firstOfTwo).table.shownLocks["alice"]?.any
      (·.contains Resource.project)) := by
  decide +kernel

end Locks

end SceneLocks
