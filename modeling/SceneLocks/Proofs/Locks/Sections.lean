import SceneLocks.Proofs.Locks.Calls
import SceneLocks.Proofs.Locks.Entries

/-!
# What a section does

One structure for each kind of section: what the section found in the table when it was
worked out, what it changes in the entries and in the coverage of the editor locks, and what
it announces. Later proofs read these and never open a section.
-/

namespace SceneLocks

/-! ## Values of a map -/

theorem values_eq_map_snd_toList {α β : Type} {cmp : α → α → Ordering} [Std.TransCmp cmp]
    (m : Std.ExtTreeMap α β cmp) : m.values = m.toList.map (·.2) := by
  obtain ⟨⟨inner⟩⟩ := m
  induction inner using Quotient.inductionOn with
  | h t =>
    change t.inner.values = (Std.DTreeMap.Internal.Impl.Const.toList t.inner).map (·.2)
    simp [Std.DTreeMap.Internal.Impl.values_eq_map_snd,
      Std.DTreeMap.Internal.Impl.Const.toList_eq_toListModel_map]

theorem mem_values {β : Type} {m : Std.ExtTreeMap String β} {b : β} :
    b ∈ m.values ↔ ∃ key : String, m[key]? = some b := by
  rw [values_eq_map_snd_toList, List.mem_map]
  simp [Prod.exists, Std.ExtTreeMap.mem_toList_iff_getElem?_eq_some]

namespace Table

/-! ## Who owns and who shows what -/

theorem mem_ownedBy {t : Table} {owner : User} {resource : Resource} :
    resource ∈ t.ownedBy owner ↔ ∃ e, t.lookup? resource = some e ∧ e.isOwnedBy owner := by
  unfold ownedBy lookup?
  rw [Std.ExtTreeMap.mem_keys, Std.ExtTreeMap.mem_iff_isSome_getElem?,
    Std.ExtTreeMap.getElem?_filter']
  cases t.entries[resource]? with
  | none => simp
  | some e => simp [Option.filter]

theorem nodup_ownedBy (t : Table) (owner : User) : (t.ownedBy owner).Nodup :=
  Std.ExtTreeMap.nodup_keys

/-- A user's editor lock on `root` covers `resource`. -/
def Covers (t : Table) (user : User) (root resource : Resource) : Prop :=
  ∃ covered, t.coverage? user root = some covered ∧ resource ∈ covered

theorem mem_getD_coverage {t : Table} {user : User} {root resource : Resource} :
    resource ∈ (t.coverage? user root).getD ∅ ↔ t.Covers user root resource := by
  unfold Covers
  cases t.coverage? user root <;> simp

/-- Some editor lock of the user covers the resource. -/
def Shows (t : Table) (user : User) (resource : Resource) : Prop :=
  ∃ root, t.Covers user root resource

theorem mem_foldl_union {sets : List (Std.ExtTreeSet Resource)} {init : Std.ExtTreeSet Resource}
    {resource : Resource} :
    resource ∈ sets.foldl (· ∪ ·) init ↔ resource ∈ init ∨ ∃ set ∈ sets, resource ∈ set := by
  induction sets generalizing init with
  | nil => simp
  | cons set sets ih => simp [ih, Std.ExtTreeSet.mem_union_iff, or_assoc]

theorem mem_union {coverage : Coverage} {resource : Resource} :
    resource ∈ Coverage.union coverage ↔
      ∃ (root : Resource) (covered : _), coverage[root]? = some covered ∧ resource ∈ covered := by
  unfold Coverage.union
  rw [mem_foldl_union]
  simp only [Std.ExtTreeSet.not_mem_empty, false_or, mem_values]
  constructor
  · rintro ⟨covered, ⟨root, hroot⟩, hmem⟩
    exact ⟨root, covered, hroot, hmem⟩
  · rintro ⟨root, covered, hroot, hmem⟩
    exact ⟨covered, ⟨root, hroot⟩, hmem⟩

theorem mem_shownBy {t : Table} {user : User} {resource : Resource} :
    resource ∈ t.shownBy user ↔ t.Shows user resource := by
  unfold shownBy Shows Covers coverage?
  cases t.shown[user]? with
  | none => simp
  | some c => simp [mem_union]

/-- What is shown for each user is what the user's editor locks cover together. -/
theorem mem_shownLocks {t : Table} {user : User} {resource : Resource} :
    (∃ resources, t.shownLocks[user]? = some resources ∧ resource ∈ resources) ↔
      t.Shows user resource := by
  rw [← mem_shownBy]
  unfold shownLocks shownBy
  rw [Std.ExtTreeMap.getElem?_map]
  cases t.shown[user]? <;> simp

theorem lookup?_foldl_revokeAll {owner : User} {resources : List Resource}
    (hnodup : resources.Nodup) (t : Table) (resource : Resource) :
    (resources.foldl (fun t r => t.revokeAll r owner) t).lookup? resource =
      if resource ∈ resources then (t.lookup? resource).bind fun e => (e.removeAll owner).keepOwned
      else t.lookup? resource := by
  induction resources generalizing t with
  | nil => simp
  | cons r resources ih =>
    obtain ⟨hr, hnodup⟩ := List.nodup_cons.1 hnodup
    rw [List.foldl_cons, ih hnodup, lookup?_revokeAll]
    rcases eq_or_ne r resource with rfl | hne
    · simp [hr]
    · simp [hne, hne.symm]

end Table

namespace Section

@[simp] theorem events_cons (edit : Edit) (s : Section) :
    Section.events (edit :: s) = edit.event?.toList ++ s.events := by
  unfold events
  rw [List.filterMap_cons]
  cases edit.event? <;> rfl

@[simp] theorem events_map_revokeAll (resources : List Resource) (owner : User) :
    Section.events (resources.map (.revokeAll · owner)) = [] := by
  simp [events, List.filterMap_map, Function.comp_def, Edit.event?]

theorem result_map_revokeAll (resources : List Resource) (owner : User) (t : Table) :
    Section.result (resources.map (.revokeAll · owner)) t =
      resources.foldl (fun t r => t.revokeAll r owner) t := by
  simp [result, List.foldl_map, Edit.apply]

end Section

/-! ## Grants -/

/-- What a granted request found and what it did. -/
structure Granted (t : Table) (whole : Bool) (scope : Scope) (r : Request) (s : Section) :
    Prop where
  wholeFree : whole = true → t.wholeConflict? = none
  free : t.conflict? scope r.mode r.tree = none
  lookup? : ∀ x, (s.result t).lookup? x =
    if r.resource = x then
      some ((t.lookup? x).elim (.first x r.mode r.owner r.tree) (·.add r.owner))
    else t.lookup? x
  coverage? : ∀ u x, (s.result t).coverage? u x =
    if r.visibility = .ui ∧ r.owner = u ∧ r.resource = x then
      some (Table.coverageOf scope r.resource r.tree)
    else t.coverage? u x
  events : s.events =
    if r.visibility = .ui then
      (Table.coverageOf scope r.resource r.tree).toList.map (.locked · r.owner)
    else []

theorem granted_of_granting {t : Table} {whole : Bool} {scope : Scope} {r : Request} {s : Section}
    (h : t.granting whole scope r = .ok s) : Granted t whole scope r s := by
  unfold Table.granting at h
  split at h
  · simp at h
  · next hfree =>
    rw [Option.or_eq_none_iff] at hfree
    have hwhole : whole = true → t.wholeConflict? = none := by
      rintro rfl
      exact hfree.1
    cases hv : r.visibility with
    | internal =>
      simp only [hv, Except.ok.injEq] at h
      subst h
      refine ⟨hwhole, hfree.2, fun x => ?_, fun u x => ?_, ?_⟩
      · exact Table.lookup?_grant t r.resource x r.mode r.owner r.tree
      · simp [Edit.apply, hv]
      · simp [Edit.event?, hv]
    | ui =>
      simp only [hv, Except.ok.injEq] at h
      subst h
      refine ⟨hwhole, hfree.2, fun x => ?_, fun u x => ?_, ?_⟩
      · simp [Edit.apply, Table.lookup?_grant]
      · simp [Edit.apply, Table.coverage?_cover, hv]
      · simp [Edit.event?, hv]

/-! ## Releases -/

/-- What a release found and what it did; `e` is the entry found. -/
structure Released (t : Table) (resource : Resource) (owner : User) (e : Entry) (s : Section) :
    Prop where
  found : t.lookup? resource = some e
  owned : e.isOwnedBy owner
  lookup? : ∀ x, (s.result t).lookup? x =
    if resource = x then (e.remove owner).keepOwned else t.lookup? x
  coverage? : ∀ u x, (s.result t).coverage? u x =
    if e.grants owner ≤ 1 ∧ owner = u ∧ resource = x then none else t.coverage? u x
  events : s.events =
    if e.grants owner ≤ 1 then
      ((t.coverage? owner resource).getD ∅).toList.map (.unlocked · owner)
    else []

theorem released_of_releasing {t : Table} {resource : Resource} {owner : User} {s : Section}
    (h : t.releasing resource owner = .ok s) : ∃ e, Released t resource owner e s := by
  unfold Table.releasing at h
  split at h
  · simp at h
  · next e hfound =>
    split at h
    · next howned =>
      by_cases hlast : e.grants owner ≤ 1
      · simp only [if_pos hlast, Except.ok.injEq] at h
        subst h
        refine ⟨e, hfound, howned, fun x => ?_, fun u x => ?_, ?_⟩
        · simp only [Edit.apply, Section.result_cons, Section.result_announceAll,
            Table.lookup?_uncover, Table.lookup?_revoke]
          split
          · next hx => simp [← hx, hfound]
          · rfl
        · simp [Edit.apply, Table.coverage?_uncover, hlast]
        · simp [Edit.event?, hlast]
      · simp only [if_neg hlast, Except.ok.injEq] at h
        subst h
        refine ⟨e, hfound, howned, fun x => ?_, fun u x => ?_, ?_⟩
        · simp only [Edit.apply, Section.result_cons, Section.result_nil, Table.lookup?_revoke]
          split
          · next hx => simp [← hx, hfound]
          · rfl
        · simp [Edit.apply, hlast]
        · simp [Edit.event?, hlast]
    · simp at h

/-- A release leaves only entries that were there before. -/
theorem Released.before {t : Table} {resource : Resource} {owner : User} {e : Entry} {s : Section}
    (hs : Released t resource owner e s) {x : Resource} {e' : Entry}
    (h : (s.result t).lookup? x = some e') :
    ∃ e, t.lookup? x = some e ∧ e'.mode = e.mode ∧ e'.tree = e.tree := by
  rw [hs.lookup?] at h
  split at h
  · next hx =>
    obtain ⟨rfl, -⟩ := Entry.keepOwned_eq_some_iff.1 h
    exact ⟨e, hx ▸ hs.found, rfl, rfl⟩
  · exact ⟨e', h, rfl, rfl⟩

/-- What a reclamation did. -/
structure Reclaimed (t : Table) (owner : User) (s : Section) : Prop where
  lookup? : ∀ x, (s.result t).lookup? x = (t.lookup? x).bind fun e =>
    if e.isOwnedBy owner then (e.removeAll owner).keepOwned else some e
  coverage? : ∀ u x, (s.result t).coverage? u x = if owner = u then none else t.coverage? u x
  events : s.events = (t.shownBy owner).toList.map (.unlocked · owner)

/-- Taking grants back is of no concern to the editor locks. -/
theorem Table.shown_reclaiming (t : Table) (owner : User) :
    ((t.reclaiming owner).result t).shown = t.shown.erase owner := by
  have hrevoke : ∀ (resources : List Resource) (t : Table),
      (resources.foldl (fun t r => t.revokeAll r owner) t).shown = t.shown := by
    intro resources
    induction resources with
    | nil => exact fun _ => rfl
    | cons r resources ih => exact fun t => ih (t.revokeAll r owner)
  simp [reclaiming, Section.result_map_revokeAll, Edit.apply, uncoverAll, hrevoke]

theorem reclaimed_reclaiming (t : Table) (owner : User) :
    Reclaimed t owner (t.reclaiming owner) := by
  refine ⟨fun x => ?_, fun u x => ?_, ?_⟩
  · unfold Table.reclaiming
    simp only [Section.result_append, Section.result_cons, Section.result_announceAll,
      Section.result_map_revokeAll, Edit.apply, Table.lookup?_uncoverAll,
      Table.lookup?_foldl_revokeAll (t.nodup_ownedBy owner), Table.mem_ownedBy]
    cases t.lookup? x with
    | none => simp
    | some e => simp
  · rw [Table.coverage?, Table.shown_reclaiming, Std.ExtTreeMap.getElem?_erase, Table.coverage?]
    simp only [Std.LawfulEqOrd.compare_eq_iff_eq]
    split <;> rfl
  · simp [Table.reclaiming, Edit.event?]

/-- A reclamation leaves only entries that were there before. -/
theorem Reclaimed.before {t : Table} {owner : User} {s : Section} (hs : Reclaimed t owner s)
    {x : Resource} {e' : Entry} (h : (s.result t).lookup? x = some e') :
    ∃ e, t.lookup? x = some e ∧ e'.mode = e.mode ∧ e'.tree = e.tree := by
  rw [hs.lookup?] at h
  obtain ⟨e, he, h⟩ := Option.bind_eq_some_iff.1 h
  refine ⟨e, he, ?_⟩
  split at h
  · obtain ⟨rfl, -⟩ := Entry.keepOwned_eq_some_iff.1 h
    exact ⟨rfl, rfl⟩
  · obtain rfl := Option.some.inj h
    exact ⟨rfl, rfl⟩

/-! ## Updates -/

/-- What an update of the entry `e` did: it set whether the lock covers the tree, and an editor
lock of the owner on the resource, if there is one, now covers `covered`. -/
structure Resized (t : Table) (resource : Resource) (owner : User) (e : Entry) (tree : Bool)
    (covered : Std.ExtTreeSet Resource) (s : Section) : Prop where
  found : t.lookup? resource = some e
  exclusive : e.mode = .exclusive
  owned : e.isOwnedBy owner
  changed : e.tree = !tree
  lookup? : ∀ x, (s.result t).lookup? x =
    if resource = x then some { e with tree } else t.lookup? x
  coverage? : ∀ u x, (s.result t).coverage? u x =
    if owner = u ∧ resource = x then (t.coverage? owner resource).map fun _ => covered
    else t.coverage? u x

/-- What an extension to the tree found and what it did. -/
structure Extended (t : Table) (scope : Scope) (owner : User) (e : Entry) (s : Section) : Prop
    extends Resized t scope.resource owner e true scope.coverage s where
  free : t.lockedRelative? scope = none
  events : s.events = (t.coverage? owner scope.resource).elim [] fun previous =>
    (scope.coverage \ previous).toList.map (.locked · owner)

/-- What a shrinking to the object found and what it did. -/
structure Shrunk (t : Table) (scope : Scope) (owner : User) (e : Entry) (s : Section) : Prop
    extends Resized t scope.resource owner e false {scope.resource} s where
  events : s.events = (t.coverage? owner scope.resource).elim [] fun previous =>
    (previous.erase scope.resource).toList.map (.unlocked · owner)

/-- Both updates set the flag, and have an editor lock announced and recorded anew. -/
theorem resized_setTree {t : Table} {resource : Resource} {owner : User} {e : Entry}
    {s : Section} (tree : Bool) (covered : Std.ExtTreeSet Resource) (event : Resource → Event)
    (told : Std.ExtTreeSet Resource → Std.ExtTreeSet Resource)
    (hfound : t.lookup? resource = some e) (hexclusive : e.mode = .exclusive)
    (howned : e.isOwnedBy owner) (hchanged : e.tree = !tree)
    (hs : s = .setTree resource tree :: (t.coverage? owner resource).elim [] fun previous =>
      Section.announceAll event (told previous) ++ [.cover owner resource covered]) :
    Resized t resource owner e tree covered s ∧
    s.events = (t.coverage? owner resource).elim [] fun previous =>
      (told previous).toList.map event := by
  cases hc : t.coverage? owner resource with
  | none =>
    simp only [hc, Option.elim] at hs
    subst hs
    refine ⟨⟨hfound, hexclusive, howned, hchanged, fun x => ?_, fun u x => ?_⟩, rfl⟩
    · simp only [Edit.apply, Section.result_cons, Section.result_nil, Table.lookup?_setTree]
      split
      · next hx => simp [← hx, hfound]
      · rfl
    · simp only [Edit.apply, Section.result_cons, Section.result_nil, Table.coverage?_setTree]
      split
      · next hx => rw [← hx.1, ← hx.2, hc, Option.map_none]
      · rfl
  | some previous =>
    simp only [hc, Option.elim] at hs
    subst hs
    refine ⟨⟨hfound, hexclusive, howned, hchanged, fun x => ?_, fun u x => ?_⟩, ?_⟩
    · simp only [Edit.apply, Section.result_cons, Section.result_append,
        Section.result_announceAll, Section.result_nil, Table.lookup?_cover,
        Table.lookup?_setTree]
      split
      · next hx => simp [← hx, hfound]
      · rfl
    · simp only [Edit.apply, Section.result_cons, Section.result_append,
        Section.result_announceAll, Section.result_nil, Table.coverage?_cover,
        Table.coverage?_setTree]
      rw [hc, Option.map_some]
    · simp [Edit.event?]

theorem extended_of_extending {t : Table} {scope : Scope} {owner : User} {e : Entry} {s : Section}
    (hfound : t.lookup? scope.resource = some e) (hexclusive : e.mode = .exclusive)
    (howned : e.isOwnedBy owner) (h : t.extending scope owner e = .ok s) :
    Extended t scope owner e s := by
  unfold Table.extending at h
  split at h
  · simp at h
  · next hplain =>
    split at h
    · simp at h
    · next hfree =>
      simp only [Except.ok.injEq] at h
      have hs : s = .setTree scope.resource true ::
          (t.coverage? owner scope.resource).elim [] fun previous =>
            Section.announceAll (.locked · owner) (scope.coverage \ previous) ++
              [.cover owner scope.resource scope.coverage] := by
        rw [← h]
        cases t.coverage? owner scope.resource <;> rfl
      obtain ⟨hresized, hevents⟩ := resized_setTree true scope.coverage (.locked · owner)
        (scope.coverage \ ·) hfound hexclusive howned (by simpa using hplain) hs
      exact { hresized with free := hfree, events := hevents }

theorem shrunk_of_shrinking {t : Table} {scope : Scope} {owner : User} {e : Entry} {s : Section}
    (hfound : t.lookup? scope.resource = some e) (hexclusive : e.mode = .exclusive)
    (howned : e.isOwnedBy owner) (h : t.shrinking scope owner e = .ok s) :
    Shrunk t scope owner e s := by
  unfold Table.shrinking at h
  split at h
  · next htree =>
    simp only [Except.ok.injEq] at h
    have hs : s = .setTree scope.resource false ::
        (t.coverage? owner scope.resource).elim [] fun previous =>
          Section.announceAll (.unlocked · owner) (previous.erase scope.resource) ++
            [.cover owner scope.resource {scope.resource}] := by
      rw [← h]
      cases t.coverage? owner scope.resource <;> rfl
    obtain ⟨hresized, hevents⟩ := resized_setTree false {scope.resource} (.unlocked · owner)
      (·.erase scope.resource) hfound hexclusive howned (by simpa using htree) hs
    exact { hresized with events := hevents }
  · simp at h

/-- What an update of an entry comes to. -/
def Updated (t : Table) (scope : Scope) (owner : User) (e : Entry) (s : Section) :
    UpdateKind → Prop
  | .tree => Extended t scope owner e s
  | .object => Shrunk t scope owner e s

/-- Either way the flag is set, and an editor lock on the entry comes to cover its resource, and
nothing else unless the entry covers its tree. -/
theorem Updated.resized {t : Table} {scope : Scope} {owner : User} {e : Entry} {s : Section}
    {kind : UpdateKind} (h : Updated t scope owner e s kind) :
    ∃ tree covered, Resized t scope.resource owner e tree covered s ∧
      scope.resource ∈ covered ∧ (tree = false → covered = {scope.resource}) := by
  cases kind with
  | tree => exact ⟨true, scope.coverage, h.toResized, by simp, nofun⟩
  | object => exact ⟨false, {scope.resource}, h.toResized, by simp, fun _ => rfl⟩

theorem updated_of_updating {t : Table} {scope : Scope} {owner : User} {kind : UpdateKind}
    {s : Section} (h : t.updating scope owner kind = .ok s) :
    ∃ e, Updated t scope owner e s kind := by
  unfold Table.updating at h
  split at h
  · simp at h
  · next e hfound =>
    split at h
    · next hown =>
      cases kind with
      | tree => exact ⟨e, extended_of_extending hfound hown.1 hown.2 h⟩
      | object => exact ⟨e, shrunk_of_shrinking hfound hown.1 hown.2 h⟩
    · simp at h

/-! ## Plans -/

/-- What the section of a plan comes to. -/
def Plan.Done (t : Table) (s : Section) : Plan → Prop
  | .grant whole scope r => Granted t whole scope r s
  | .release resource owner => ∃ e, Released t resource owner e s
  | .reclaim owner => Reclaimed t owner s
  | .update scope owner kind => ∃ e, Updated t scope owner e s kind

theorem Plan.done_of_edits {t : Table} {p : Plan} {s : Section} (h : p.edits t = .ok s) :
    p.Done t s := by
  cases p with
  | grant whole scope r => exact granted_of_granting h
  | release resource owner => exact released_of_releasing h
  | reclaim owner =>
    simp only [Plan.edits, Except.ok.injEq] at h
    exact h ▸ reclaimed_reclaiming t owner
  | update scope owner kind => exact updated_of_updating h

end SceneLocks
