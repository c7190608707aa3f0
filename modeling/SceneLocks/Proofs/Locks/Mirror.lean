import Mathlib.Data.List.Induction
import SceneLocks.Proofs.Locks.Coverage

/-!
# The record of the editor locks

The table keeps, beside its entries, what the editors show for each user. The two are changed by
separate edits, yet after every run the record tells just the editor locks that are still held
(`mirrored_run`): a lock is in it as long as its user has been an owner since a grant that the
editors were told of, and it covers the resource alone, or the tree as it was looked up for the
grant or the update that locked it.
-/

namespace SceneLocks

/-! ## What happened since -/

/-- The step performs the section of a plan, and the plan is of the given kind. -/
def Step.Performs (l : Locks) (Such : Plan → Prop) (step : Step) : Prop :=
  ∃ c p, step = .call c ∧ c.plan? l.table = some p ∧ (c.perform l).2.isSuccess = true ∧ Such p

/-- A step performs the section of one plan, or changes nothing in the table. -/
theorem Step.performs_cases (l : Locks) (step : Step) :
    (∃ (p : Plan) (s : Section), p.Resolved ∧ p.edits l.table = .ok s ∧
      (step.perform l).table = s.result l.table ∧ ∀ Such, step.Performs l Such ↔ Such p) ∨
    ((step.perform l).table = l.table ∧ ∀ Such, ¬ step.Performs l Such) := by
  rcases step.perform_cases l with ⟨c, p, s, rfl, hplan, hs, hdone, htable⟩ | ⟨htable, hfailed⟩
  · refine .inl ⟨p, s, Call.resolved_of_plan? hplan, hs, htable, ?_⟩
    intro Such
    constructor
    · rintro ⟨_, q, ⟨⟩, hq, -, hsuch⟩
      obtain rfl := Option.some.inj (hplan.symm.trans hq)
      exact hsuch
    · exact fun hsuch => ⟨c, p, rfl, hplan, hdone, hsuch⟩
  · refine .inr ⟨htable, ?_⟩
    rintro Such ⟨c, p, hstep, hplan, hdone, -⟩
    rw [hfailed c p hstep hplan] at hdone
    contradiction

namespace Locks

/-- Some step of the run performed a plan of this kind, and from then on, in the state after that
step and in every later one, the table has had this property. -/
def Since (l : Locks) (steps : List Step) (Such : Plan → Prop) (Lasts : Table → Prop) : Prop :=
  ∃ before step after, steps = before ++ step :: after ∧ step.Performs (l.run before) Such ∧
    ∀ later, later <+: after → Lasts (l.run (before ++ step :: later)).table

variable {l : Locks} {steps : List Step} {Such : Plan → Prop} {Lasts : Table → Prop}

theorem run_snoc (l : Locks) (steps : List Step) (step : Step) :
    l.run (steps ++ [step]) = step.perform (l.run steps) := by
  rw [run, List.foldl_append]
  rfl

theorem not_since_nil : ¬ l.Since [] Such Lasts := by
  rintro ⟨before, step, after, h, -⟩
  simp at h

theorem Since.lasts (h : l.Since steps Such Lasts) : Lasts (l.run steps).table := by
  obtain ⟨before, step, after, rfl, -, hlasts⟩ := h
  exact hlasts after (List.prefix_refl after)

/-- One more step performs such a plan, or one was performed before; either way the property
holds now. -/
theorem since_snoc {step : Step} :
    l.Since (steps ++ [step]) Such Lasts ↔
      Lasts (step.perform (l.run steps)).table ∧
        (l.Since steps Such Lasts ∨ step.Performs (l.run steps) Such) := by
  constructor
  · intro h
    refine ⟨l.run_snoc steps step ▸ h.lasts, ?_⟩
    obtain ⟨before, first, after, hsteps, hperforms, hlasts⟩ := h
    rcases List.eq_nil_or_concat after with rfl | ⟨earlier, last, rfl⟩
    · obtain ⟨rfl, hfirst⟩ := List.append_inj' hsteps rfl
      obtain rfl := (List.cons.inj hfirst).1
      exact .inr hperforms
    · rw [List.concat_eq_append, ← List.cons_append, ← List.append_assoc] at hsteps
      obtain ⟨rfl, -⟩ := List.append_inj' hsteps rfl
      refine .inl ⟨before, first, earlier, rfl, hperforms, fun later hlater => hlasts later ?_⟩
      rw [List.concat_eq_append]
      exact hlater.trans (List.prefix_append earlier [last])
  · rintro ⟨hnow, ⟨before, first, after, rfl, hperforms, hlasts⟩ | hperforms⟩
    · refine ⟨before, first, after ++ [step], by simp, hperforms, fun later hlater => ?_⟩
      rcases List.prefix_concat_iff.1 hlater with rfl | hlater
      · rw [← List.cons_append, ← List.append_assoc, run_snoc]
        exact hnow
      · exact hlasts later hlater
    · refine ⟨steps, step, [], rfl, hperforms, fun later hlater => ?_⟩
      obtain rfl := List.prefix_nil.1 hlater
      rw [run_snoc]
      exact hnow

end Locks

/-! ## Plans that the record goes by -/

/-- The plan grants the user the resource, and the editors are told. -/
def Plan.ShowsGrant (user : User) (root : Resource) : Plan → Prop
  | .grant _ _ r => r.visibility = .ui ∧ r.owner = user ∧ r.resource = root
  | _ => False

/-- The plan locks the tree of the scope for the user: it grants the tree, or extends a lock to
it. -/
def Plan.LocksTree (user : User) (root : Resource) (scope : Scope) : Plan → Prop
  | .grant _ looked r => looked = scope ∧ r.tree = true ∧ r.owner = user ∧ r.resource = root
  | .update looked owner .tree => looked = scope ∧ owner = user ∧ looked.resource = root
  | _ => False

namespace Table

/-- The user has a part in the resource. -/
def Owned (user : User) (root : Resource) (t : Table) : Prop :=
  ∃ e, t.lookup? root = some e ∧ e.isOwnedBy user

/-- The user has a part in the resource, and the lock covers its tree. -/
def OwnedTree (user : User) (root : Resource) (t : Table) : Prop :=
  ∃ e, t.lookup? root = some e ∧ e.isOwnedBy user ∧ e.tree = true

variable {t : Table} {s : Section} {user : User} {root : Resource}

theorem Covered.owned (h : t.Covered) (hshown : (t.coverage? user root).isSome) :
    t.Owned user root := by
  obtain ⟨covered, hcovered⟩ := Option.isSome_iff_exists.1 hshown
  obtain ⟨-, e, he, howned, -⟩ := h user root covered hcovered
  exact ⟨e, he, howned⟩

theorem Covered.coverage?_eq_none (h : t.Covered) (hunowned : ¬ t.Owned user root) :
    t.coverage? user root = none :=
  Option.not_isSome_iff_eq_none.1 (mt h.owned hunowned)

/-! ## Presence in the record -/

theorem not_owned_released {resource : Resource} {owner : User} {found : Entry}
    (hs : Released t resource owner found s) (hlast : found.grants owner ≤ 1) :
    ¬ (s.result t).Owned owner resource := by
  rintro ⟨e, he, howned⟩
  rw [hs.lookup?, if_pos rfl] at he
  obtain ⟨rfl, -⟩ := Entry.keepOwned_eq_some_iff.1 he
  exact Nat.not_lt.2 hlast ((Entry.isOwnedBy_remove.1 howned).2 rfl)

theorem not_owned_reclaimed {owner : User} (hs : Reclaimed t owner s) (root : Resource) :
    ¬ (s.result t).Owned owner root := by
  rintro ⟨e, he, howned⟩
  rw [hs.lookup?] at he
  obtain ⟨found, -, he⟩ := Option.bind_eq_some_iff.1 he
  split at he
  · obtain ⟨rfl, -⟩ := Entry.keepOwned_eq_some_iff.1 he
    exact (Entry.isOwnedBy_removeAll.1 howned).1 rfl
  · next hother =>
    obtain rfl := Option.some.inj he
    exact hother howned

/-- After a section an owner's lock is recorded if it was before, or if the section granted it
and told the editors. -/
theorem isSome_coverage?_result {p : Plan} (hcoherent : t.Coherent) (hp : p.Resolved)
    (hcovered : t.Covered) (hs : p.edits t = .ok s) :
    ((s.result t).coverage? user root).isSome ↔
      (s.result t).Owned user root ∧
        ((t.coverage? user root).isSome ∨ p.ShowsGrant user root) := by
  have hafter : ((s.result t).coverage? user root).isSome → (s.result t).Owned user root :=
    (hcovered.result hp hcoherent hs).owned
  have hdone := Plan.done_of_edits hs
  -- an owner after the section is one whose lock the section did not drop from the record
  rw [← and_iff_right_of_imp hafter]
  refine and_congr_right fun howned => ?_
  cases p with
  | grant whole scope r =>
    have hgranted : Granted t whole scope r s := hdone
    rw [hgranted.coverage?, Plan.ShowsGrant]
    split
    · next hnew => exact iff_of_true rfl (.inr hnew)
    · next hnew => rw [or_iff_left hnew]
  | release resource owner =>
    obtain ⟨found, hreleased⟩ := hdone
    have hinternal : ¬ (Plan.release resource owner).ShowsGrant user root := id
    rw [hreleased.coverage?, or_iff_left hinternal]
    split
    · next hlost =>
      obtain ⟨hlast, rfl, rfl⟩ := hlost
      exact absurd howned (not_owned_released hreleased hlast)
    · rfl
  | reclaim owner =>
    have hreclaimed : Reclaimed t owner s := hdone
    have hinternal : ¬ (Plan.reclaim owner).ShowsGrant user root := id
    rw [hreclaimed.coverage?, or_iff_left hinternal]
    split
    · next hlost =>
      subst hlost
      exact absurd howned (not_owned_reclaimed hreclaimed root)
    · rfl
  | update scope owner kind =>
    obtain ⟨found, hupdated⟩ := hdone
    obtain ⟨tree, covered, hresized, -, -⟩ := hupdated.resized
    have hinternal : ¬ (Plan.update scope owner kind).ShowsGrant user root := id
    rw [hresized.coverage?, or_iff_left hinternal]
    split
    · next hupdate => rw [Option.isSome_map, hupdate.1, hupdate.2]
    · rfl

/-! ## Trees in the record -/

/-- A plan that locks a tree finds it unlocked, and records the coverage of its scope if it
records the lock at all. -/
theorem coverage?_of_locksTree {p : Plan} {scope : Scope} (hp : p.Resolved)
    (hcovered : t.Covered) (hs : p.edits t = .ok s) (htree : p.LocksTree user root scope) :
    ¬ t.OwnedTree user root ∧ ∀ covered, (s.result t).coverage? user root = some covered →
      covered = scope.coverage := by
  have hdone := Plan.done_of_edits hs
  cases p with
  | grant whole looked r =>
    obtain ⟨rfl, htree, rfl, rfl⟩ := htree
    have hgranted : Granted t whole looked r s := hdone
    -- a tree is granted only where there is no entry yet, hence nothing recorded
    have hnone : t.lookup? r.resource = none := by
      obtain ⟨hown, -⟩ := conflict?_eq_none_iff.1 hgranted.free
      rw [Option.eq_none_iff_forall_ne_some]
      intro e he
      obtain ⟨-, -, -, hplain⟩ := hown e ((hp : looked.resource = r.resource) ▸ he)
      rw [htree] at hplain
      cases hplain
    constructor
    · rintro ⟨e, he, -⟩
      rw [hnone] at he
      cases he
    · intro covered hnow
      rw [hgranted.coverage?] at hnow
      split at hnow
      · rw [coverageOf, if_pos htree] at hnow
        exact (Option.some.inj hnow).symm
      · obtain ⟨-, e, he, -⟩ := hcovered r.owner r.resource covered hnow
        rw [hnone] at he
        cases he
  | release => exact htree.elim
  | reclaim => exact htree.elim
  | update looked owner kind =>
    cases kind with
    | object => exact htree.elim
    | tree =>
      obtain ⟨rfl, rfl, rfl⟩ := htree
      obtain ⟨found, hextended⟩ := hdone
      have hextended : Extended t looked owner found s := hextended
      constructor
      · rintro ⟨e, he, -, htree⟩
        obtain rfl := Option.some.inj (hextended.found.symm.trans he)
        rw [hextended.changed] at htree
        cases htree
      · intro covered hnow
        rw [hextended.coverage?, if_pos ⟨rfl, rfl⟩] at hnow
        obtain ⟨-, -, rfl⟩ := Option.map_eq_some_iff.1 hnow
        rfl

/-- A plan that does not lock the user's tree leaves a locked tree and its record as they
were. -/
theorem coverage?_of_not_locksTree {p : Plan} (hp : p.Resolved) (hcoherent : t.Coherent)
    (hs : p.edits t = .ok s) (hother : ∀ scope, ¬ p.LocksTree user root scope)
    (howned : (s.result t).OwnedTree user root) :
    t.OwnedTree user root ∧ (s.result t).coverage? user root = t.coverage? user root := by
  have hdone := Plan.done_of_edits hs
  obtain ⟨e, he, howner, htree⟩ := howned
  cases p with
  | grant whole looked r =>
    have hgranted : Granted t whole looked r s := hdone
    rw [hgranted.lookup?] at he
    rw [hgranted.coverage?]
    split at he
    · next hx =>
      -- an entry that was there is plain, and a new one is a tree of its owner only if asked for
      exfalso
      subst hx
      obtain ⟨hown, -⟩ := conflict?_eq_none_iff.1 hgranted.free
      cases hfound : t.lookup? r.resource with
      | some found =>
        obtain ⟨-, -, hplain, -⟩ := hown found ((hp : looked.resource = r.resource) ▸ hfound)
        obtain rfl : found.add r.owner = e := by simpa [hfound] using he
        exact absurd (hplain.symm.trans htree) nofun
      | none =>
        obtain rfl : .first r.resource r.mode r.owner r.tree = e := by simpa [hfound] using he
        exact hother looked ⟨rfl, htree, (Entry.isOwnedBy_first ..).1 howner, rfl⟩
    · next hx => exact ⟨⟨e, he, howner, htree⟩, if_neg fun h => hx h.2.2⟩
  | release resource owner =>
    obtain ⟨found, hreleased⟩ := hdone
    have hkept : ¬ (found.grants owner ≤ 1 ∧ owner = user ∧ resource = root) := by
      rintro ⟨hlast, rfl, rfl⟩
      exact not_owned_released hreleased hlast ⟨e, he, howner⟩
    rw [hreleased.coverage?, if_neg hkept]
    refine ⟨?_, rfl⟩
    rw [hreleased.lookup?] at he
    split at he
    · next hx =>
      obtain ⟨rfl, -⟩ := Entry.keepOwned_eq_some_iff.1 he
      exact ⟨found, hx ▸ hreleased.found, (Entry.isOwnedBy_remove.1 howner).1, htree⟩
    · exact ⟨e, he, howner, htree⟩
  | reclaim owner =>
    have hreclaimed : Reclaimed t owner s := hdone
    have hkept : owner ≠ user := by
      rintro rfl
      exact not_owned_reclaimed hreclaimed root ⟨e, he, howner⟩
    rw [hreclaimed.coverage?, if_neg hkept]
    refine ⟨?_, rfl⟩
    rw [hreclaimed.lookup?] at he
    obtain ⟨found, hfound, he⟩ := Option.bind_eq_some_iff.1 he
    split at he
    · obtain ⟨rfl, -⟩ := Entry.keepOwned_eq_some_iff.1 he
      exact ⟨found, hfound, (Entry.isOwnedBy_removeAll.1 howner).2, htree⟩
    · obtain rfl := Option.some.inj he
      exact ⟨found, hfound, howner, htree⟩
  | update looked owner kind =>
    obtain ⟨found, hupdated⟩ := hdone
    have hroot : looked.resource ≠ root := by
      rintro rfl
      cases kind with
      | object =>
        have hshrunk : Shrunk t looked owner found s := hupdated
        rw [hshrunk.lookup?, if_pos rfl] at he
        obtain rfl := Option.some.inj he
        exact absurd htree nofun
      | tree =>
        have hextended : Extended t looked owner found s := hupdated
        rw [hextended.lookup?, if_pos rfl] at he
        obtain rfl := Option.some.inj he
        -- the entry is exclusive, so its owner is the one who updates
        have hsole := (hcoherent looked.resource found hextended.found).exclusive
          hextended.exclusive
        exact hother looked ⟨rfl, hsole.eq_of_isOwnedBy hextended.owned howner, rfl⟩
    obtain ⟨tree, covered, hresized, -, -⟩ := hupdated.resized
    rw [hresized.coverage?, if_neg fun h => hroot h.2]
    rw [hresized.lookup?, if_neg hroot] at he
    exact ⟨⟨e, he, howner, htree⟩, rfl⟩

theorem locksTree_inj {p : Plan} {scope scope' : Scope} (h : p.LocksTree user root scope)
    (h' : p.LocksTree user root scope') : scope = scope' := by
  cases p with
  | grant => exact h.1.symm.trans h'.1
  | release => exact h.elim
  | reclaim => exact h.elim
  | update looked owner kind =>
    cases kind with
    | object => exact h.elim
    | tree => exact h.1.symm.trans h'.1

/-! ## Users in the record -/

theorem isEmpty_eq_false_iff_exists_mem {β : Type} {m : Std.ExtTreeMap String β} :
    m.isEmpty = false ↔ ∃ key : String, key ∈ m := by
  simp [Std.ExtTreeMap.isEmpty_eq_false_iff, Std.ExtTreeMap.eq_empty_iff_forall_not_mem]

/-- Whoever is in the record has an editor lock there. -/
def Listed (t : Table) : Prop :=
  ∀ (user : User) (c : Coverage), t.shown[user]? = some c → ∃ root : Resource, root ∈ c

theorem listed_empty : Table.empty.Listed := by
  intro user c h
  simp [Table.empty] at h

theorem Listed.of_ne {shown : Std.ExtTreeMap User Coverage} (h : t.Listed) (owner : User)
    (hothers : ∀ user : User, owner ≠ user → shown[user]? = t.shown[user]?)
    (howner : ∀ c, shown[owner]? = some c → ∃ root : Resource, root ∈ c) :
    Listed { t with shown } := by
  intro user c hc
  by_cases huser : owner = user
  · subst huser
    exact howner c hc
  · exact h user c ((hothers user huser).symm.trans hc)

theorem Listed.apply (h : t.Listed) (edit : Edit) : (edit.apply t).Listed := by
  cases edit with
  | grant | revoke | revokeAll | setTree | announce => exact h
  | cover owner root covered =>
    refine h.of_ne owner (fun user huser => ?_) fun c hc => ⟨root, ?_⟩
    · simp [Std.ExtTreeMap.getElem?_alter, huser]
    · simp only [Std.ExtTreeMap.getElem?_alter_self, Option.some.injEq] at hc
      simp [← hc]
  | uncover owner root =>
    refine h.of_ne owner (fun user huser => ?_) fun c hc => ?_
    · simp [Std.ExtTreeMap.getElem?_alter, huser]
    · rw [Std.ExtTreeMap.getElem?_alter_self] at hc
      obtain ⟨before, -, hkept⟩ := Option.bind_eq_some_iff.1 hc
      unfold keepShown at hkept
      split at hkept
      · cases hkept
      · next hleft =>
        obtain rfl := Option.some.inj hkept
        rw [Bool.not_eq_true, isEmpty_eq_false_iff_exists_mem] at hleft
        exact hleft
  | uncoverAll owner =>
    refine h.of_ne owner (fun user huser => ?_) fun c hc => ?_
    · simp [Std.ExtTreeMap.getElem?_erase, huser]
    · simp at hc

theorem Listed.result (h : t.Listed) (s : Section) : (s.result t).Listed := by
  induction s generalizing t with
  | nil => exact h
  | cons edit s ih => exact ih (h.apply edit)

theorem Listed.hasShownLocks_iff (h : t.Listed) :
    t.hasShownLocks ↔ ∃ user root, (t.coverage? user root).isSome := by
  unfold hasShownLocks coverage?
  rw [Bool.not_eq_true', isEmpty_eq_false_iff_exists_mem]
  constructor
  · rintro ⟨user, huser⟩
    obtain ⟨c, hc⟩ := Option.isSome_iff_exists.1 (Std.ExtTreeMap.mem_iff_isSome_getElem?.1 huser)
    obtain ⟨root, hroot⟩ := h user c hc
    refine ⟨user, root, ?_⟩
    rw [hc, Option.bind_some]
    exact Std.ExtTreeMap.mem_iff_isSome_getElem?.1 hroot
  · rintro ⟨user, root, hshown⟩
    refine ⟨user, Std.ExtTreeMap.mem_iff_isSome_getElem?.2 ?_⟩
    cases hc : t.shown[user]? with
    | none => simp [hc] at hshown
    | some c => rfl

end Table

/-! ## Runs -/

namespace Locks

theorem consistent_run (settings : LockSettings) (steps : List Step) :
    ((fresh settings).run steps).table.Consistent :=
  invariant_run ⟨Table.coherent_empty, Table.covered_empty⟩
    (fun _ _ _ hp h hs => h.result hp hs) settings
    fun _ _ _ _ hplan => Call.resolved_of_plan? hplan

theorem listed_run (settings : LockSettings) (steps : List Step) :
    ((fresh settings).run steps).table.Listed :=
  invariant_run Table.listed_empty (fun _ _ s _ h _ => h.result s) settings
    fun _ _ _ _ hplan => Call.resolved_of_plan? hplan

/-- A lock is recorded as long as its user has been an owner since the editors were told of a
grant. -/
theorem isSome_coverage?_run (settings : LockSettings) (steps : List Step) (user : User)
    (root : Resource) :
    (((fresh settings).run steps).table.coverage? user root).isSome ↔
      (fresh settings).Since steps (Plan.ShowsGrant user root) (Table.Owned user root) := by
  induction steps using List.reverseRecOn with
  | nil =>
    refine iff_of_false ?_ not_since_nil
    simp [run, fresh, Table.coverage?, Table.empty]
  | append_singleton steps step ih =>
    have hconsistent := consistent_run settings steps
    rw [since_snoc, run_snoc, ← ih]
    rcases step.performs_cases ((fresh settings).run steps) with
      ⟨p, s, hp, hs, htable, hperforms⟩ | ⟨htable, hperforms⟩
    · rw [htable, hperforms]
      exact Table.isSome_coverage?_result hconsistent.coherent hp hconsistent.covered hs
    · rw [htable, or_iff_left (hperforms _)]
      exact (and_iff_right_of_imp hconsistent.covered.owned).symm

/-- A locked tree was locked for one scope, and is recorded as covering that. -/
theorem coverage?_run_of_ownedTree (settings : LockSettings) (steps : List Step) (user : User)
    (root : Resource) (htree : ((fresh settings).run steps).table.OwnedTree user root) :
    ∃ scope,
      (∀ scope', (fresh settings).Since steps (Plan.LocksTree user root scope')
        (Table.OwnedTree user root) ↔ scope' = scope) ∧
      ∀ covered, ((fresh settings).run steps).table.coverage? user root = some covered →
        covered = scope.coverage := by
  induction steps using List.reverseRecOn with
  | nil =>
    obtain ⟨e, he, -⟩ := htree
    simp [run, fresh] at he
  | append_singleton steps step ih =>
    have hconsistent := consistent_run settings steps
    simp only [since_snoc]
    rw [run_snoc] at htree ⊢
    -- the step locks the tree, or it leaves the lock with the scope that it had
    rcases step.performs_cases ((fresh settings).run steps) with
      ⟨p, s, hp, hs, htable, hperforms⟩ | ⟨htable, hperforms⟩
    · simp only [hperforms, htable] at htree ⊢
      by_cases hlocks : ∃ scope, p.LocksTree user root scope
      · obtain ⟨scope, hscope⟩ := hlocks
        obtain ⟨hbefore, hcoverage⟩ :=
          Table.coverage?_of_locksTree hp hconsistent.covered hs hscope
        refine ⟨scope, fun scope' => ⟨?_, ?_⟩, hcoverage⟩
        · rintro ⟨-, hsince | hscope'⟩
          · exact absurd hsince.lasts hbefore
          · exact Table.locksTree_inj hscope' hscope
        · rintro rfl
          exact ⟨htree, .inr hscope⟩
      · have hother := not_exists.1 hlocks
        obtain ⟨hbefore, hcoverage⟩ :=
          Table.coverage?_of_not_locksTree hp hconsistent.coherent hs hother htree
        obtain ⟨scope, hsince, hcovered⟩ := ih hbefore
        rw [hcoverage]
        refine ⟨scope, fun scope' => ?_, hcovered⟩
        rw [and_iff_right htree, or_iff_left (hother scope'), hsince]
    · rw [htable] at htree ⊢
      obtain ⟨scope, hsince, hcovered⟩ := ih htree
      refine ⟨scope, fun scope' => ?_, hcovered⟩
      rw [and_iff_right htree, or_iff_left (hperforms _), hsince]

/-- The record of the editor locks goes with the entries, and with how they came about. -/
structure Mirrored (settings : LockSettings) (steps : List Step) (t : Table) : Prop where
  /-- What is recorded is held, and covers at least its resource. -/
  owned : ∀ user root covered, t.coverage? user root = some covered →
    root ∈ covered ∧ t.Owned user root
  object : ∀ user root covered, t.coverage? user root = some covered →
    ∀ e, t.lookup? root = some e → e.tree = false → covered = {root}
  /-- A tree covers what the scope says that it was locked for, and that is one scope. -/
  tree : ∀ user root covered, t.coverage? user root = some covered →
    ∀ e, t.lookup? root = some e → e.tree = true → ∃ scope,
      (∀ scope', (fresh settings).Since steps (Plan.LocksTree user root scope')
        (Table.OwnedTree user root) ↔ scope' = scope) ∧
      covered = scope.coverage
  /-- Of the locks held, those are recorded of which the editors were told while they were. -/
  present : ∀ user root, (t.coverage? user root).isSome ↔
    (fresh settings).Since steps (Plan.ShowsGrant user root) (Table.Owned user root)
  /-- Nobody is listed with nothing. -/
  listed : ∀ (user : User) c, t.shown[user]? = some c → c ≠ ∅
  /-- So whether anybody is listed tells whether the editors show any lock. -/
  any : t.hasShownLocks ↔ ∃ user root,
    (fresh settings).Since steps (Plan.ShowsGrant user root) (Table.Owned user root)

/-- After every run, whatever graph each call looked its resource up in, the record tells just
the editor locks that are held, and what they cover. -/
theorem mirrored_run (settings : LockSettings) (steps : List Step) :
    Mirrored settings steps ((fresh settings).run steps).table := by
  have hcovered := (consistent_run settings steps).covered
  have hlisted := listed_run settings steps
  have hpresent := isSome_coverage?_run settings steps
  refine ⟨?_, ?_, ?_, hpresent, ?_, ?_⟩
  · intro user root covered h
    obtain ⟨hroot, e, he, howned, -⟩ := hcovered user root covered h
    exact ⟨hroot, e, he, howned⟩
  · intro user root covered h e he hplain
    obtain ⟨-, found, hfound, -, hsingle⟩ := hcovered user root covered h
    obtain rfl := Option.some.inj (he.symm.trans hfound)
    exact hsingle hplain
  · intro user root covered h e he htree
    obtain ⟨-, found, hfound, howned, -⟩ := hcovered user root covered h
    obtain rfl := Option.some.inj (he.symm.trans hfound)
    obtain ⟨scope, hsince, hscope⟩ :=
      coverage?_run_of_ownedTree settings steps user root ⟨e, he, howned, htree⟩
    exact ⟨scope, hsince, hscope covered h⟩
  · intro user c hc
    obtain ⟨root, hroot⟩ := hlisted user c hc
    exact Std.ExtTreeMap.ne_empty_of_mem hroot
  · rw [hlisted.hasShownLocks_iff]
    simp only [hpresent]

/-- Alice shares an action point twice, but the editors are told of one grant only. -/
def sharedTwice : List Step :=
  let g := Graph.withRoots.insert "ap_1" (some Resource.project)
  let asks (visibility : Visibility) : Request :=
    { resource := "ap_1", owner := "alice", mode := .shared, visibility }
  [.call (.acquireOnce g 0 false (asks .internal)), .call (.acquireOnce g 0 false (asks .ui))]

/-- Which of the two grants is given back does not show: the record keeps the lock as long as
Alice has the other. -/
example :
    let once := sharedTwice ++ [.call (.unlock "ap_1" "alice")]
    ((fresh {}).run once).table.coverage? "alice" "ap_1" = some {"ap_1"} ∧
    ((fresh {}).run (once ++ [.call (.unlock "ap_1" "alice")])).table.hasShownLocks = false := by
  decide +kernel

end Locks

end SceneLocks
