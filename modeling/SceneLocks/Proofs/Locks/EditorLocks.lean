import SceneLocks.Proofs.Locks.Custody
import SceneLocks.Proofs.Locks.Mirror
import SceneLocks.Proofs.Locks.StaleHandles

/-!
# How long editor locks last

An editor who locks a resource is told that it is locked, and ends the lock by unlocking it. But an
editor lock has no handle, and the table does not tell it from another exclusive lock of the same
user: who holds the resource already is just told so. So the lock ends as well when a handle of the
user for the resource is given back that was given out before (`lasts_run_iff`).
-/

namespace SceneLocks

theorem Entry.HasSoleGrant.grants_le {e : Entry} (h : e.HasSoleGrant) (user : User) :
    e.grants user ≤ 1 := by
  obtain ⟨holder, howners⟩ := h
  rw [Entry.grants, howners, Std.ExtTreeMap.getD_insert]
  split
  · exact Nat.le_refl 1
  · simp

/-! ## Exclusive locks -/

namespace Table

/-- The user holds the resource exclusively, with its tree if that is asked for. -/
def Holds (t : Table) (resource : Resource) (user : User) (tree : Bool) : Prop :=
  ∃ e, t.lookup? resource = some e ∧ e.mode = .exclusive ∧ e.isOwnedBy user = true ∧
    (tree = true → e.tree = true)

variable {t : Table} {resource : Resource} {user : User} {tree : Bool} {s : Section}

theorem holds_iff : t.Holds resource user tree ↔ Locks.alreadyHeld t resource user tree = true := by
  unfold Holds Locks.alreadyHeld
  rw [Option.any_eq_true]
  cases tree <;> simp [and_assoc]

instance (t : Table) (resource : Resource) (user : User) (tree : Bool) :
    Decidable (t.Holds resource user tree) :=
  decidable_of_iff _ holds_iff.symm

theorem Holds.owned (h : t.Holds resource user tree) : t.Owned user resource := by
  obtain ⟨e, he, -, howned, -⟩ := h
  exact ⟨e, he, howned⟩

/-- Who else may own the entry of an exclusive lock is its holder. -/
theorem Holds.eq_of_isOwnedBy (h : t.Holds resource user tree) (hcoherent : t.Coherent) {e : Entry}
    {owner : User} (he : t.lookup? resource = some e) (howner : e.isOwnedBy owner) :
    owner = user := by
  obtain ⟨found, hfound, hexclusive, huser, -⟩ := h
  obtain rfl : e = found := Option.some.inj (he.symm.trans hfound)
  exact ((hcoherent resource e he).exclusive hexclusive).eq_of_isOwnedBy howner huser

end Table

/-- The section of the plan ends the exclusive lock of a user, or takes its tree away. -/
def Plan.Ends (resource : Resource) (user : User) (tree : Bool) : Plan → Prop
  | .release r owner => r = resource ∧ owner = user
  | .reclaim owner => owner = user
  | .update scope owner .object => tree = true ∧ scope.resource = resource ∧ owner = user
  | .update _ _ .tree | .grant .. => False

namespace Table

variable {t : Table} {resource : Resource} {user : User} {tree : Bool} {s : Section}

/-- A resource that is held exclusively is not granted to anybody. -/
theorem Holds.ne_of_granted {whole : Bool} {scope : Scope} {r : Request}
    (h : t.Holds resource user tree) (hr : scope.resource = r.resource)
    (hs : Granted t whole scope r s) : r.resource ≠ resource := by
  rintro rfl
  obtain ⟨e, he, hexclusive, -⟩ := h
  obtain ⟨hshared, -⟩ := (conflict?_eq_none_iff.1 hs.free).1 e (hr ▸ he)
  rw [hexclusive] at hshared
  cases hshared

theorem Holds.released_iff {r : Resource} {owner : User} {e : Entry} (hcoherent : t.Coherent)
    (h : t.Holds resource user tree) (hs : Released t r owner e s) :
    (s.result t).Holds resource user tree ↔ ¬ (r = resource ∧ owner = user) := by
  by_cases hr : r = resource
  · subst hr
    -- the entry has one grant, and it was taken back
    obtain rfl := h.eq_of_isOwnedBy hcoherent hs.found hs.owned
    obtain ⟨found, hfound, hexclusive, -⟩ := h
    obtain rfl : e = found := Option.some.inj (hs.found.symm.trans hfound)
    have hlast := ((hcoherent r e hfound).exclusive hexclusive).grants_le owner
    exact iff_of_false (fun hholds => not_owned_released hs hlast hholds.owned)
      (not_not.2 ⟨rfl, rfl⟩)
  · refine iff_of_true ?_ fun hboth => hr hboth.1
    rwa [Holds, hs.lookup?, if_neg hr]

theorem Holds.reclaimed_iff {owner : User} (hcoherent : t.Coherent)
    (h : t.Holds resource user tree) (hs : Reclaimed t owner s) :
    (s.result t).Holds resource user tree ↔ ¬ owner = user := by
  by_cases howner : owner = user
  · subst howner
    exact iff_of_false (fun hholds => not_owned_reclaimed hs resource hholds.owned) (not_not.2 rfl)
  · refine iff_of_true ?_ howner
    have hother : ∀ e, t.lookup? resource = some e → ¬ e.isOwnedBy owner = true :=
      fun e he howns => howner (h.eq_of_isOwnedBy hcoherent he howns)
    obtain ⟨e, he, hrest⟩ := h
    refine ⟨e, ?_, hrest⟩
    rw [hs.lookup?, he, Option.bind_some, if_neg (hother e he)]

theorem Holds.resized_iff {r : Resource} {owner : User} {e : Entry} {now : Bool}
    {covered : Std.ExtTreeSet Resource} (hcoherent : t.Coherent) (h : t.Holds resource user tree)
    (hs : Resized t r owner e now covered s) :
    (s.result t).Holds resource user tree ↔
      ¬ (now = false ∧ tree = true ∧ r = resource ∧ owner = user) := by
  by_cases hr : r = resource
  · subst hr
    have howner := h.eq_of_isOwnedBy hcoherent hs.found hs.owned
    obtain ⟨found, hfound, hexclusive, howned, -⟩ := h
    obtain rfl : e = found := Option.some.inj (hs.found.symm.trans hfound)
    rw [Holds, hs.lookup?, if_pos rfl]
    constructor
    · intro hholds hshrunk
      obtain ⟨_, ⟨⟩, -, -, htree⟩ := hholds
      exact absurd ((htree hshrunk.2.1).symm.trans hshrunk.1) nofun
    · intro hkept
      refine ⟨_, rfl, hexclusive, howned, fun htree => ?_⟩
      by_contra hplain
      exact hkept ⟨Bool.eq_false_iff.2 hplain, htree, rfl, howner⟩
  · refine iff_of_true ?_ fun hall => hr hall.2.2.1
    rwa [Holds, hs.lookup?, if_neg hr]

/-- What a section does to an exclusive lock. -/
theorem Holds.result_iff {p : Plan} (hcoherent : t.Coherent) (h : t.Holds resource user tree)
    (hp : p.Resolved) (hs : p.edits t = .ok s) :
    (s.result t).Holds resource user tree ↔ ¬ p.Ends resource user tree := by
  have hdone := Plan.done_of_edits hs
  cases p with
  | grant whole scope r =>
    have hgranted : Granted t whole scope r s := hdone
    refine iff_of_true ?_ id
    rwa [Holds, hgranted.lookup?, if_neg (h.ne_of_granted hp hgranted)]
  | release r owner =>
    obtain ⟨e, hreleased⟩ := hdone
    exact h.released_iff hcoherent hreleased
  | reclaim owner => exact h.reclaimed_iff hcoherent hdone
  | update scope owner kind =>
    obtain ⟨e, hupdated⟩ := hdone
    cases kind with
    | tree =>
      have hresized := h.resized_iff hcoherent (Extended.toResized hupdated)
      simpa [Plan.Ends] using hresized
    | object =>
      have hresized := h.resized_iff hcoherent (Shrunk.toResized hupdated)
      simpa [Plan.Ends] using hresized

end Table

/-! ## Deeds that end a lock -/

/-- The deed is what the editors have to end a lock. -/
def Deed.Ends (resource : Resource) (user : User) (tree : Bool) : Deed → Prop
  | .step _ (.call (.unlock r owner)) _ => r = resource ∧ owner = user
  | .step _ (.call (.releaseAll owner)) _ => owner = user
  | .step _ (.call (.updateLock _ r owner .object)) _ =>
    tree = true ∧ r = resource ∧ owner = user
  | _ => False

namespace Custody

variable {c : Custody} {deed : Deed} {resource : Resource} {user : User} {tree : Bool}
  {n given : Nat} {use : Use} {holding : Holding}

/-- One of the handles that were given out first is given back, and with it a grant of the user on
the resource. -/
def TakesBack (c : Custody) (given : Nat) (resource : Resource) (user : User) (deed : Deed) :
    Prop :=
  ∃ n use holding, n < given ∧ deed = .use n use ∧ c.Returns n use holding ∧
    holding.handle.resource = resource ∧ holding.handle.owner = user ∧
    (c.locks.release holding.handle).2.isOk = true

/-- A section that ends a lock is that of a deed of the editors, or it is entered because a handle
is given back. -/
theorem ends_or_returns {call : Call} {t : Table} {p : Plan}
    (hstep : c.step? deed = some (.call call)) (hplan : call.plan? t = some p)
    (hends : p.Ends resource user tree) :
    deed.Ends resource user tree ∨ ∃ n use holding, deed = .use n use ∧ c.Returns n use holding ∧
      holding.handle.resource = resource ∧ holding.handle.owner = user := by
  cases deed with
  | step guarded step handleless =>
    obtain rfl := Option.some.inj hstep
    -- a call made directly ends the lock by its plan
    left
    cases Call.plans_of_plan? hplan with
    | attempt | acquireOnce | lock => exact hends.elim
    | @updateLock g r owner kind scope hscope =>
      have hr := Graph.resource_scope? hscope
      cases kind with
      | tree => exact hends.elim
      | object => exact hr ▸ hends
    | unlock | releaseAll => exact hends
    | release | drop => exact handleless.elim
  | use n use =>
    right
    -- through a handle, only giving it back has a plan
    obtain ⟨holding, hheld, hmapped⟩ := Option.bind_eq_some_iff.1 hstep
    obtain ⟨_, hcall, ⟨⟩⟩ := Option.map_eq_some_iff.1 hmapped
    cases use with
    | release =>
      obtain rfl := Option.some.inj hcall
      obtain rfl := Option.some.inj hplan
      exact ⟨n, .release, holding, rfl, ⟨hheld, rfl⟩, hends⟩
    | drop =>
      obtain rfl := Option.some.inj hcall
      rcases holding with handle | handle
      · cases hplan
      · obtain rfl := Option.some.inj hplan
        exact ⟨n, .drop, .scoped handle, rfl, ⟨hheld, rfl⟩, hends⟩
    | mark | keepAlive | detach => cases hcall
  | invalidate other => cases hstep

/-- The lock stands, and no handle that was given out since is for its resource. -/
structure Stands (c : Custody) (given : Nat) (resource : Resource) (user : User) (tree : Bool) :
    Prop where
  holds : c.locks.table.Holds resource user tree
  coherent : c.locks.table.Coherent
  elsewhere : ∀ n holding, given ≤ n → c.held? n = some holding →
    holding.handle.resource ≠ resource

theorem TakesBack.not_holds (h : c.TakesBack given resource user deed)
    (hcoherent : c.locks.table.Coherent) (hholds : c.locks.table.Holds resource user tree) :
    ¬ (c.perform deed).locks.table.Holds resource user tree := by
  obtain ⟨n, use, holding, -, rfl, hreturns, hresource, howner, hok⟩ := h
  rcases hreturns.table_perform with ⟨-, s, hs, htable⟩ | ⟨hfailed, -⟩
  · have hresolved : (Plan.release holding.handle.resource holding.handle.owner).Resolved :=
      True.intro
    rw [htable, hholds.result_iff hcoherent hresolved hs, not_not]
    exact ⟨hresource, howner⟩
  · rw [hok] at hfailed
    cases hfailed

theorem Stands.holds_perform (h : c.Stands given resource user tree)
    (hends : ¬ deed.Ends resource user tree) (htakes : ¬ c.TakesBack given resource user deed) :
    (c.perform deed).locks.table.Holds resource user tree := by
  rcases c.table_perform deed with htable | ⟨call, p, s, hstep, hplan, hs, htable⟩
  · rw [htable]
    exact h.holds
  · by_contra hlost
    have hplanEnds : p.Ends resource user tree := by
      rw [htable, h.holds.result_iff h.coherent (Call.resolved_of_plan? hplan) hs] at hlost
      exact not_not.1 hlost
    rcases ends_or_returns hstep hplan hplanEnds with hdeed |
      ⟨n, use, holding, rfl, hreturns, hresource, howner⟩
    · exact hends hdeed
    · rcases hreturns.table_perform with ⟨hok, -⟩ | ⟨-, hkept⟩
      · -- the handle was given out before, or it is for another resource
        rcases Nat.lt_or_ge n given with hold | hnew
        · exact htakes ⟨n, use, holding, hold, rfl, hreturns, hresource, howner, hok⟩
        · exact h.elsewhere n holding hnew hreturns.held hresource
      · rw [hkept] at hlost
        exact hlost h.holds

theorem Stands.perform (h : c.Stands given resource user tree)
    (hends : ¬ deed.Ends resource user tree) (htakes : ¬ c.TakesBack given resource user deed) :
    (c.perform deed).Stands given resource user tree where
  holds := h.holds_perform hends htakes
  coherent := coherent_perform h.coherent deed
  elsewhere n holding hgiven hheld := by
    cases stems_perform hheld with
    | kept hbefore hsame hother =>
      rw [hsame]
      exact h.elsewhere n _ hgiven hbefore
    | marked hbefore hmarked =>
      rw [hmarked]
      exact h.elsewhere n _ hgiven hbefore
    | new hlast hgranted =>
      obtain ⟨call, whole, scope, r, rfl, hplan, hdone, hhandle⟩ := Step.handle?_eq_some hgranted
      rw [hhandle]
      rcases (Call.enters_perform hplan).cases with ⟨-, s, hs, -⟩ | ⟨hfailed, -⟩
      · exact h.holds.ne_of_granted (Call.resolved_of_plan? hplan) (Plan.done_of_edits hs)
      · rw [hdone] at hfailed
        cases hfailed

/-! ## Runs -/

/-- What a lock of an editor comes to, whether it is granted or was held already. -/
theorem holds_lock {l : Locks} {g : Graph} {now : Nat}
    (hdone : ((Call.lock g now resource user tree).perform l).2 = .done) :
    ((Call.lock g now resource user tree).perform l).1.table.Holds resource user tree := by
  by_cases hheld : l.table.Holds resource user tree
  · have hplan : (Call.lock g now resource user tree).plan? l.table = none := by
      rw [Call.plan?, if_pos (Table.holds_iff.1 hheld)]
    rwa [Call.table_perform_of_plan?_eq_none hplan]
  · rw [Table.holds_iff, Bool.not_eq_true] at hheld
    cases hscope : g.scope? resource with
    | none =>
      have hrefused := Locks.acquireOnce_of_scope?_eq_none (l := l.enter)
        (r := Locks.editorRequest resource user tree) hscope now false
      simp [Call.perform, Locks.lock, Locks.read, hheld, hrefused, Reply.ofExcept,
        Except.map] at hdone
    | some scope =>
      have hplan : (Call.lock g now resource user tree).plan? l.table =
          some (.grant false scope (Locks.editorRequest resource user tree)) := by
        simp [Call.plan?, hheld, hscope]
      rcases (Call.enters_perform hplan).cases with ⟨-, s, hs, htable⟩ | ⟨hfailed, -⟩
      · have hgranted : Granted l.table false scope (Locks.editorRequest resource user tree) s :=
          Plan.done_of_edits hs
        -- an exclusive request was granted, so the resource was free
        have hfree : l.table.lookup? resource = none := by
          rw [Option.eq_none_iff_forall_ne_some]
          intro e he
          rw [← Graph.resource_scope? hscope] at he
          have hshared := ((Table.conflict?_eq_none_iff.1 hgranted.free).1 e he).2.1
          exact absurd hshared (by simp [Locks.editorRequest])
        refine ⟨.first resource .exclusive user tree, ?_, rfl, by simp, id⟩
        rw [htable, hgranted.lookup?]
        simp [Locks.editorRequest, hfree]
      · rw [hdone] at hfailed
        cases hfailed

/-- A lock of an editor gives no handle out. -/
theorem stands_lock {guarded : Bool} {g : Graph} {now : Nat} (hcoherent : c.locks.table.Coherent)
    (hdone : ((Call.lock g now resource user tree).perform c.locks).2 = .done) :
    (c.perform (.step guarded (.call (.lock g now resource user tree)) True.intro)).Stands
      c.handles.length resource user tree where
  holds := holds_lock hdone
  coherent := coherent_perform hcoherent _
  elsewhere n holding hnew hheld := by
    rcases held?_step hheld with hbefore | ⟨-, hgiven⟩
    · exact absurd (lt_of_held? hbefore) (Nat.not_lt.2 hnew)
    · simp [holding?, Step.handle?, hdone] at hgiven

theorem Stands.run {deeds : List Deed} (h : c.Stands given resource user tree)
    (hends : ∀ deed ∈ deeds, ¬ deed.Ends resource user tree)
    (htakes : ∀ earlier deed, earlier ++ [deed] <+: deeds →
      ¬ (c.run earlier).TakesBack given resource user deed) :
    (c.run deeds).Stands given resource user tree := by
  induction deeds generalizing c with
  | nil => exact h
  | cons deed deeds ih =>
    have hfirst : ¬ c.TakesBack given resource user deed :=
      htakes [] deed (List.prefix_append [deed] deeds)
    apply ih (h.perform (hends deed List.mem_cons_self) hfirst)
    · exact fun later hlater => hends later (List.mem_cons_of_mem deed hlater)
    · intro earlier later hwithin
      exact htakes (deed :: earlier) later (List.cons_prefix_cons.2 ⟨rfl, hwithin⟩)

/-- An editor lock lasts until the editors end it just if no handle of the user for the resource
is given back that was given out before. -/
theorem lasts_run_iff (settings : LockSettings) (before : List Deed) (guarded : Bool) (g : Graph)
    (now : Nat) (resource : Resource) (user : User) (tree : Bool) (after : List Deed) :
    let c := (start settings).run before
    let locked := c.perform (.step guarded (.call (.lock g now resource user tree)) True.intro)
    ((Call.lock g now resource user tree).perform c.locks).2 = .done →
    (∀ deed ∈ after, ¬ deed.Ends resource user tree) →
    ((∀ deeds, deeds <+: after → (locked.run deeds).locks.table.Holds resource user tree) ↔
      ∀ deeds deed, deeds ++ [deed] <+: after →
        ¬ (locked.run deeds).TakesBack c.handles.length resource user deed) := by
  intro c locked hdone hends
  have hstands : locked.Stands c.handles.length resource user tree :=
    stands_lock (coherent_deeds Table.coherent_empty before) hdone
  constructor
  · intro hlasts deeds deed hwithin htakes
    have hearlier := hlasts deeds ((List.prefix_append deeds [deed]).trans hwithin)
    have hlater := hlasts (deeds ++ [deed]) hwithin
    rw [run_append] at hlater
    exact htakes.not_holds (coherent_deeds hstands.coherent deeds) hearlier hlater
  · intro htakes deeds hwithin
    have hstill : (locked.run deeds).Stands c.handles.length resource user tree := by
      apply hstands.run
      · exact fun deed hdeed => hends deed (hwithin.subset hdeed)
      · exact fun earlier deed hearlier => htakes earlier deed (hearlier.trans hwithin)
    exact hstill.holds

/-- A request of Alice has the action point for as long as its scope lasts. -/
def scopedRequest : List Deed := [.step true Locks.aliceTries True.intro]

/-- Her editor locks it as well. -/
def aliceLocks : Call :=
  .lock (Graph.withRoots.insert "ap_1" (some Resource.project)) 0 "ap_1" "alice" false

/-- What her editor was told is not true any more at the end of the scope. -/
theorem lasts_run_iff_scopedRequest :
    let c := (start {}).run scopedRequest
    let locked := c.perform (.step false (.call aliceLocks) True.intro)
    (aliceLocks.perform c.locks).2 = .done ∧ ¬ (Deed.use 0 .drop).Ends "ap_1" "alice" false ∧
      locked.locks.table.Holds "ap_1" "alice" false ∧
      ¬ ∀ deeds, deeds <+: [.use 0 .drop] →
        (locked.run deeds).locks.table.Holds "ap_1" "alice" false := by
  intro c locked
  have hdone : (aliceLocks.perform c.locks).2 = .done := by decide +kernel
  have hends : ∀ deed ∈ [Deed.use 0 .drop], ¬ deed.Ends "ap_1" "alice" false := by
    simp [Deed.Ends]
  have htakes : locked.TakesBack c.handles.length "ap_1" "alice" (.use 0 .drop) :=
    ⟨0, .drop, .scoped (.ofRequest Locks.aliceAsks), by decide +kernel, rfl,
      ⟨by decide +kernel, rfl⟩, rfl, rfl, by decide +kernel⟩
  refine ⟨hdone, hends _ List.mem_cons_self, by decide +kernel, ?_⟩
  intro hlasts
  have hiff := lasts_run_iff {} scopedRequest false _ 0 "ap_1" "alice" false [.use 0 .drop] hdone
    hends
  exact hiff.1 hlasts [] (.use 0 .drop) List.prefix_rfl htakes

end Custody

end SceneLocks
