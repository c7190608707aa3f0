import SceneLocks.Proofs.Locks.Ledger
import SceneLocks.Proofs.Locks.Mirror

/-!
# Stale handles

A handle does not name the grant it was given for: giving it back takes one grant of its owner
on its resource, whichever that is. So a handle whose owner lost all locks since is harmless
until its owner is granted the resource again, and then takes one of the later grants away from
the handle that it belongs to.
-/

namespace SceneLocks

/-! ## Bookings of runs with faults -/

/-- What a step is booked as; a section that breaks off grants and takes nothing. -/
def Step.booking? (l : Locks) : Step → Option Booking
  | .call c => c.booking? l
  | .breakOff .. | .requeue _ => none

/-- The bookings of some steps, in order. -/
def Locks.booked (l : Locks) : List Step → List Booking
  | [] => []
  | step :: steps => (step.booking? l).toList ++ (step.perform l).booked steps

/-- A step performs the section that it is booked for, or changes nothing in the table. -/
theorem Step.booking?_cases (l : Locks) (step : Step) :
    (∃ (p : Plan) (s : Section), p.Resolved ∧ p.edits l.table = .ok s ∧
      (step.perform l).table = s.result l.table ∧ step.booking? l = p.booking?) ∨
    ((step.perform l).table = l.table ∧ step.booking? l = none) := by
  rcases step.perform_cases l with ⟨c, p, s, rfl, hplan, hs, hdone, htable⟩ | ⟨htable, hfailed⟩
  · exact .inl ⟨p, s, Call.resolved_of_plan? hplan, hs, htable,
      Call.booking?_of_isSuccess hplan hdone⟩
  · refine .inr ⟨htable, ?_⟩
    cases step with
    | call c =>
      cases hplan : c.plan? l.table with
      | none => exact Call.booking?_of_plan?_eq_none hplan
      | some p => exact Call.booking?_of_not_isSuccess (hfailed c p rfl hplan)
    | breakOff | requeue => rfl

namespace Table

/-- The grants counted in a table, as balances. -/
def balances (t : Table) (resource : Resource) (user : User) : Int := t.grants resource user

/-- A section changes the grants as its booking says. -/
theorem balances_result {t : Table} {s : Section} {p : Plan} (hcoherent : t.Coherent)
    (hs : p.edits t = .ok s) :
    (s.result t).balances = p.booking?.toList.foldl Booking.settle t.balances := by
  have hdone := Plan.done_of_edits hs
  funext resource user
  cases p with
  | grant whole scope r =>
    simp only [balances, grants_granted hdone, Plan.booking?, Option.toList_some, List.foldl_cons,
      List.foldl_nil, Booking.settle, Request.grant]
    split <;> simp
  | release r owner =>
    obtain ⟨e, hreleased⟩ := hdone
    -- a grant was there to be taken back, so the count does not stop at zero
    have hpos : 0 < t.grants r owner := by
      rw [grants_of_lookup? hreleased.found]
      exact (hcoherent r e hreleased.found).isOwnedBy_iff.1 hreleased.owned
    simp only [balances, grants_released hreleased, Plan.booking?, Option.toList_some,
      List.foldl_cons, List.foldl_nil, Booking.settle]
    split
    · next h =>
      obtain ⟨rfl, rfl⟩ := h
      omega
    · rfl
  | reclaim owner =>
    simp only [balances, grants_reclaimed hdone, Plan.booking?, Option.toList_some,
      List.foldl_cons, List.foldl_nil, Booking.settle]
    split <;> rfl
  | update scope owner kind =>
    obtain ⟨e, hupdated⟩ := hdone
    obtain ⟨tree, covered, hresized, -, -⟩ := hupdated.resized
    exact congrArg Nat.cast (grants_resized hresized resource user)

end Table

namespace Locks

/-- What a run grants and takes is what it is booked for, whether its sections break off or not. -/
theorem balances_run {l : Locks} (hcoherent : l.table.Coherent) (steps : List Step) :
    (l.run steps).table.Coherent ∧
      (l.run steps).table.balances = (l.booked steps).foldl Booking.settle l.table.balances := by
  -- the run after the first step is a run from the balances that this step leaves
  induction steps generalizing l with
  | nil => exact ⟨hcoherent, rfl⟩
  | cons step steps ih =>
    rw [booked, List.foldl_append]
    rcases step.booking?_cases l with ⟨p, s, hp, hs, htable, hbooking⟩ | ⟨htable, hbooking⟩
    · rw [hbooking, ← Table.balances_result hcoherent hs, ← htable]
      exact ih (htable ▸ hcoherent.result hp hs)
    · rw [hbooking, Option.toList_none, List.foldl_nil, ← htable]
      exact ih (htable ▸ hcoherent)

end Locks

/-- What others hold, and what is held elsewhere, has no part in a balance. -/
theorem foldl_settle_congr {before before' : Resource → User → Int} {resource : Resource}
    {user : User} (h : before resource user = before' resource user) (bookings : List Booking) :
    bookings.foldl Booking.settle before resource user =
      bookings.foldl Booking.settle before' resource user := by
  -- a booking changes one balance by an amount that depends on no other balance
  induction bookings generalizing before before' with
  | nil => exact h
  | cons b bookings ih =>
    refine ih ?_
    cases b <;> simp only [Booking.settle, h]

/-! ## Giving back -/

namespace Table

/-- The resource has an exclusive entry, and this is its only owner. -/
def HeldAlone (t : Table) (resource : Resource) (holder : User) : Prop :=
  ∃ e, t.lookup? resource = some e ∧ e.mode = .exclusive ∧
    e.owners = (∅ : Std.ExtTreeMap User Nat).insert holder 1

variable {t : Table} {resource : Resource} {owner holder user : User}

theorem HeldAlone.owned_iff (h : t.HeldAlone resource holder) :
    t.Owned user resource ↔ user = holder := by
  obtain ⟨e, he, -, howners⟩ := h
  have hholder : e.isOwnedBy holder := by simp [Entry.isOwnedBy, howners]
  constructor
  · rintro ⟨found, hfound, howned⟩
    obtain rfl := Option.some.inj (he.symm.trans hfound)
    have hsole : e.HasSoleGrant := ⟨holder, howners⟩
    exact hsole.eq_of_isOwnedBy howned hholder
  · rintro rfl
    exact ⟨e, he, hholder⟩

theorem HeldAlone.not_shared (h : t.HeldAlone resource holder) :
    ¬ ∀ e, t.lookup? resource = some e → e.mode = .shared := by
  obtain ⟨e, he, hexclusive, -⟩ := h
  intro hshared
  rw [hshared e he] at hexclusive
  cases hexclusive

theorem Coherent.grants_pos_iff (h : t.Coherent) :
    0 < t.grants resource owner ↔ t.Owned owner resource := by
  unfold grants Owned
  cases he : t.lookup? resource with
  | none => simp
  | some e => simp [(h resource e he).isOwnedBy_iff]

/-- A stranger is told who holds the resource, if somebody holds it alone. -/
theorem releasing_of_not_owned (hcoherent : t.Coherent) (h : ¬ t.Owned owner resource) :
    (∃ holder, t.HeldAlone resource holder ∧ holder ≠ owner ∧
      t.releasing resource owner = .error (.invalidOwner resource owner holder)) ∨
    ((∀ e, t.lookup? resource = some e → e.mode = .shared) ∧
      t.releasing resource owner = .error (.notLocked resource owner)) := by
  unfold releasing
  cases he : t.lookup? resource with
  | none => exact .inr ⟨nofun, rfl⟩
  | some e =>
    have hstranger : ¬ e.isOwnedBy owner := fun howned => h ⟨e, he, howned⟩
    simp only [if_neg hstranger, strangerError, Entry.holder?]
    cases hmode : e.mode with
    | shared =>
      refine .inr ⟨?_, rfl⟩
      rintro _ ⟨⟩
      exact hmode
    | exclusive =>
      -- an exclusive entry has one owner, who comes first
      obtain ⟨holder, howners⟩ := (hcoherent resource e he).exclusive hmode
      have halone : t.HeldAlone resource holder := ⟨e, he, hmode, howners⟩
      have hother : holder ≠ owner := fun heq => h (halone.owned_iff.2 heq.symm)
      refine .inl ⟨holder, halone, hother, ?_⟩
      rw [Entry.firstOwner?_of_sole howners]

theorem releasing_of_owned (h : t.Owned owner resource) :
    ∃ s, t.releasing resource owner = .ok s := by
  obtain ⟨e, he, howned⟩ := h
  simp [releasing, he, howned]

theorem owned_of_grants_ne_zero (h : t.grants resource owner ≠ 0) : t.Owned owner resource := by
  cases he : t.lookup? resource with
  | none => simp [grants, he] at h
  | some e =>
    refine ⟨e, he, Entry.isOwnedBy_iff.2 ?_⟩
    rw [grants_of_lookup? he, Entry.grants_eq_getD] at h
    cases hn : e.owners[owner]? with
    | none => simp [hn] at h
    | some n => exact ⟨n, rfl⟩

/-- Who has no grant on a resource is told so, or told who holds it. -/
theorem releasing_of_grants_eq_zero (hcoherent : t.Coherent) (h : t.grants resource owner = 0) :
    ∃ e, t.releasing resource owner = .error e ∧
      (e = .notLocked resource owner ∨ ∃ holder, e = .invalidOwner resource owner holder) := by
  have hstranger : ¬ t.Owned owner resource := by
    rw [← hcoherent.grants_pos_iff, h]
    exact Nat.lt_irrefl 0
  rcases releasing_of_not_owned hcoherent hstranger with ⟨holder, -, -, he⟩ | ⟨-, he⟩
  · exact ⟨_, he, .inr ⟨holder, rfl⟩⟩
  · exact ⟨_, he, .inl rfl⟩

theorem releasing_of_grants_ne_zero (h : t.grants resource owner ≠ 0) :
    ∃ s, t.releasing resource owner = .ok s :=
  releasing_of_owned (owned_of_grants_ne_zero h)

end Table

namespace Locks

variable {l : Locks} {h : Handle}

/-- A handle whose section was worked out is taken back, unless the section breaks off. -/
theorem release_of_ok {s : Section} (hs : l.table.releasing h.resource h.owner = .ok s) :
    (l.release h).2 = .ok () ∨ ∃ reason, (l.release h).2 = .error (.broken reason) := by
  have hunlock : (l.unlock h.resource h.owner).2 = .ok () ∨
      ∃ reason, (l.unlock h.resource h.owner).2 = .error (.broken reason) := by
    -- the section is on its way: only a fault can still stop it
    simp only [unlock, transact, table_enter, hs, commit, rollBack]
    cases l.enter.breakPoint? s with
    | none => exact .inl rfl
    | some point => exact .inr ⟨_, rfl⟩
  unfold release
  rcases hunlock with hunlock | ⟨reason, hunlock⟩
  · split
    · exact .inl rfl
    · next heq => simp [heq] at hunlock
  · split
    · next heq => simp [heq] at hunlock
    · next heq =>
      rw [heq] at hunlock
      exact .inr ⟨reason, hunlock⟩

/-- A handle is refused if its owner has no grant on its resource. -/
theorem release_of_grants_eq_zero (hcoherent : l.table.Coherent)
    (hgrants : l.table.grants h.resource h.owner = 0) :
    ∃ e, l.release h = (l.enter, .error e) ∧ (e = .notLocked h.resource h.owner ∨
      ∃ holder, e = .invalidOwner h.resource h.owner holder) := by
  obtain ⟨e, hreleasing, he⟩ := Table.releasing_of_grants_eq_zero hcoherent hgrants
  exact ⟨e, by simp [release, unlock, transact, hreleasing], he⟩

/-- Else it is taken back, unless there is a fault in the making. -/
theorem isOk_release (htrap : l.queue.trap? = none)
    (hgrants : l.table.grants h.resource h.owner ≠ 0) : (l.release h).2.isOk = true := by
  obtain ⟨s, hreleasing⟩ := Table.releasing_of_grants_ne_zero hgrants
  have htransact := transact_of_trap?_eq_none htrap (·.releasing h.resource h.owner)
  simp only [hreleasing] at htransact
  have hok : (l.release h).2.isOk = (l.transact (·.releasing h.resource h.owner)).2.isOk :=
    (enters_release l h).2
  rw [hok, htransact]
  rfl

theorem isOk_release_iff (hcoherent : l.table.Coherent) (htrap : l.queue.trap? = none) :
    (l.release h).2.isOk = true ↔ l.table.grants h.resource h.owner ≠ 0 := by
  refine ⟨fun hok hgrants => ?_, isOk_release htrap⟩
  obtain ⟨e, hrefused, -⟩ := release_of_grants_eq_zero hcoherent hgrants
  rw [hrefused] at hok
  cases hok

end Locks

/-- A handle is given back: by hand, or as a scoped one that goes out of scope. -/
inductive Call.GivesBack (h : Handle) : Call → Prop where
  | release : GivesBack h (.release h)
  | drop : GivesBack h (.drop (.scoped h))

/-- The call is told that its handle is not good for anything, and revokes nothing. -/
structure Call.Harmless (c : Call) (h : Handle) (l : Locks) : Prop where
  refused : (c.perform l).2 = .failed (.notLocked h.resource h.owner) ∨
    ∃ holder, (c.perform l).2 = .failed (.invalidOwner h.resource h.owner holder)
  table : (c.perform l).1.table = l.table
  queue : (c.perform l).1.queue = l.queue

namespace Call

variable {c : Call} {h : Handle} {l : Locks}

/-- Both ways of giving a handle back come to the same. -/
theorem GivesBack.perform (hback : c.GivesBack h) :
    c.perform l = ((l.release h).1, .ofExcept (fun _ => .done) (l.release h).2) := by
  cases hback <;> rfl

theorem GivesBack.plan? (hback : c.GivesBack h) (t : Table) :
    c.plan? t = some (.release h.resource h.owner) := by
  cases hback <;> rfl

/-- Giving a handle back is harmless just when its owner has no grant on its resource. -/
theorem GivesBack.harmless_iff (hback : c.GivesBack h) (hcoherent : l.table.Coherent) :
    c.Harmless h l ↔ l.table.grants h.resource h.owner = 0 := by
  constructor
  · intro hharmless
    by_contra hgrants
    -- with a grant left the section is worked out, and nothing it can come to is a refusal
    obtain ⟨s, hs⟩ := Table.releasing_of_grants_ne_zero hgrants
    have hreply := hharmless.refused
    rw [hback.perform] at hreply
    rcases Locks.release_of_ok hs with hrelease | ⟨reason, hrelease⟩ <;>
      simp [hrelease, Reply.ofExcept] at hreply
  · intro hgrants
    obtain ⟨e, hrelease, he⟩ := Locks.release_of_grants_eq_zero hcoherent hgrants
    have hperform : c.perform l = (l.enter, .failed e) := by
      rw [hback.perform, hrelease]
      rfl
    refine ⟨?_, ?_, ?_⟩
    · rw [hperform]
      rcases he with rfl | ⟨holder, rfl⟩
      · exact .inl rfl
      · exact .inr ⟨holder, rfl⟩
    · rw [hperform, Locks.table_enter]
    · rw [hperform, Locks.queue_enter]

/-- Else it takes one grant away, whichever handle that was given for. -/
theorem GivesBack.takes (hback : c.GivesBack h) (htrap : l.queue.trap? = none)
    (hgrants : l.table.grants h.resource h.owner ≠ 0) :
    (c.perform l).2 = .done ∧
      (c.perform l).1.table.grants h.resource h.owner + 1 = l.table.grants h.resource h.owner := by
  have hok := Locks.isOk_release htrap hgrants
  rw [hback.perform]
  constructor
  · cases hrelease : (l.release h).2 with
    | ok done => rfl
    | error e =>
      rw [hrelease] at hok
      cases hok
  · rcases (Locks.enters_release l h).cases with ⟨-, s, hs, htable⟩ | ⟨hfailed, -⟩
    · obtain ⟨e, hreleased⟩ := Plan.done_of_edits hs
      rw [htable, Table.grants_released hreleased, if_pos ⟨rfl, rfl⟩]
      omega
    · rw [hok] at hfailed
      cases hfailed

end Call

namespace Locks

/-- A handle whose owner lost all locks is harmless just as long as the grants of its owner on
its resource since then were all given back. Else it takes one of those grants away. -/
theorem harmless_run_iff (settings : LockSettings) (before after : List Step) (h : Handle)
    (c : Call) (hback : c.GivesBack h)
    (hreclaimed : (((fresh settings).run before).releaseAll h.owner).2.isOk = true) :
    let l := (((fresh settings).run before).releaseAll h.owner).1
    (c.Harmless h (l.run after) ↔ balance (l.booked after) h.resource h.owner = 0) ∧
    (balance (l.booked after) h.resource h.owner ≠ 0 → (l.run after).queue.trap? = none →
      (c.perform (l.run after)).2 = .done ∧
      (c.perform (l.run after)).1.table.grants h.resource h.owner =
        balance (l.booked after) h.resource h.owner - 1) := by
  intro l
  have hcoherent : l.table.Coherent := by
    -- the reclamation is one more step of the run before
    have hrun : (fresh settings).run (before ++ [.call (.releaseAll h.owner)]) = l := by
      rw [run, List.foldl_append]
      rfl
    exact hrun ▸ (balances_run Table.coherent_empty _).1
  have hnone : l.table.grants h.resource h.owner = 0 := grants_releaseAll hreclaimed h.resource
  obtain ⟨hafter, hbalances⟩ := balances_run hcoherent after
  -- nothing was left to the owner, so the ledger since then tells all of the owner's grants
  have hgrants : ((l.run after).table.grants h.resource h.owner : Int) =
      balance (l.booked after) h.resource h.owner := by
    refine (congrFun (congrFun hbalances h.resource) h.owner).trans (foldl_settle_congr ?_ _)
    simp [Table.balances, hnone]
  rw [← hgrants]
  refine ⟨(hback.harmless_iff hafter).trans Int.natCast_eq_zero.symm, fun hleft htrap => ?_⟩
  obtain ⟨hdone, htaken⟩ := hback.takes htrap (mt Int.natCast_eq_zero.2 hleft)
  exact ⟨hdone, by omega⟩

/-- Alice asks for an action point. -/
def aliceAsks : Request := { resource := "ap_1", owner := "alice" }

/-- Alice asks for the action point once. -/
def aliceTries : Step :=
  .call (.acquireOnce (Graph.withRoots.insert "ap_1" (some Resource.project)) 0 false aliceAsks)

/-- Alice was granted the action point, lost all locks and was granted it again: the handle of
the first grant takes the second one away. -/
theorem harmless_run_iff_grantedAgain :
    let h := Handle.ofRequest aliceAsks
    let l := (((fresh {}).run [aliceTries]).releaseAll "alice").1.run [aliceTries]
    ¬ (Call.release h).Harmless h l ∧
      l.table.grants "ap_1" "alice" = 1 ∧
      ((Call.release h).perform l).2 = .done ∧
      ((Call.release h).perform l).1.table.grants "ap_1" "alice" = 0 := by
  intro h l
  have hreclaimed : (((fresh {}).run [aliceTries]).releaseAll h.owner).2.isOk = true := by
    decide +kernel
  have hbalance : balance ((((fresh {}).run [aliceTries]).releaseAll h.owner).1.booked [aliceTries])
      h.resource h.owner = 1 := by
    decide +kernel
  obtain ⟨hiff, htakes⟩ :=
    harmless_run_iff {} [aliceTries] [aliceTries] h (.release h) .release hreclaimed
  rw [hbalance] at hiff htakes
  obtain ⟨hdone, htaken⟩ := htakes (by decide) (by decide +kernel)
  exact ⟨fun hharmless => absurd (hiff.1 hharmless) (by decide), by decide +kernel, hdone,
    Int.natCast_eq_zero.1 htaken⟩

end Locks

end SceneLocks
