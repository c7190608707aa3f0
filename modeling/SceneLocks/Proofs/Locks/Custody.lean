import SceneLocks.Proofs.Locks.Answers
import SceneLocks.Proofs.Locks.Exclusion

/-!
# Handles in hand

A request that is granted leaves a handle with its caller, who may mark it, hand it on as a plain
one, give it back or let go of it. A handle that was consumed is out of reach. So the lock manager
and its callers together make a run of deeds, in which the handles go by the order in which they
were given out.
-/

namespace SceneLocks

/-! ## Handles that are given out -/

theorem Reply.ofExcept_ne_granted {α : Type} {f : α → Reply} {h : Handle}
    (hf : ∀ a, f a ≠ .granted h) (result : Except LockError α) :
    ofExcept f result ≠ .granted h := by
  cases result with
  | ok a => exact hf a
  | error e => exact nofun

/-- Only a call that grants a request is answered with a handle. -/
theorem Call.of_granted {c : Call} {l : Locks} {h : Handle}
    (hgranted : (c.perform l).2 = .granted h) :
    ∃ whole scope r, c.plan? l.table = some (.grant whole scope r) ∧ h = .ofRequest r := by
  cases c with
  | attempt now a resolved => exact ⟨_, _, _, rfl, Locks.attempt_granted hgranted⟩
  | acquireOnce g now whole r =>
    cases hscope : g.scope? r.resource with
    | none => simp [perform, Locks.acquireOnce_of_scope?_eq_none hscope, Reply.ofExcept] at hgranted
    | some scope =>
      obtain ⟨a, hr, -, -, -, hreply⟩ := Locks.acquireOnce_of_scope? hscope l now whole
      refine ⟨whole, scope, r.once, by simp [plan?, hscope], ?_⟩
      rw [← hr]
      exact Locks.attempt_granted (hreply.symm.trans hgranted)
  | drop holding =>
    rcases holding with handle | handle
    · cases hgranted
    · simp [perform, Reply.ofExcept_ne_granted] at hgranted
  | replay connection user =>
    cases hsent : (l.replay connection user).2 <;> simp [perform, hsent] at hgranted
  | lock | unlock | release | updateLock | releaseAll =>
    simp [perform, Reply.ofExcept_ne_granted] at hgranted

namespace Step

/-- The step needs no handle that was given out before. -/
def Handleless : Step → Prop
  | .call (.release _) | .call (.drop _) => False
  | _ => True

/-- The handle that the step gives out. -/
def handle? (l : Locks) : Step → Option Handle
  | .call c =>
    match (c.perform l).2 with
    | .granted h => some h
    | .done | .count _ | .failed _ | .broken => none
  | .breakOff .. | .requeue _ => none

/-- A handle that is given out is that of a request which the section of the step granted. -/
theorem handle?_eq_some {l : Locks} {step : Step} {h : Handle} (hgiven : step.handle? l = some h) :
    ∃ c whole scope r, step = .call c ∧ c.plan? l.table = some (.grant whole scope r) ∧
      (c.perform l).2.isSuccess = true ∧ h = .ofRequest r := by
  cases step with
  | call c =>
    cases hgranted : (c.perform l).2 with
    | granted handle =>
      simp only [handle?, hgranted, Option.some.injEq] at hgiven
      subst hgiven
      obtain ⟨whole, scope, r, hplan, hhandle⟩ := Call.of_granted hgranted
      exact ⟨c, whole, scope, r, rfl, hplan, by rw [hgranted]; rfl, hhandle⟩
    | done | count | failed | broken => simp [handle?, hgranted] at hgiven
  | breakOff | requeue => cases hgiven

end Step

/-! ## Uses of a handle -/

/-- What can be done with a handle in hand. -/
inductive Use where
  /-- The holder changes the resource. -/
  | mark
  /-- A scoped handle becomes a plain one. -/
  | keepAlive
  /-- A plain handle is given up, and its lock stays. -/
  | detach
  | release
  /-- The handle goes out of scope. -/
  | drop
deriving DecidableEq

namespace Use

/-- The handle after its use, unless it was consumed. -/
def leaves : Use → Holding → Option Holding
  | .mark, holding => some (holding.map .markModified)
  | .keepAlive, holding => some (.plain holding.handle)
  | .detach, .scoped h => some (.scoped h)
  | .detach, .plain _ | .release, _ | .drop, _ => none

/-- The call on the lock manager that the use comes to. -/
def call? (holding : Holding) : Use → Option Call
  | .release => some (.release holding.handle)
  | .drop => some (.drop holding)
  | .mark | .keepAlive | .detach => none

/-- The state after the use. -/
def perform (l : Locks) (holding : Holding) (use : Use) : Locks :=
  match use.call? holding with
  | some call => (call.perform l).1
  | none => l

/-- Whether the lock is given back: by hand, or because a scoped handle goes out of scope. -/
def givesBack : Use → Holding → Bool
  | .release, _ | .drop, .scoped _ => true
  | .drop, .plain _ | .mark, _ | .keepAlive, _ | .detach, _ => false

/-- Both ways of giving a handle back come to the same. -/
theorem perform_of_givesBack {use : Use} {holding : Holding} (h : use.givesBack holding = true)
    (l : Locks) : use.perform l holding = (l.release holding.handle).1 := by
  cases use with
  | release => rfl
  | drop =>
    rcases holding with handle | handle
    · cases h
    · rfl
  | mark | keepAlive | detach => cases h

/-- A handle that is left is the one that was used, and at most it was marked. -/
theorem handle_of_leaves {use : Use} {holding left : Holding}
    (h : use.leaves holding = some left) :
    left.handle = if use = .mark then holding.handle.markModified else holding.handle := by
  cases use with
  | mark =>
    obtain rfl := Option.some.inj h
    cases holding <;> rfl
  | keepAlive =>
    obtain rfl := Option.some.inj h
    rfl
  | detach =>
    rcases holding with handle | handle
    · cases h
    · obtain rfl := Option.some.inj h
      rfl
  | release | drop => cases h

end Use

/-! ## Deeds -/

/-- The lock manager with the handles that it gave out. -/
structure Custody where
  locks : Locks
  /-- In the order in which they were given out; one that was consumed leaves a gap. -/
  handles : List (Option Holding) := []

/-- What the callers of the lock manager do. -/
inductive Deed where
  /-- A step of the lock manager. If it grants a request, the handle goes to the caller, scoped or
  plain. -/
  | step (guarded : Bool) (step : Step) (handleless : step.Handleless)
  /-- The handle of a number is used, if it is in hand. -/
  | use (n : Nat) (use : Use)
  /-- Somebody else drops the cached data of a resource. -/
  | invalidate (resource : Resource)

namespace Custody

/-- The lock manager before its first call. -/
def start (settings : LockSettings) : Custody := { locks := .fresh settings }

/-- The handle of a number, if it is in hand. -/
def held? (c : Custody) (n : Nat) : Option Holding := c.handles[n]?.join

/-- The handle that goes to the caller of a step. -/
def holding? (c : Custody) (guarded : Bool) (step : Step) : Option Holding :=
  (step.handle? c.locks).map (if guarded then .scoped else .plain)

/-- The state after a deed. -/
def perform (c : Custody) : Deed → Custody
  | .step guarded step _ =>
    { locks := step.perform c.locks
      handles := c.handles ++ (c.holding? guarded step).toList.map some }
  | .use n use =>
    match c.held? n with
    | some holding =>
      { locks := use.perform c.locks holding, handles := c.handles.set n (use.leaves holding) }
    | none => c
  | .invalidate resource => { c with locks := c.locks.invalidate resource }

/-- The state after some deeds. -/
def run (c : Custody) (deeds : List Deed) : Custody := deeds.foldl perform c

/-- A handle is given back. -/
structure Returns (c : Custody) (n : Nat) (use : Use) (holding : Holding) : Prop where
  held : c.held? n = some holding
  back : use.givesBack holding = true

theorem perform_use_of_held {c : Custody} {n : Nat} {holding : Holding}
    (h : c.held? n = some holding) (use : Use) :
    c.perform (.use n use) =
      { locks := use.perform c.locks holding
        handles := c.handles.set n (use.leaves holding) } := by
  simp [perform, h]

theorem perform_use_of_not_held {c : Custody} {n : Nat} (h : c.held? n = none) (use : Use) :
    c.perform (.use n use) = c := by
  simp [perform, h]

theorem run_append (c : Custody) (deeds more : List Deed) :
    c.run (deeds ++ more) = (c.run deeds).run more :=
  List.foldl_append

/-! ## Where handles come from -/

variable {c : Custody} {deed : Deed} {n : Nat} {holding : Holding}

theorem lt_of_held? (h : c.held? n = some holding) : n < c.handles.length := by
  by_contra hge
  simp [held?, List.getElem?_eq_none (Nat.not_lt.1 hge)] at h

theorem length_perform_le (c : Custody) (deed : Deed) :
    c.handles.length ≤ (c.perform deed).handles.length := by
  cases deed with
  | step guarded step handleless => simp [perform]
  | use m use =>
    cases hheld : c.held? m with
    | none => simp [perform_use_of_not_held hheld]
    | some holding => simp [perform_use_of_held hheld]
  | invalidate resource => exact Nat.le_refl _

theorem length_run_le (c : Custody) (deeds : List Deed) :
    c.handles.length ≤ (c.run deeds).handles.length := by
  induction deeds generalizing c with
  | nil => exact Nat.le_refl _
  | cons deed deeds ih => exact Nat.le_trans (c.length_perform_le deed) (ih (c.perform deed))

/-- A step gives out at most one handle, with the next number. -/
theorem held?_step {guarded : Bool} {step : Step} {handleless : step.Handleless}
    (h : (c.perform (.step guarded step handleless)).held? n = some holding) :
    c.held? n = some holding ∨ n = c.handles.length ∧ c.holding? guarded step = some holding := by
  rw [held?, perform, List.getElem?_append] at h
  split at h
  · exact .inl h
  · right
    cases hnew : c.holding? guarded step with
    | none => simp [hnew] at h
    | some new =>
      rw [hnew, Option.toList_some, List.map_singleton, List.getElem?_singleton] at h
      split at h
      · exact ⟨by omega, h⟩
      · cases h

theorem held?_use {m : Nat} {use : Use} (h : (c.perform (.use m use)).held? n = some holding) :
    (c.held? n = some holding ∧ n ≠ m) ∨
    (n = m ∧ ∃ before, c.held? n = some before ∧ use.leaves before = some holding) := by
  cases hheld : c.held? m with
  | none =>
    rw [perform_use_of_not_held hheld] at h
    refine .inl ⟨h, ?_⟩
    rintro rfl
    rw [hheld] at h
    cases h
  | some before =>
    rw [perform_use_of_held hheld, held?, List.getElem?_set] at h
    split at h
    · next hsame =>
      subst hsame
      simp only [lt_of_held? hheld, if_true, Option.join_some] at h
      exact .inr ⟨rfl, before, hheld, h⟩
    · next hother => exact .inl ⟨h, Ne.symm hother⟩

/-- A handle in hand was in hand before the deed, and at most it was marked, or it was just given
out. -/
inductive Stems (c : Custody) (n : Nat) (handle : Handle) : Deed → Prop where
  | kept {deed : Deed} {before : Holding} (hheld : c.held? n = some before)
    (hsame : handle = before.handle) (hother : deed ≠ .use n .mark) : c.Stems n handle deed
  | marked {before : Holding} (hheld : c.held? n = some before)
    (hmarked : handle = before.handle.markModified) : c.Stems n handle (.use n .mark)
  | new {guarded : Bool} {step : Step} {handleless : step.Handleless}
    (hlast : n = c.handles.length) (hgranted : step.handle? c.locks = some handle) :
    c.Stems n handle (.step guarded step handleless)

theorem stems_perform (h : (c.perform deed).held? n = some holding) :
    c.Stems n holding.handle deed := by
  cases deed with
  | step guarded step handleless =>
    rcases held?_step h with hheld | ⟨hlast, hnew⟩
    · exact .kept hheld rfl nofun
    · obtain ⟨handle, hgranted, rfl⟩ := Option.map_eq_some_iff.1 hnew
      cases guarded with
      | true => exact .new hlast hgranted
      | false => exact .new hlast hgranted
  | use m use =>
    rcases held?_use h with ⟨hheld, hother⟩ | ⟨rfl, before, hheld, hleaves⟩
    · refine .kept hheld rfl ?_
      rintro ⟨⟩
      exact hother rfl
    · have hhandle := Use.handle_of_leaves hleaves
      by_cases hmark : use = .mark
      · subst hmark
        exact .marked hheld hhandle
      · rw [if_neg hmark] at hhandle
        refine .kept hheld hhandle ?_
        rintro ⟨⟩
        exact hmark rfl
  | invalidate resource => exact .kept h rfl nofun

/-! ## What a deed does to the table -/

/-- The call on the lock manager that a deed comes to. -/
def step? (c : Custody) : Deed → Option Step
  | .step _ step _ => some step
  | .use n use => (c.held? n).bind fun holding => (use.call? holding).map .call
  | .invalidate _ => none

/-- A deed leaves the table alone or performs the section of its call. -/
theorem table_perform (c : Custody) (deed : Deed) :
    (c.perform deed).locks.table = c.locks.table ∨
    ∃ call p s, c.step? deed = some (.call call) ∧ call.plan? c.locks.table = some p ∧
      p.edits c.locks.table = .ok s ∧ (c.perform deed).locks.table = s.result c.locks.table := by
  have hstep : (c.perform deed).locks.table =
      ((c.step? deed).elim c.locks (·.perform c.locks)).table := by
    cases deed with
    | step guarded step handleless => rfl
    | use n use =>
      cases hheld : c.held? n with
      | none => rw [perform_use_of_not_held hheld, step?, hheld]; rfl
      | some holding =>
        rw [perform_use_of_held hheld, step?, hheld, Option.bind_some, Use.perform]
        cases use.call? holding <;> rfl
    | invalidate resource => rfl
  rw [hstep]
  cases c.step? deed with
  | none => exact .inl rfl
  | some step =>
    rcases step.perform_cases c.locks with ⟨call, p, s, rfl, hplan, hs, -, htable⟩ | ⟨htable, -⟩
    · exact .inr ⟨call, p, s, rfl, hplan, hs, htable⟩
    · exact .inl htable

/-- A handle that is given back takes a grant of its owner along, or nothing happens. -/
theorem Returns.table_perform {use : Use} (h : c.Returns n use holding) :
    ((c.locks.release holding.handle).2.isOk = true ∧ ∃ s,
      (Plan.release holding.handle.resource holding.handle.owner).edits c.locks.table = .ok s ∧
      (c.perform (.use n use)).locks.table = s.result c.locks.table) ∨
    ((c.locks.release holding.handle).2.isOk = false ∧
      (c.perform (.use n use)).locks.table = c.locks.table) := by
  rw [perform_use_of_held h.held, use.perform_of_givesBack h.back]
  exact (Locks.enters_release c.locks holding.handle).cases

theorem coherent_perform (h : c.locks.table.Coherent) (deed : Deed) :
    (c.perform deed).locks.table.Coherent := by
  rcases c.table_perform deed with htable | ⟨call, p, s, -, hplan, hs, htable⟩
  · rwa [htable]
  · rw [htable]
    exact h.result (Call.resolved_of_plan? hplan) hs

theorem coherent_deeds (h : c.locks.table.Coherent) (deeds : List Deed) :
    (c.run deeds).locks.table.Coherent := by
  induction deeds generalizing c with
  | nil => exact h
  | cons deed deeds ih => exact ih (coherent_perform h deed)

end Custody

end SceneLocks
