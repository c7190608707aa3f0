import SceneLocks.Proofs.Locks.Tasks

/-!
# Scoped locks

Whatever tasks do in whatever order, each lock in a task's hands stands for one grant in the
table, which comes and goes with it. So nothing is left of the tasks once they have ended, on
whichever way, and no task takes what belongs to somebody else (`scoped_run`).
-/

namespace SceneLocks

namespace Workshop

variable {w w' : Workshop} {move : Move} {n : Nat} {resource : Resource} {user : User}

/-! ## What tasks have in hand -/

/-- What holds at any time, if these are the users for whom tasks begin. -/
structure Sound (owners : List User) (w : Workshop) : Prop where
  coherent : w.locks.table.Coherent
  trap : w.locks.queue.trap = none
  jobs : ∀ job ∈ w.jobs, job.Fits owners
  /-- Every lock in a task's hands is backed by a grant. -/
  backed : ∀ resource user, w.held resource user ≤ w.locks.table.grants resource user

/-- The grants in the table change by what the tasks have more or less in hand, and whatever entry
remains keeps its mode and its flag. -/
structure Conserves (w w' : Workshop) : Prop where
  grants : ∀ resource user, w'.locks.table.grants resource user + w.held resource user =
    w.locks.table.grants resource user + w'.held resource user
  entry : ∀ resource e e', w.locks.table.lookup? resource = some e →
    w'.locks.table.lookup? resource = some e' → e'.mode = e.mode ∧ e'.tree = e.tree

theorem Conserves.of_eq (htable : w'.locks.table = w.locks.table)
    (hheld : ∀ resource user, w'.held resource user = w.held resource user) : w.Conserves w' where
  grants resource user := by rw [htable, hheld]
  entry resource e e' he he' := by
    rw [htable] at he'
    obtain rfl := Option.some.inj (he.symm.trans he')
    exact ⟨rfl, rfl⟩

variable {owners : List User}

/-- A task that gets its lock has one grant more. -/
theorem conserves_granted {a : Acquisition} {now : Nat} {h : Handle}
    (hjob : w.jobs[n]? = some (.waiting a)) (hgranted : (w.locks.attempt now a).2 = .granted h) :
    w.Conserves
      { locks := (w.locks.attempt now a).1, jobs := w.jobs.set n (.holding (.scoped h)) } := by
  obtain ⟨rfl, s, hdone, htable⟩ := Locks.granted_of_attempt hgranted
  constructor
  · intro resource user
    have hheld := held_set hjob (w.locks.attempt now a).1
      (.holding (.scoped (.ofRequest a.request))) resource user
    have hhas : (Job.holding (.scoped (.ofRequest a.request))).has resource user =
        decide (a.request.resource = resource ∧ a.request.owner = user) := rfl
    rw [hhas] at hheld
    dsimp only
    rw [htable, Table.grants_granted hdone]
    split
    · next hsame =>
      simp only [Job.has, hsame, and_self, decide_true, Bool.toNat_true,
        Bool.toNat_false] at hheld
      omega
    · next hother =>
      simp only [Job.has, hother, decide_false, Bool.toNat_false] at hheld
      omega
  · intro resource e e' he he'
    dsimp only at he'
    rw [htable, hdone.lookup?, he] at he'
    split at he'
    · obtain rfl := Option.some.inj he'
      exact ⟨rfl, rfl⟩
    · obtain rfl := Option.some.inj he'
      exact ⟨rfl, rfl⟩

theorem Sound.conserves_attempt (hsound : w.Sound owners) {a : Acquisition} (now : Nat)
    (hjob : w.jobs[n]? = some (.waiting a)) :
    w.Conserves
      { locks := (w.locks.attempt now a).1
        jobs := w.jobs.set n (.ofProgress (w.locks.attempt now a).2) } := by
  cases hprogress : (w.locks.attempt now a).2 with
  | granted h => exact conserves_granted hjob hprogress
  | failed e =>
    have hagree := Locks.agree_attempt hsound.trap (by rw [hprogress]; rfl)
    exact .of_eq hagree.1 (held_set hjob _ .unserved)
  | waiting next e =>
    have hagree := Locks.agree_attempt hsound.trap (by rw [hprogress]; rfl)
    exact .of_eq hagree.1 (held_set hjob _ (.waiting next))

/-- A lock in hand is backed by a grant, so it can be given back. -/
theorem Sound.isOk_release (hsound : w.Sound owners) {h : Holding}
    (hjob : w.jobs[n]? = some (.holding h)) : (w.locks.release h.handle).2.isOk = true := by
  have hheld : 0 < w.held h.handle.resource h.handle.owner := by
    apply List.countP_pos_iff.2
    exact ⟨_, List.mem_of_getElem? hjob, by simp [Job.has]⟩
  have hbacked := hsound.backed h.handle.resource h.handle.owner
  apply Locks.isOk_release
  · simp [Queue.trap?, hsound.trap]
  · omega

/-- A lock that is given back takes its grant along. -/
theorem Sound.released_useLock (hsound : w.Sound owners) {h : Holding} {use : Use}
    (hjob : w.jobs[n]? = some (.holding h)) (hback : use.givesBack h = true) :
    ∃ s e, Released w.locks.table h.handle.resource h.handle.owner e s ∧
      (w.useLock n use h).locks.table = s.result w.locks.table := by
  rw [useLock, use.perform_of_givesBack hback]
  rcases (Locks.enters_release w.locks h.handle).cases with ⟨-, s, hs, htable⟩ | ⟨hfailed, -⟩
  · obtain ⟨e, hreleased⟩ := released_of_releasing hs
    exact ⟨s, e, hreleased, htable⟩
  · rw [hsound.isOk_release hjob] at hfailed
    cases hfailed

theorem Sound.conserves_useLock (hsound : w.Sound owners) {h : Holding} (use : Use)
    (hjob : w.jobs[n]? = some (.holding h)) : w.Conserves (w.useLock n use h) := by
  have hheld : ∀ resource user, (w.useLock n use h).held resource user +
      ((Job.holding h).has resource user).toNat =
        w.held resource user + ((Job.after h use).has resource user).toNat :=
    held_set hjob _ _
  simp only [Job.has_after] at hheld
  cases hback : use.givesBack h with
  | false =>
    simp only [hback, Bool.not_false, Bool.true_and, Nat.add_right_cancel_iff] at hheld
    exact .of_eq (use.table_perform hback w.locks) hheld
  | true =>
    obtain ⟨s, e, hreleased, htable⟩ := hsound.released_useLock hjob hback
    constructor
    · intro resource user
      have hheld := hheld resource user
      have hbacked := hsound.backed resource user
      rw [htable, Table.grants_released hreleased]
      simp only [hback, Job.has, Bool.not_true, Bool.false_and, Bool.toNat_false] at hheld
      split
      · next hsame =>
        simp only [hsame, and_self, decide_true, Bool.toNat_true] at hheld
        omega
      · next hother =>
        simp only [hother, decide_false, Bool.toNat_false] at hheld
        omega
    · intro resource e₁ e₂ he₁ he₂
      rw [htable] at he₂
      obtain ⟨before, hbefore, hmode, htree⟩ := hreleased.before he₂
      obtain rfl := Option.some.inj (he₁.symm.trans hbefore)
      exact ⟨hmode, htree⟩

/-- Whatever a task does, the grants in the table go with what the tasks have in hand. -/
theorem Sound.conserves (hsound : w.Sound owners) (hown : ∀ step, move ≠ .other step) :
    w.Conserves (w.perform move) := by
  have htakes := w.takes_perform move
  generalize w.perform move = w' at htakes
  cases htakes with
  | @start g now whole r =>
    refine Conserves.of_eq rfl fun resource user => ?_
    have hnone : (Job.ofStart (w.locks.begin g now whole r)).has resource user = false := by
      cases w.locks.begin g now whole r <;> rfl
    simp [held, hnone]
  | attempt hjob => exact hsound.conserves_attempt _ hjob
  | use huse hjob => exact hsound.conserves_useLock _ hjob
  | abort hjob => exact .of_eq rfl (held_set hjob _ .unserved)
  | idle => exact .of_eq rfl fun resource user => rfl
  | @other step => exact absurd rfl (hown step)

/-! ## Runs -/

/-- What a move has to be like if these are the users for whom tasks begin: others do not take
grants of these users back, and nobody sets a trap. -/
def Move.Fits (owners : List User) : Move → Prop
  | .start _ _ _ r => r.owner ∈ owners
  | .other (.call c) => ∀ user, c.loser? = some user → user ∉ owners
  | .other (.requeue q) => q.trap = none
  | .attempt .. | .use .. | .exit .. | .other (.breakOff ..) => True

theorem Sound.coherent_perform (hsound : w.Sound owners) (move : Move) :
    (w.perform move).locks.table.Coherent := by
  have htakes := w.takes_perform move
  generalize w.perform move = w' at htakes
  cases htakes with
  | start | abort | idle => exact hsound.coherent
  | @attempt n now a hjob =>
    rcases (Locks.enters_attempt w.locks now a).cases with ⟨-, s, hs, htable⟩ | ⟨-, htable⟩
    · have hresolved : (Plan.grant a.whole a.scope a.request).Resolved :=
        (hsound.jobs _ (List.mem_of_getElem? hjob)).1
      rw [htable]
      exact hsound.coherent.result hresolved hs
    · rw [htable]
      exact hsound.coherent
  | @use _ n use h huse hjob =>
    cases hback : use.givesBack h with
    | true =>
      obtain ⟨s, e, hreleased, htable⟩ := hsound.released_useLock hjob hback
      rw [htable]
      exact hsound.coherent.released hreleased
    | false =>
      rw [useLock, use.table_perform hback]
      exact hsound.coherent
  | @other step =>
    rcases step.perform_cases w.locks with ⟨c, p, s, rfl, hplan, hs, -, htable⟩ | ⟨htable, -⟩
    · rw [htable]
      exact hsound.coherent.result (Call.resolved_of_plan? hplan) hs
    · rw [htable]
      exact hsound.coherent

theorem Sound.trap_perform (hsound : w.Sound owners) (hfits : move.Fits owners) :
    (w.perform move).locks.queue.trap = none := by
  have htakes := w.takes_perform move
  generalize w.perform move = w' at htakes
  cases htakes with
  | start | abort | idle => exact hsound.trap
  | @attempt n now a hjob => exact (Locks.enters_attempt w.locks now a).trap hsound.trap
  | @use _ n use h huse hjob =>
    unfold useLock Use.perform
    dsimp only
    split
    · exact Call.trap_perform hsound.trap _
    · exact hsound.trap
  | @other step =>
    cases step with
    | call c => exact Call.trap_perform hsound.trap c
    | breakOff p k fault =>
      unfold Step.perform
      dsimp only
      split
      · rw [Locks.queue_enter]
        exact hsound.trap
      · rfl
    | requeue q => exact hfits

theorem Sound.fits_perform (hsound : w.Sound owners) (hfits : move.Fits owners) {job : Job}
    (hmem : job ∈ (w.perform move).jobs) : job.Fits owners := by
  have htakes := w.takes_perform move
  generalize w.perform move = w' at htakes hmem
  cases htakes with
  | @start g now whole r =>
    rcases List.mem_append.1 hmem with hold | hnew
    · exact hsound.jobs job hold
    · rw [List.mem_singleton] at hnew
      subst hnew
      cases hbegin : w.locks.begin g now whole r with
      | error e => exact trivial
      | ok a =>
        obtain ⟨rfl, -, hscope⟩ := Locks.of_begin hbegin
        exact ⟨Graph.resource_scope? hscope, hfits⟩
  | @attempt n now a hjob =>
    rcases List.mem_or_eq_of_mem_set hmem with hold | rfl
    · exact hsound.jobs job hold
    · -- an attempt keeps its request and scope, and the handle has the request's owner
      obtain ⟨hresource, howner⟩ := hsound.jobs _ (List.mem_of_getElem? hjob)
      cases hprogress : (w.locks.attempt now a).2 with
      | granted h =>
        obtain ⟨rfl, -⟩ := Locks.granted_of_attempt hprogress
        exact howner
      | failed e => exact trivial
      | waiting next e =>
        obtain ⟨hrequest, -, hscope⟩ := Locks.attempt_waiting hprogress
        rw [← hrequest, ← hscope] at hresource
        rw [← hrequest] at howner
        exact ⟨hresource, howner⟩
  | @use _ n use h huse hjob =>
    rcases List.mem_or_eq_of_mem_set hmem with hold | rfl
    · exact hsound.jobs job hold
    · exact (hsound.jobs _ (List.mem_of_getElem? hjob)).after use
  | abort hjob =>
    rcases List.mem_or_eq_of_mem_set hmem with hold | rfl
    · exact hsound.jobs job hold
    · exact trivial
  | idle | other => exact hsound.jobs job hmem

theorem Sound.backed_perform (hsound : w.Sound owners) (hfits : move.Fits owners)
    (resource : Resource) (user : User) :
    (w.perform move).held resource user ≤ (w.perform move).locks.table.grants resource user := by
  have hbacked := hsound.backed resource user
  by_cases hown : ∀ step, move ≠ .other step
  · have hgrants := (hsound.conserves hown).grants resource user
    omega
  · push Not at hown
    obtain ⟨step, rfl⟩ := hown
    show w.held resource user ≤ (step.perform w.locks).table.grants resource user
    cases step with
    | call c =>
      by_cases howner : user ∈ owners
      · have hkept := Call.le_grants_perform w.locks (fun h => hfits user h howner) resource
        exact Nat.le_trans hbacked hkept
      · have hnone : w.held resource user = 0 := by
          apply List.countP_eq_zero.2
          exact fun job hmem hhas => howner ((hsound.jobs job hmem).mem_of_has hhas)
        rw [hnone]
        exact Nat.zero_le _
    | breakOff p k fault =>
      rcases Step.perform_cases w.locks (.breakOff p k fault) with
        ⟨c, _, _, hstep, -⟩ | ⟨htable, -⟩
      · cases hstep
      · rw [htable]
        exact hbacked
    | requeue q => exact hbacked

theorem Sound.perform (hsound : w.Sound owners) (hfits : move.Fits owners) :
    (w.perform move).Sound owners where
  coherent := hsound.coherent_perform move
  trap := hsound.trap_perform hfits
  jobs _ hmem := hsound.fits_perform hfits hmem
  backed := hsound.backed_perform hfits

theorem Sound.run (hsound : w.Sound owners) {moves : List Move}
    (hfits : ∀ move ∈ moves, move.Fits owners) : (w.run moves).Sound owners := by
  induction moves generalizing w with
  | nil => exact hsound
  | cons move moves ih =>
    obtain ⟨hmove, hmoves⟩ := List.forall_mem_cons.1 hfits
    exact ih (hsound.perform hmove) hmoves

/-! ## What is left of the tasks -/

/-- An entry is as it was at first, but for what the tasks have in hand. -/
structure Kept (first : Table) (resource : Resource) (w : Workshop) : Prop where
  grants : ∀ user, w.locks.table.grants resource user =
    first.grants resource user + w.held resource user
  entry : ∀ e, first.lookup? resource = some e →
    ∃ e', w.locks.table.lookup? resource = some e' ∧ e'.mode = e.mode ∧ e'.tree = e.tree

variable {first : Table}

/-- An entry with grants is there. -/
theorem exists_of_grants {t : Table} (hpos : t.grants resource user ≠ 0) :
    ∃ e, t.lookup? resource = some e := by
  unfold Table.grants at hpos
  cases hfound : t.lookup? resource with
  | none => simp [hfound] at hpos
  | some e => exact ⟨e, rfl⟩

theorem Kept.conserves (hkept : Kept first resource w) (hfirst : first.Coherent)
    (hconserves : w.Conserves w') : Kept first resource w' := by
  have hgrants : ∀ user, w'.locks.table.grants resource user =
      first.grants resource user + w'.held resource user := by
    intro user
    have hbefore := hkept.grants user
    have hafter := hconserves.grants resource user
    omega
  refine ⟨hgrants, fun e he => ?_⟩
  -- somebody still has the grant that kept the entry at first
  obtain ⟨user, howned⟩ := (hfirst resource e he).owned
  have hpos : w'.locks.table.grants resource user ≠ 0 := by
    have hfirst := (hfirst resource e he).isOwnedBy_iff.1 howned
    rw [hgrants, Table.grants_of_lookup? he]
    exact Nat.ne_of_gt (Nat.lt_add_right _ hfirst)
  obtain ⟨e', he', hmode, htree⟩ := hkept.entry e he
  obtain ⟨e'', he''⟩ := exists_of_grants hpos
  obtain ⟨hmode', htree'⟩ := hconserves.entry resource e' e'' he' he''
  exact ⟨e'', he'', hmode'.trans hmode, htree'.trans htree⟩

/-- Steps of others that do not touch the entry. -/
theorem Kept.other (hkept : Kept first resource w) {step : Step}
    (happart : (step.perform w.locks).table.lookup? resource = w.locks.table.lookup? resource) :
    Kept first resource (w.perform (.other step)) where
  grants user := by
    rw [← show w.held resource user = (w.perform (.other step)).held resource user from rfl,
      ← hkept.grants user]
    exact congrArg (·.elim 0 (·.grants user)) happart
  entry e he := by
    obtain ⟨e', he', hsame⟩ := hkept.entry e he
    exact ⟨e', happart.trans he', hsame⟩

/-- Once the tasks have nothing in hand, the entry is as it was at first. -/
theorem Kept.lookup? (hkept : Kept first resource w) (hfirst : first.Coherent)
    (hcoherent : w.locks.table.Coherent) (hnone : ∀ user, w.held resource user = 0) :
    w.locks.table.lookup? resource = first.lookup? resource := by
  have hgrants : ∀ user, w.locks.table.grants resource user = first.grants resource user := by
    intro user
    rw [hkept.grants, hnone, Nat.add_zero]
  cases he : first.lookup? resource with
  | some e =>
    obtain ⟨e', he', hmode, htree⟩ := hkept.entry e he
    rw [he']
    apply congrArg some
    apply (hcoherent resource e' he').ext (hfirst resource e he) hmode htree
    intro user
    have hsame := hgrants user
    rwa [Table.grants, Table.grants, he, he'] at hsame
  | none =>
    rw [Option.eq_none_iff_forall_ne_some]
    intro e' he'
    -- an entry has an owner, who would have a grant
    obtain ⟨user, howned⟩ := (hcoherent resource e' he').owned
    have hpos := (hcoherent resource e' he').isOwnedBy_iff.1 howned
    have hsame := hgrants user
    rw [Table.grants_of_lookup? he', Table.grants, he] at hsame
    exact Nat.ne_of_gt hpos hsame

/-- No step of others changes the entry of the resource. -/
def Apart (w : Workshop) (moves : List Move) (resource : Resource) : Prop :=
  ∀ before step after, moves = before ++ .other step :: after →
    (step.perform (w.run before).locks).table.lookup? resource =
      (w.run before).locks.table.lookup? resource

theorem Sound.kept_run (hsound : w.Sound owners) {moves : List Move}
    (hfits : ∀ move ∈ moves, move.Fits owners) (hfirst : first.Coherent)
    (hapart : w.Apart moves resource) (hkept : Kept first resource w) :
    Kept first resource (w.run moves) := by
  induction moves generalizing w with
  | nil => exact hkept
  | cons move moves ih =>
    obtain ⟨hmove, hmoves⟩ := List.forall_mem_cons.1 hfits
    have hrest : (w.perform move).Apart moves resource := by
      intro before step after h
      exact hapart (move :: before) step after (congrArg (move :: ·) h)
    apply ih (hsound.perform hmove) hmoves hrest
    by_cases hown : ∀ step, move ≠ .other step
    · exact hkept.conserves hfirst (hsound.conserves hown)
    · push Not at hown
      obtain ⟨step, rfl⟩ := hown
      exact hkept.other (hapart [] step moves rfl)

/-! ## Every way out -/

/-- The task gives its lock back: one grant of the owner of the handle on its resource, and
nothing else. -/
structure GivesBack (w : Workshop) (n : Nat) (h : Handle) (w' : Workshop) : Prop where
  done : w'.jobs[n]? = some .done
  ok : (w.locks.release h).2.isOk = true
  grants : ∀ resource user, w'.locks.table.grants resource user +
    (if h.resource = resource ∧ h.owner = user then 1 else 0) = w.locks.table.grants resource user

theorem Sound.givesBack_useLock (hsound : w.Sound owners) {h : Holding} {use : Use}
    (hjob : w.jobs[n]? = some (.holding h)) (hback : use.givesBack h = true) :
    w.GivesBack n h.handle (w.useLock n use h) := by
  obtain ⟨s, e, hreleased, htable⟩ := hsound.released_useLock hjob hback
  have hpos : w.locks.table.grants h.handle.resource h.handle.owner ≠ 0 := by
    rw [← Locks.isOk_release_iff hsound.coherent (by simp [Queue.trap?, hsound.trap])]
    exact hsound.isOk_release hjob
  refine ⟨?_, hsound.isOk_release hjob, fun resource user => ?_⟩
  · have hn := (List.getElem?_eq_some_iff.1 hjob).1
    have hdone : Job.after h use = .done := by
      cases use <;> cases h <;> first | rfl | cases hback
    rw [← hdone]
    exact List.getElem?_set_self hn
  · rw [htable, Table.grants_released hreleased]
    split
    · next hsame =>
      obtain ⟨rfl, rfl⟩ := hsame
      omega
    · rfl

/-- Nothing breaks off, and nobody else takes back what the users for whom tasks begin were
granted. -/
structure Calm (moves : List Move) : Prop where
  faultless : ∀ q, .other (.requeue q) ∈ moves → q.trap = none
  spared : ∀ c user, .other (.call c) ∈ moves → c.loser? = some user →
    user ∉ moves.filterMap Move.owner?

theorem Calm.fits {moves : List Move} (hcalm : Calm moves) :
    ∀ move ∈ moves, move.Fits (moves.filterMap Move.owner?) := by
  intro move hmem
  cases move with
  | start g now whole r => exact List.mem_filterMap.2 ⟨_, hmem, rfl⟩
  | other step =>
    cases step with
    | call c => exact fun user => hcalm.spared c user hmem
    | requeue q => exact hcalm.faultless q hmem
    | breakOff => exact trivial
  | attempt | use | exit => exact trivial

/-- The lock manager before the first task begins. -/
def start (l : Locks) : Workshop := { locks := l }

/-- What the tasks of a run do to the locks; `w` is how far they are after these moves. -/
structure Scoped (first : Workshop) (moves : List Move) (w : Workshop) : Prop where
  /-- A task that waits, or ended without having got its lock, never did anything to the table or
  to the queue. -/
  idle : ∀ n job, w.jobs[n]? = some job → job.isIdle = true → ∀ before move after,
    moves = before ++ move :: after → (first.run before).actor? move = some n →
    (first.run (before ++ [move])).locks.Agree (first.run before).locks
  /-- A task that gets its lock has one grant of the owner on the resource of its request. -/
  granted : ∀ n now a h, w.jobs[n]? = some (.waiting a) →
    (w.locks.attempt now a).2 = .granted h → h = .ofRequest a.request ∧
    (w.perform (.attempt n now)).jobs[n]? = some (.holding (.scoped h)) ∧
    ∀ resource user, (w.perform (.attempt n now)).locks.table.grants resource user =
      w.locks.table.grants resource user + if h.resource = resource ∧ h.owner = user then 1 else 0
  /-- It gives this grant back, however it ends. -/
  exits : ∀ n exit h, w.jobs[n]? = some (.holding (.scoped h)) →
    w.GivesBack n h (w.perform (.exit n exit))
  /-- If it keeps the lock, just the handle changes hands. -/
  keepsAlive : ∀ n h, w.jobs[n]? = some (.holding (.scoped h)) →
    w.perform (.use n .keepAlive) = { w with jobs := w.jobs.set n (.holding (.plain h)) }
  /-- The kept handle then gives the grant back. -/
  released : ∀ n h, w.jobs[n]? = some (.holding (.plain h)) →
    w.GivesBack n h (w.perform (.use n .release))
  /-- Who gave the lock back, or never got it, does nothing more. -/
  ended : ∀ move n job, w.actor? move = some n → w.jobs[n]? = some job → job.isOver = true →
    w.perform move = w
  /-- The grants go with what the tasks have in hand, whatever a task does. -/
  conserves : ∀ move, (∀ step, move ≠ .other step) → w.Conserves (w.perform move)
  /-- No task takes a grant that is not its own. -/
  backed : ∀ resource user, w.held resource user ≤ w.locks.table.grants resource user
  /-- When all tasks have ended and no lock was left behind, every entry that others did not touch
  is as it was before. -/
  restored : (∀ job ∈ w.jobs, job.isOver = true) → ∀ resource, first.Apart moves resource →
    w.locks.table.lookup? resource = first.locks.table.lookup? resource
  entries : (∀ job ∈ w.jobs, job.isOver = true) → (∀ step, .other step ∉ moves) →
    w.locks.table.entries = first.locks.table.entries

theorem Sound.restored (hsound : w.Sound owners) {moves : List Move}
    (hfits : ∀ move ∈ moves, move.Fits owners) (hfirst : w.jobs = [])
    (hover : ∀ job ∈ (w.run moves).jobs, job.isOver = true) (hapart : w.Apart moves resource) :
    (w.run moves).locks.table.lookup? resource = w.locks.table.lookup? resource := by
  have hkept : Kept w.locks.table resource w := by
    refine ⟨fun user => ?_, fun e he => ⟨e, he, rfl, rfl⟩⟩
    rw [held, hfirst]
    rfl
  have hafter := hsound.kept_run hfits hsound.coherent hapart hkept
  apply hafter.lookup? hsound.coherent (hsound.run hfits).coherent
  intro user
  apply List.countP_eq_zero.2
  intro job hmem
  rw [Job.has_of_isOver (hover job hmem)]
  exact nofun

/-- A task that is granted nothing in the whole run leaves everything alone in the course of it. -/
theorem Sound.agree_run (hsound : w.Sound owners) {before after : List Move}
    (hfits : ∀ move ∈ before, move.Fits owners) {job : Job}
    (hjob : (w.run (before ++ move :: after)).jobs[n]? = some job) (hidle : job.isIdle = true)
    (hactor : (w.run before).actor? move = some n) :
    (w.run (before ++ [move])).locks.Agree (w.run before).locks := by
  rw [run_append] at hjob ⊢
  apply ((w.run before).takes_perform move).agree (hsound.run hfits).trap hactor
  intro job' hjob'
  exact idle_before_run hjob' hjob hidle

theorem perform_attempt {a : Acquisition} {now : Nat} {h : Handle}
    (hjob : w.jobs[n]? = some (.waiting a)) (hgranted : (w.locks.attempt now a).2 = .granted h) :
    h = .ofRequest a.request ∧
    (w.perform (.attempt n now)).jobs[n]? = some (.holding (.scoped h)) ∧
    ∀ resource user, (w.perform (.attempt n now)).locks.table.grants resource user =
      w.locks.table.grants resource user +
        if h.resource = resource ∧ h.owner = user then 1 else 0 := by
  have hperform : w.perform (.attempt n now) =
      { locks := (w.locks.attempt now a).1
        jobs := w.jobs.set n (.holding (.scoped h)) } := by
    simp [perform, hjob, hgranted, Job.ofProgress]
  have hn := (List.getElem?_eq_some_iff.1 hjob).1
  obtain ⟨rfl, s, hdone, htable⟩ := Locks.granted_of_attempt hgranted
  rw [hperform]
  refine ⟨rfl, List.getElem?_set_self hn, fun resource user => ?_⟩
  rw [htable, Table.grants_granted hdone]
  rfl

theorem perform_of_use? {how : Use} {h : Holding} (move : Move)
    (huse : move.use? = some (n, how)) (hjob : w.jobs[n]? = some (.holding h)) :
    w.perform move = w.useLock n how h := by
  cases move with
  | use m how' =>
    cases huse
    simp [perform, hjob]
  | exit m exit =>
    cases huse
    simp [perform, hjob]
  | start | attempt | other => cases huse

/-- Scoped locks come and go with the tasks that ask for them, in every run. -/
theorem scoped_run (settings : LockSettings) (steps : List Step)
    (htrap : ((Locks.fresh settings).run steps).queue.trap = none) (moves : List Move)
    (hcalm : Calm moves) :
    let first := start ((Locks.fresh settings).run steps)
    Scoped first moves (first.run moves) := by
  intro first
  have hcoherent : first.locks.table.Coherent :=
    (Locks.balances_run (l := .fresh settings) Table.coherent_empty steps).1
  have hfirst : first.Sound (moves.filterMap Move.owner?) :=
    ⟨hcoherent, htrap, List.forall_mem_nil _, fun _ _ => Nat.zero_le _⟩
  have hsound : (first.run moves).Sound (moves.filterMap Move.owner?) := hfirst.run hcalm.fits
  refine ⟨?_, fun n now a h => perform_attempt, ?_, ?_, ?_, fun move n job => perform_of_isOver,
    fun move hown => hsound.conserves hown, hsound.backed,
    fun hover resource => hfirst.restored hcalm.fits rfl hover, ?_⟩
  · intro n job hjob hidle before move after hmoves hactor
    subst hmoves
    apply hfirst.agree_run _ hjob hidle hactor
    intro move hmem
    exact hcalm.fits move (List.mem_append_left _ hmem)
  · intro n exit h hjob
    rw [perform_of_use? (.exit n exit) rfl hjob]
    exact hsound.givesBack_useLock hjob (exit.givesBack_scoped h)
  · intro n h hjob
    rw [perform_of_use? (.use n .keepAlive) rfl hjob]
    rfl
  · intro n h hjob
    rw [perform_of_use? (.use n .release) rfl hjob]
    exact hsound.givesBack_useLock hjob rfl
  · intro hover hown
    apply Std.ExtTreeMap.ext_getElem?
    intro resource
    apply hfirst.restored hcalm.fits rfl hover
    intro before step after hmoves
    exact absurd (hmoves ▸ List.mem_append_right _ List.mem_cons_self) (hown step)

/-- Alice asks for a share of the action point, which others may share. -/
def aliceShares : Request := { resource := "ap_1", owner := "alice", mode := .shared }

/-- Bob asks for the whole of it, and again if need be. -/
def bobAsks : Request := { resource := "ap_1", owner := "bob", retries := some 3 }

/-- The graph with the action point. -/
def actionPoint : Graph := Graph.withRoots.insert "ap_1" (some Resource.project)

/-- Alice has a share of the action point before the first task begins. -/
def aliceShared : Locks :=
  (Locks.fresh {}).run [.call (.acquireOnce actionPoint 0 false aliceShares)]

/-- Two tasks of Alice get another share each, and a task of Bob waits. The first task panics, the
second one keeps its lock for a while, and Bob's is cancelled. -/
def panicsAndKeeps : List Move :=
  [.start actionPoint 0 false aliceShares, .start actionPoint 0 false aliceShares,
    .start actionPoint 0 false bobAsks, .attempt 0 0, .attempt 1 0, .attempt 2 0,
    .exit 0 .panicked, .use 1 .keepAlive, .exit 2 .aborted, .use 1 .release]

/-- What is left is the share that Alice had before. -/
theorem scoped_run_panicsAndKeeps :
    aliceShared.queue.trap = none ∧ Calm panicsAndKeeps ∧
      ((start aliceShared).run panicsAndKeeps).jobs = [.done, .done, .unserved] ∧
      ((start aliceShared).run panicsAndKeeps).locks.table.entries =
        (start aliceShared).locks.table.entries ∧
      (start aliceShared).locks.table.grants "ap_1" "alice" = 1 := by
  have htrap : aliceShared.queue.trap = none := by decide +kernel
  have hcalm : Calm panicsAndKeeps := by
    constructor
    · intro q hmem
      simp [panicsAndKeeps] at hmem
    · intro c user hmem
      simp [panicsAndKeeps] at hmem
  have hscoped := scoped_run {} [.call (.acquireOnce actionPoint 0 false aliceShares)] htrap
    panicsAndKeeps hcalm
  have hjobs : ((start aliceShared).run panicsAndKeeps).jobs = [.done, .done, .unserved] := by
    decide +kernel
  have hover : ∀ job ∈ ((start aliceShared).run panicsAndKeeps).jobs, job.isOver = true := by
    rw [hjobs]
    decide
  have hown : ∀ step, .other step ∉ panicsAndKeeps := by
    intro step hmem
    simp [panicsAndKeeps] at hmem
  exact ⟨htrap, hcalm, hjobs, hscoped.entries hover hown, by decide +kernel⟩

end Workshop

end SceneLocks
