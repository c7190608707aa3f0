import SceneLocks.Proofs.Locks.Custody
import SceneLocks.Proofs.Locks.StaleHandles

/-!
# Tasks at work

Tasks ask for scoped locks, wait for them between two attempts, work under them, and end in one
way or another: by giving the lock back, at the end of their work, because that fails or panics,
or because somebody cancels them. Between their moves anybody else may do anything. A task that
was granted nothing has done nothing to the locks.
-/

namespace SceneLocks

/-! ## Who loses grants -/

/-- The owner whose grants the section of a plan takes back. -/
def Plan.loser? : Plan → Option User
  | .release _ owner | .reclaim owner => some owner
  | .grant .. | .update .. => none

/-- The owner whose grants a call takes back. -/
def Call.loser? : Call → Option User
  | .unlock _ owner | .releaseAll owner => some owner
  | .release h | .drop (.scoped h) => some h.owner
  | .attempt .. | .acquireOnce .. | .lock .. | .updateLock .. | .drop (.plain _) | .replay .. =>
    none

theorem Call.loser?_of_plan? {c : Call} {t : Table} {p : Plan} (h : c.plan? t = some p) :
    p.loser? = c.loser? := by
  cases plans_of_plan? h <;> rfl

/-- Everybody else keeps what they have. -/
theorem Table.le_grants_result {t : Table} {p : Plan} {s : Section} {user : User}
    (hs : p.edits t = .ok s) (huser : p.loser? ≠ some user) (resource : Resource) :
    t.grants resource user ≤ (s.result t).grants resource user := by
  have hdone := Plan.done_of_edits hs
  cases p with
  | grant whole scope r =>
    rw [grants_granted hdone]
    exact Nat.le_add_right _ _
  | release r owner =>
    obtain ⟨e, hreleased⟩ := hdone
    rw [grants_released hreleased, if_neg fun h => huser (congrArg some h.2)]
    exact Nat.le_refl _
  | reclaim owner =>
    refine Nat.le_of_eq ?_
    rw [grants_reclaimed hdone, if_neg fun h => huser (congrArg some h)]
  | update scope owner kind =>
    obtain ⟨e, hupdated⟩ := hdone
    obtain ⟨tree, covered, hresized, -⟩ := hupdated.resized
    exact Nat.le_of_eq (grants_resized hresized resource user).symm

/-- A call by which somebody else loses grants, or nobody. -/
theorem Call.le_grants_perform {c : Call} {user : User} (l : Locks) (huser : c.loser? ≠ some user)
    (resource : Resource) :
    l.table.grants resource user ≤ (c.perform l).1.table.grants resource user := by
  rcases Step.perform_cases l (.call c) with ⟨_, p, s, ⟨⟩, hplan, hs, -, htable⟩ | ⟨htable, -⟩
  · rw [show (c.perform l).1.table = s.result l.table from htable]
    apply Table.le_grants_result hs
    rwa [loser?_of_plan? hplan]
  · exact Nat.le_of_eq (congrArg (·.grants resource user) htable.symm)

/-- An attempt that does not succeed leaves the table and the queue alone, unless there is a fault
in the making. -/
theorem Locks.agree_attempt {l : Locks} (htrap : l.queue.trap = none) {now : Nat} {a : Acquisition}
    (hfailed : (Reply.ofProgress (l.attempt now a).2).isSuccess = false) :
    (l.attempt now a).1.Agree l := by
  obtain ⟨hagree, hok⟩ := enters_attempt l now a
  have htransact := transact_of_trap?_eq_none (l := l) (by simp [Queue.trap?, htrap])
    (Plan.edits · (.grant a.whole a.scope a.request))
  split at htransact
  · rw [htransact] at hagree
    exact hagree.trans (agree_enter l)
  · rw [htransact, hfailed] at hok
    cases hok

/-- A request that is granted had its section performed. -/
theorem Locks.granted_of_attempt {l : Locks} {now : Nat} {a : Acquisition} {h : Handle}
    (hgranted : (l.attempt now a).2 = .granted h) : h = .ofRequest a.request ∧
    ∃ s, Granted l.table a.whole a.scope a.request s ∧
      (l.attempt now a).1.table = s.result l.table := by
  have hreply : Reply.ofProgress (l.attempt now a).2 = .granted h := by
    rw [hgranted]
    rfl
  refine ⟨attempt_granted hreply, ?_⟩
  rcases (enters_attempt l now a).cases with ⟨-, s, hs, htable⟩ | ⟨hfailed, -⟩
  · exact ⟨s, granted_of_granting hs, htable⟩
  · rw [hreply] at hfailed
    cases hfailed

/-- Two entries of a resource with the same mode, the same flag and the same grants are the same. -/
theorem Entry.Coherent.ext {resource : Resource} {e e' : Entry} (h : e.Coherent resource)
    (h' : e'.Coherent resource) (hmode : e.mode = e'.mode) (htree : e.tree = e'.tree)
    (hgrants : ∀ user, e.grants user = e'.grants user) : e = e' := by
  have hcount : ∀ e : Entry, e.Coherent resource → ∀ user : User,
      e.owners[user]? = if 0 < e.grants user then some (e.grants user) else none := by
    intro e h user
    have howned : e.isOwnedBy user ↔ 0 < e.grants user := h.isOwnedBy_iff
    rw [Entry.isOwnedBy_iff] at howned
    split
    · next hpos =>
      obtain ⟨n, hn⟩ := howned.2 hpos
      rw [grants_eq_getD, hn]
      rfl
    · next hnone =>
      rw [Option.eq_none_iff_forall_ne_some]
      exact fun n hn => hnone (howned.1 ⟨n, hn⟩)
  have howners : e.owners = e'.owners := by
    apply Std.ExtTreeMap.ext_getElem?
    intro user
    rw [hcount e h, hcount e' h', hgrants]
  have hresource := h.stored.trans h'.stored.symm
  cases e
  cases e'
  simp_all

/-! ## Tasks -/

/-- How a task ends. -/
inductive Exit where
  /-- It gives its lock back by hand. -/
  | released
  /-- It is done. -/
  | completed
  /-- Its work fails. -/
  | failed
  | panicked
  /-- It is cancelled while it waits for something. -/
  | aborted
deriving DecidableEq, Repr

/-- What becomes of the lock in hand: unless it is given back by hand, it goes out of scope. -/
def Exit.use : Exit → Use
  | .released => .release
  | .completed | .failed | .panicked | .aborted => .drop

/-- A scoped lock is given back on every way out. -/
theorem Exit.givesBack_scoped (exit : Exit) (h : Handle) :
    exit.use.givesBack (.scoped h) = true := by
  cases exit <;> rfl

/-- How far a task is that asked for a scoped lock. -/
inductive Job where
  /-- Its request waits for the next attempt. -/
  | waiting (a : Acquisition)
  /-- It has a lock in hand. -/
  | holding (h : Holding)
  /-- It ended without having got the lock. -/
  | unserved
  /-- It gave its lock back. -/
  | done
  /-- It kept its lock and lost the handle. -/
  | left (h : Handle)
deriving DecidableEq

namespace Job

/-- Whether a grant of the resource that was made for the user is the task's. -/
def has (resource : Resource) (user : User) : Job → Bool
  | .holding h => h.handle.resource = resource ∧ h.handle.owner = user
  | .left h => h.resource = resource ∧ h.owner = user
  | .waiting _ | .unserved | .done => false

/-- Whether the task was granted nothing so far. -/
def isIdle : Job → Bool
  | .waiting _ | .unserved => true
  | .holding _ | .done | .left _ => false

/-- Whether the task ended and nothing of its lock is left. -/
def isOver : Job → Bool
  | .unserved | .done => true
  | .waiting _ | .holding _ | .left _ => false

/-- A task after it began. -/
def ofStart : Except LockError Acquisition → Job
  | .ok a => .waiting a
  | .error _ => .unserved

/-- A task after an attempt. -/
def ofProgress : Progress → Job
  | .granted h => .holding (.scoped h)
  | .failed _ => .unserved
  | .waiting next _ => .waiting next

/-- A task after it used its lock. -/
def after (h : Holding) (use : Use) : Job :=
  match use.leaves h with
  | some kept => .holding kept
  | none => if use.givesBack h then .done else .left h.handle

variable {resource : Resource} {user : User}

theorem has_of_isOver {job : Job} (h : job.isOver = true) : job.has resource user = false := by
  cases job <;> first | rfl | cases h

/-- The task has the grant until it gives it back. -/
theorem has_after (h : Holding) (use : Use) :
    (after h use).has resource user = (!use.givesBack h && (Job.holding h).has resource user) := by
  cases use <;> cases h <;> rfl

/-- The task is one of these users', and asks for the resource that it looked up. -/
def Fits (owners : List User) : Job → Prop
  | .waiting a => a.scope.resource = a.request.resource ∧ a.request.owner ∈ owners
  | .holding h => h.handle.owner ∈ owners
  | .left h => h.owner ∈ owners
  | .unserved | .done => True

theorem Fits.mem_of_has {owners : List User} {job : Job} (hfits : job.Fits owners)
    (hhas : job.has resource user = true) : user ∈ owners := by
  cases job with
  | holding h | left h => exact (of_decide_eq_true hhas).2 ▸ hfits
  | waiting | unserved | done => cases hhas

theorem Fits.after {owners : List User} {h : Holding} (hfits : (Job.holding h).Fits owners)
    (use : Use) : (after h use).Fits owners := by
  cases use <;> cases h <;> first | exact hfits | exact trivial

theorem isIdle_after (h : Holding) (use : Use) : (after h use).isIdle = false := by
  cases use <;> cases h <;> rfl

end Job

/-- A use that does not give the lock back leaves the table alone. -/
theorem Use.table_perform {use : Use} {h : Holding} (hkept : use.givesBack h = false) (l : Locks) :
    (use.perform l h).table = l.table := by
  cases use <;> cases h <;> first | rfl | cases hkept

/-! ## Tasks at work -/

/-- The lock manager, and the tasks that ask it for scoped locks in the order of their start. -/
structure Workshop where
  locks : Locks
  jobs : List Job := []

namespace Workshop

/-- What happens next. A task goes by its number. -/
inductive Move where
  /-- A task begins, and looks its resource up. -/
  | start (g : Graph) (now : Nat) (whole : Bool) (r : Request)
  /-- A task makes its next attempt. -/
  | attempt (n : Nat) (now : Nat)
  /-- A task does something with its lock. -/
  | use (n : Nat) (use : Use)
  | exit (n : Nat) (exit : Exit)
  /-- Somebody else does something. -/
  | other (step : Step)

namespace Move

/-- The task that uses its lock, and how. -/
def use? : Move → Option (Nat × Use)
  | .use n how => some (n, how)
  | .exit n how => some (n, how.use)
  | .start .. | .attempt .. | .other _ => none

/-- The user for whom a task begins. -/
def owner? : Move → Option User
  | .start _ _ _ r => some r.owner
  | .attempt .. | .use .. | .exit .. | .other _ => none

end Move

/-- A task uses its lock. -/
def useLock (w : Workshop) (n : Nat) (use : Use) (h : Holding) : Workshop where
  locks := use.perform w.locks h
  jobs := w.jobs.set n (.after h use)

/-- The state after a move. -/
def perform (w : Workshop) : Move → Workshop
  | .start g now whole r =>
    { w with jobs := w.jobs ++ [.ofStart (w.locks.begin g now whole r)] }
  | .attempt n now =>
    match w.jobs[n]? with
    | some (.waiting a) =>
      let (locks, progress) := w.locks.attempt now a
      { locks, jobs := w.jobs.set n (.ofProgress progress) }
    | _ => w
  | .use n use =>
    match w.jobs[n]? with
    | some (.holding h) => w.useLock n use h
    | _ => w
  | .exit n exit =>
    match w.jobs[n]?, exit with
    | some (.holding h), exit => w.useLock n exit.use h
    | some (.waiting _), .aborted => { w with jobs := w.jobs.set n .unserved }
    | _, _ => w
  | .other step => { w with locks := step.perform w.locks }

/-- The state after some moves. -/
def run (w : Workshop) (moves : List Move) : Workshop := moves.foldl perform w

/-- The task that makes a move. -/
def actor? (w : Workshop) : Move → Option Nat
  | .start .. => some w.jobs.length
  | .attempt n _ | .use n _ | .exit n _ => some n
  | .other _ => none

/-- How many grants of a resource that were made for a user are those of tasks. -/
def held (w : Workshop) (resource : Resource) (user : User) : Nat :=
  w.jobs.countP (·.has resource user)

variable {w w' : Workshop} {move : Move} {n : Nat} {resource : Resource} {user : User}

theorem run_append (w : Workshop) (moves more : List Move) :
    w.run (moves ++ more) = (w.run moves).run more :=
  List.foldl_append

theorem held_set {job : Job} (hjob : w.jobs[n]? = some job) (locks : Locks) (job' : Job)
    (resource : Resource) (user : User) :
    held { locks, jobs := w.jobs.set n job' } resource user + (job.has resource user).toNat =
      w.held resource user + (job'.has resource user).toNat := by
  obtain ⟨hn, hget⟩ := List.getElem?_eq_some_iff.1 hjob
  unfold held
  rw [List.countP_set hn, hget]
  have hpos : job.has resource user = true → 0 < w.jobs.countP (·.has resource user) := by
    intro hhas
    exact List.countP_pos_iff.2 ⟨job, List.mem_of_getElem? hjob, hhas⟩
  cases hhas : job.has resource user with
  | true =>
    have hpos := hpos hhas
    cases job'.has resource user <;> simp <;> omega
  | false => cases job'.has resource user <;> simp

/-! ## What a move comes to -/

/-- What a move comes to. -/
inductive Takes (w : Workshop) : Move → Workshop → Prop where
  | start {g : Graph} {now : Nat} {whole : Bool} {r : Request} : w.Takes (.start g now whole r)
      { w with jobs := w.jobs ++ [.ofStart (w.locks.begin g now whole r)] }
  | attempt {n now : Nat} {a : Acquisition} (hjob : w.jobs[n]? = some (.waiting a)) :
    w.Takes (.attempt n now)
      { locks := (w.locks.attempt now a).1
        jobs := w.jobs.set n (.ofProgress (w.locks.attempt now a).2) }
  | use {move : Move} {n : Nat} {use : Use} {h : Holding} (huse : move.use? = some (n, use))
    (hjob : w.jobs[n]? = some (.holding h)) : w.Takes move (w.useLock n use h)
  | abort {n : Nat} {a : Acquisition} (hjob : w.jobs[n]? = some (.waiting a)) :
    w.Takes (.exit n .aborted) { w with jobs := w.jobs.set n .unserved }
  /-- The task is not there, or not that far. -/
  | idle {move : Move} (hactor : w.actor? move ≠ none) : w.Takes move w
  | other {step : Step} : w.Takes (.other step) { w with locks := step.perform w.locks }

theorem takes_perform (w : Workshop) (move : Move) : w.Takes move (w.perform move) := by
  cases move with
  | start g now whole r => exact .start
  | attempt n now =>
    unfold perform
    dsimp only
    split
    · next hjob => exact .attempt hjob
    · exact .idle nofun
  | use n use =>
    unfold perform
    dsimp only
    split
    · next hjob => exact .use rfl hjob
    · exact .idle nofun
  | exit n exit =>
    unfold perform
    dsimp only
    split
    · next hjob => exact .use rfl hjob
    · next hjob => exact .abort hjob
    · exact .idle nofun
  | other step => exact .other

/-! ## Tasks that wait -/

/-- A task that was granted something has been granted something ever since. -/
theorem Takes.idle_before (htakes : w.Takes move w') {job job' : Job} (hjob : w.jobs[n]? = some job)
    (hjob' : w'.jobs[n]? = some job') (hidle : job'.isIdle = true) : job.isIdle = true := by
  have hset : ∀ (m : Nat) (before after : Job), w.jobs[m]? = some before →
      (w.jobs.set m after)[n]? = some job' → (before.isIdle = true ∨ after.isIdle = false) →
      job.isIdle = true := by
    intro m before after hbefore hafter hcase
    rw [List.getElem?_set] at hafter
    split at hafter
    · next hsame =>
      subst hsame
      obtain rfl := Option.some.inj (hbefore.symm.trans hjob)
      split at hafter
      · obtain rfl := Option.some.inj hafter
        simpa [hidle] using hcase
      · cases hafter
    · obtain rfl := Option.some.inj (hjob.symm.trans hafter)
      exact hidle
  cases htakes with
  | start =>
    rw [List.getElem?_append_left (List.getElem?_eq_some_iff.1 hjob).1] at hjob'
    obtain rfl := Option.some.inj (hjob.symm.trans hjob')
    exact hidle
  | attempt hwaiting => exact hset _ _ _ hwaiting hjob' (.inl rfl)
  | use huse hholding => exact hset _ _ _ hholding hjob' (.inr (Job.isIdle_after _ _))
  | abort hwaiting => exact hset _ _ _ hwaiting hjob' (.inl rfl)
  | idle | other =>
    obtain rfl := Option.some.inj (hjob.symm.trans hjob')
    exact hidle

theorem Takes.lt_length (htakes : w.Takes move w') (hn : n < w.jobs.length) :
    n < w'.jobs.length := by
  cases htakes with
  | start =>
    rw [List.length_append]
    exact Nat.lt_add_right _ hn
  | attempt | abort | use => simpa [useLock] using hn
  | idle | other => exact hn

theorem idle_before_run {moves : List Move} {job job' : Job} (hjob : w.jobs[n]? = some job)
    (hjob' : (w.run moves).jobs[n]? = some job') (hidle : job'.isIdle = true) :
    job.isIdle = true := by
  induction moves generalizing w job with
  | nil =>
    obtain rfl := Option.some.inj (hjob.symm.trans hjob')
    exact hidle
  | cons move moves ih =>
    have htakes := w.takes_perform move
    have hn := htakes.lt_length (List.getElem?_eq_some_iff.1 hjob).1
    have hnext : (w.perform move).jobs[n]? = some (w.perform move).jobs[n] :=
      List.getElem?_eq_getElem hn
    exact htakes.idle_before hjob hnext (ih hnext hjob')

theorem actor_of_use? {m : Nat} {how : Use} (huse : move.use? = some (m, how))
    (hactor : w.actor? move = some n) : m = n := by
  cases move <;> cases huse <;> exact Option.some.inj hactor

/-- As long as a task is granted nothing, its moves leave the table and the queue alone. -/
theorem Takes.agree (htakes : w.Takes move w') (htrap : w.locks.queue.trap = none)
    (hactor : w.actor? move = some n)
    (hidle : ∀ job, w'.jobs[n]? = some job → job.isIdle = true) : w'.locks.Agree w.locks := by
  cases htakes with
  | start | abort | idle => exact Locks.agree_rfl w.locks
  | @attempt m now a hjob =>
    obtain rfl := Option.some.inj hactor
    apply Locks.agree_attempt htrap
    have hn := (List.getElem?_eq_some_iff.1 hjob).1
    have hafter := hidle _ (List.getElem?_set_self hn)
    cases hprogress : (w.locks.attempt now a).2 with
    | granted h =>
      rw [hprogress] at hafter
      cases hafter
    | failed e => rfl
    | waiting next e => rfl
  | @use _ m use h huse hjob =>
    obtain rfl := actor_of_use? huse hactor
    have hn := (List.getElem?_eq_some_iff.1 hjob).1
    have hafter := hidle _ (List.getElem?_set_self hn)
    rw [Job.isIdle_after] at hafter
    cases hafter
  | other => cases hactor

/-- Who has no lock in hand any more does nothing more. -/
theorem perform_of_isOver {job : Job} (hactor : w.actor? move = some n)
    (hjob : w.jobs[n]? = some job) (hover : job.isOver = true) : w.perform move = w := by
  have htakes := w.takes_perform move
  generalize w.perform move = w' at htakes
  cases htakes with
  | start =>
    obtain rfl := Option.some.inj hactor
    rw [List.getElem?_eq_none (Nat.le_refl _)] at hjob
    cases hjob
  | attempt hwaiting | abort hwaiting =>
    obtain rfl := Option.some.inj hactor
    obtain rfl := Option.some.inj (hwaiting.symm.trans hjob)
    cases hover
  | use huse hholding =>
    obtain rfl := actor_of_use? huse hactor
    obtain rfl := Option.some.inj (hholding.symm.trans hjob)
    cases hover
  | idle => rfl
  | other => cases hactor

end Workshop

end SceneLocks
