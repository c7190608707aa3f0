import Mathlib.Algebra.GroupWithZero.Nat
import SceneLocks.Proofs.Simulation.Moves

/-!
# Sleeping

A world in which the foreground sleeps makes moves: the appointments come to pass one after the
other, each at its tick. The number of appointments that may come to pass is bounded by a budget
taken beforehand (`World.budget`). The bound is never met early: every appointment that comes to
pass spends more of the budget than the appointments cost that it makes.
-/

namespace SceneLocks

open Time

/-! ## The settings stay -/

theorem Engine.settings_reclaim (e : Engine) (t : GraceTimer) :
    (e.reclaim t).locks.settings = e.locks.settings := by
  have hreleased := (Locks.sameRest_releaseAll e.locks t.user).1
  unfold reclaim
  split
  · rfl
  · split <;> next heq =>
      rw [heq] at hreleased
      exact hreleased

theorem Engine.settings_settleQueue (e : Engine) :
    e.settleQueue.locks.settings = e.locks.settings := by
  unfold settleQueue withDelivery
  split <;> rfl

/-! ## Attempts -/

/-- What may still become of an attempt, at most. -/
def Progress.cost : Progress → Nat
  | .granted _ => 1
  | .failed _ => 0
  | .waiting next _ => next.left + 2

theorem Locks.cost_attempt (l : Locks) (now : Nat) (a : Acquisition) :
    (l.attempt now a).2.cost ≤ a.left + 1 := by
  unfold Locks.attempt
  dsimp only
  split
  · exact Nat.le_add_left 1 a.left
  · split
    · exact Nat.zero_le _
    · split
      · exact Nat.zero_le _
      · simp only [Progress.cost]
        omega

namespace Simulation

/-! ## The agenda -/

namespace Agenda

variable {a : Agenda}

/-- The entries are in the order of their ticks. -/
def Sorted (a : Agenda) : Prop := a.Pairwise (·.tick ≤ ·.tick)

/-- Behind the first entry that is later than a tick all are later. -/
theorem Sorted.lt_of_mem_dropWhile (h : a.Sorted) {tick : Nat} {p : Appointment}
    (hp : p ∈ a.dropWhile (·.tick ≤ tick)) : tick < p.tick := by
  induction a with
  | nil => simp at hp
  | cons q a ih =>
    obtain ⟨hq, h⟩ := List.pairwise_cons.1 h
    by_cases hqtick : q.tick ≤ tick
    · rw [List.dropWhile_cons_of_pos (by simpa using hqtick)] at hp
      exact ih h hp
    · rw [List.dropWhile_cons_of_neg (by simpa using hqtick)] at hp
      rcases List.mem_cons.1 hp with rfl | hp
      · exact Nat.lt_of_not_le hqtick
      · exact Nat.lt_of_lt_of_le (Nat.lt_of_not_le hqtick) (hq p hp)

theorem Sorted.add (h : a.Sorted) (tick : Nat) (activity : Activity) :
    (a.add tick activity).Sorted := by
  have hearlier : ∀ p ∈ a.takeWhile (·.tick ≤ tick), p.tick ≤ tick := by
    intro p hp
    simpa using List.all_eq_true.1 List.all_takeWhile p hp
  have hlater : ∀ p ∈ a.dropWhile (·.tick ≤ tick), tick ≤ p.tick :=
    fun p hp => Nat.le_of_lt (h.lt_of_mem_dropWhile hp)
  refine List.pairwise_append.2 ⟨h.sublist (List.takeWhile_sublist _),
    List.pairwise_cons.2 ⟨hlater, h.sublist (List.dropWhile_sublist _)⟩, fun p hp q hq => ?_⟩
  rcases List.mem_cons.1 hq with rfl | hq
  · exact hearlier p hp
  · exact Nat.le_trans (hearlier p hp) (hlater q hq)

theorem budget_eq_sum (retries : UInt32) (a : Agenda) :
    a.budget retries = (a.map (·.activity.budget retries)).sum := by
  rw [List.sum_eq_foldl, List.foldl_map]
  rfl

theorem budget_cons (retries : UInt32) (p : Appointment) (a : Agenda) :
    budget retries (p :: a) = p.activity.budget retries + a.budget retries := by
  simp only [budget_eq_sum, List.map_cons, List.sum_cons]

theorem budget_add (retries : UInt32) (a : Agenda) (tick : Nat) (activity : Activity) :
    (a.add tick activity).budget retries = activity.budget retries + a.budget retries := by
  have hsplit : (a.takeWhile (·.tick ≤ tick)) ++ (a.dropWhile (·.tick ≤ tick)) = a :=
    List.takeWhile_append_dropWhile
  calc (a.add tick activity).budget retries
      = ((a.takeWhile (·.tick ≤ tick)).map (·.activity.budget retries)).sum +
          (activity.budget retries +
            ((a.dropWhile (·.tick ≤ tick)).map (·.activity.budget retries)).sum) := by
        simp [budget_eq_sum, add]
    _ = activity.budget retries + a.budget retries := by
        conv_rhs => rw [budget_eq_sum, ← hsplit]
        rw [List.map_append, List.sum_append]
        omega

end Agenda

/-! ## What comes to pass costs -/

namespace World

/-- The settings stay and the agenda stays in order, and what is on it costs at most so much
more. -/
structure Costs (w w' : World) (cost : Nat) : Prop where
  settings : w'.engine.locks.settings = w.engine.locks.settings
  sorted : w.agenda.Sorted → w'.agenda.Sorted
  budget : w'.budget ≤ w.budget + cost

theorem Costs.mono {w w' : World} {cost cost' : Nat} (h : w.Costs w' cost) (hle : cost ≤ cost') :
    w.Costs w' cost' :=
  ⟨h.settings, h.sorted, Nat.le_trans h.budget (Nat.add_le_add_left hle _)⟩

theorem Costs.trans {w w' w'' : World} {cost cost' : Nat} (h : w.Costs w' cost)
    (h' : w'.Costs w'' cost') : w.Costs w'' (cost + cost') where
  settings := h'.settings.trans h.settings
  sorted := h'.sorted ∘ h.sorted
  budget := by
    have := h.budget
    have := h'.budget
    omega

/-- Work on the locks costs nothing. -/
theorem costs_of_agenda {w w' : World} (hagenda : w'.agenda = w.agenda)
    (hsettings : w'.engine.locks.settings = w.engine.locks.settings) : w.Costs w' 0 where
  settings := hsettings
  sorted h := hagenda ▸ h
  budget := by simp [World.budget, hagenda, hsettings]

theorem costs_drop (w : World) (h : Holding) : w.Costs (w.drop h) 0 :=
  costs_of_agenda rfl (Locks.settings_drop w.engine.locks h)

theorem costs_attempt (w : World) (a : Acquisition) : w.Costs (w.attempt a).1 0 :=
  costs_of_agenda rfl (Locks.sameRest_attempt w.engine.locks w.now a).1

theorem costs_finish (w : World) (name : String) (outcome : Outcome) :
    w.Costs (w.finish name outcome) 0 :=
  costs_of_agenda rfl rfl

theorem costs_schedule (w : World) (tick : Nat) (t : Task) :
    w.Costs (w.schedule tick t) (t.stage.budget w.engine.locks.settings.retries) where
  settings := rfl
  sorted h := h.add tick (.task t)
  budget := by
    refine Nat.le_of_eq (Eq.trans (Agenda.budget_add _ _ _ _) ?_)
    exact Nat.add_comm _ _

theorem costs_taskGranted (w : World) (t : Task) (h : Handle) :
    w.Costs (w.taskGranted t h) 1 := by
  unfold taskGranted
  split
  · exact (costs_finish w _ _).mono (Nat.zero_le 1)
  · exact costs_schedule w _ _

theorem costs_taskWaits (w : World) (t : Task) (next : Acquisition) (wait : Duration) :
    w.Costs (w.taskWaits t next wait) (next.left + 2) :=
  costs_schedule w _ _

theorem costs_taskGoesOn (t : Task) (n : Nat) (w : World) (p : Progress) :
    w.Costs (taskGoesOn t n w p) p.cost := by
  induction n generalizing w p with
  | zero =>
    cases p with
    | granted h => exact costs_taskGranted w t h
    | failed e => exact costs_finish w _ _
    | waiting next e =>
      unfold taskGoesOn
      split
      · exact (costs_finish w _ _).mono (Nat.zero_le _)
      · split
        · exact (costs_finish w _ _).mono (Nat.zero_le _)
        · exact costs_taskWaits w t next _
  | succ n ih =>
    cases p with
    | granted h => exact costs_taskGranted w t h
    | failed e => exact costs_finish w _ _
    | waiting next e =>
      unfold taskGoesOn
      split
      · exact (costs_finish w _ _).mono (Nat.zero_le _)
      · split
        · -- the next attempt follows at once, with one attempt less to come
          refine ((costs_attempt w next).trans (ih _ _)).mono ?_
          have := Locks.cost_attempt w.engine.locks w.now next
          simp only [Progress.cost] at this ⊢
          exact Nat.le_trans (Nat.le_of_eq (Nat.zero_add _)) (Nat.le_succ_of_le this)
        · exact costs_taskWaits w t next _

theorem costs_taskAttempts (w : World) (t : Task) (a : Acquisition) :
    w.Costs (w.taskAttempts t a) (a.left + 1) := by
  refine ((costs_attempt w a).trans (costs_taskGoesOn t a.left _ _)).mono ?_
  rw [Nat.zero_add]
  exact Locks.cost_attempt w.engine.locks w.now a

theorem costs_taskEnds (w : World) (t : Task) (h : Handle) : w.Costs (w.taskEnds t h) 0 := by
  have hdropped (outcome : Outcome) : w.Costs ((w.drop (.scoped h)).finish t.name outcome) 0 :=
    (costs_drop w (.scoped h)).trans (costs_finish _ _ _)
  have hreleased : w.Costs (w.withLocks (·.release h)).1 0 :=
    costs_of_agenda rfl (Locks.settings_release w.engine.locks h)
  unfold taskEnds
  split
  · exact hdropped .succeeded
  · exact hdropped .succeeded
  · split
    · next heq => exact (heq ▸ hreleased).trans (costs_finish _ _ _)
    · next heq => exact (heq ▸ hreleased).trans (costs_finish _ _ _)
  · exact hdropped .brokeOff

theorem left_of_begin {l : Locks} {g : Graph} {now : Nat} {whole : Bool} {r : Request}
    {a : Acquisition} (h : l.begin g now whole r = .ok a) :
    a.left ≤ (r.retries.getD l.settings.retries).toNat + 1 := by
  unfold Locks.begin at h
  cases hresolve : Locks.resolve g r.resource with
  | error e => simp [hresolve, bind, Except.bind] at h
  | ok scope =>
    simp only [hresolve, bind, Except.bind, Except.ok.injEq] at h
    rw [← h]
    exact Nat.min_le_left _ _

theorem costs_runTask (w : World) (t : Task) :
    ∃ cost, w.Costs (w.runTask t) cost ∧
      cost < t.stage.budget w.engine.locks.settings.retries := by
  unfold runTask
  split
  · next r hstage =>
    rw [hstage]
    split
    · exact ⟨0, costs_finish w _ _, Nat.succ_pos _⟩
    · next a hbegin =>
      refine ⟨a.left + 1, costs_taskAttempts w t a, ?_⟩
      have := left_of_begin hbegin
      simp only [Stage.budget]
      omega
  · next a hstage =>
    rw [hstage]
    exact ⟨a.left + 1, costs_taskAttempts w t a, Nat.lt_succ_self _⟩
  · next h hstage =>
    rw [hstage]
    exact ⟨0, costs_taskEnds w t h, Nat.one_pos⟩

theorem costs_perform (w : World) (activity : Activity) :
    ∃ cost, w.Costs (w.perform activity) cost ∧
      cost < activity.budget w.engine.locks.settings.retries := by
  cases activity with
  | grace t => exact ⟨0, costs_of_agenda rfl (w.engine.settings_reclaim t), Nat.one_pos⟩
  | task t => exact costs_runTask w t

theorem costs_settleQueue (w : World) : w.Costs w.settleQueue 0 := by
  refine costs_of_agenda ?_ w.engine.settings_settleQueue
  rfl

/-- With nothing to spend there is nothing on the agenda. -/
theorem agenda_of_budget_le_zero {w : World} (h : w.budget ≤ 0) : w.agenda = [] := by
  cases hagenda : w.agenda with
  | nil => rfl
  | cons p rest =>
    obtain ⟨cost, -, hcost⟩ := costs_perform w p.activity
    rw [World.budget, hagenda, Agenda.budget_cons] at h
    omega

end World

/-! ## Sleeping is moving -/

/-- A move that time makes by itself. -/
inductive Move.IsPassage : Move → Prop where
  | handOver : IsPassage .handOver
  | act (p : Appointment) : IsPassage (.act p)
  | elapse (tick : Nat) : IsPassage (.elapse tick)

namespace Chronicle

variable {c : Chronicle}

theorem perform_elapse {tick : Nat} (h : ∀ p ∈ c.world.agenda, tick ≤ p.tick) :
    c.perform (.elapse tick) = { c with world.now := max c.world.now tick } :=
  if_pos h

theorem perform_act {p : Appointment} (hp : p ∈ c.world.agenda) (hdue : p.tick ≤ c.world.now) :
    (c.perform (.act p)).world =
      { c.world with agenda := c.world.agenda.erase p }.perform p.activity := by
  simp only [perform, hp, hdue, and_self, if_true]

/-- Time goes on to the first appointment, it comes to pass, and its events are handed over. -/
theorem run_next {p : Appointment} {rest : Agenda} (hagenda : c.world.agenda = p :: rest)
    (hfirst : ∀ q ∈ rest, p.tick ≤ q.tick) :
    (c.run [.elapse p.tick, .act p, .handOver]).world =
      ({ c.world with now := max c.world.now p.tick, agenda := rest }.perform
        p.activity).settleQueue := by
  have helapse : c.perform (.elapse p.tick) = { c with world.now := max c.world.now p.tick } := by
    refine perform_elapse fun q hq => ?_
    rw [hagenda] at hq
    rcases List.mem_cons.1 hq with rfl | hq
    · exact Nat.le_refl _
    · exact hfirst q hq
  have hp : p ∈ (c.perform (.elapse p.tick)).world.agenda := by
    rw [helapse, hagenda]
    exact List.mem_cons_self
  have hact := perform_act hp (by rw [helapse]; exact Nat.le_max_right _ _)
  have herase : c.world.agenda.erase p = rest := by rw [hagenda, List.erase_cons_head]
  change World.settleQueue ((c.perform (.elapse p.tick)).perform (.act p)).world = _
  rw [hact, helapse]
  dsimp only
  rw [herase]

/-- A world in which time goes on up to a tick makes moves, and its budget lasts until nothing
is left that is due before. -/
theorem runBefore_moves (hsorted : c.world.agenda.Sorted) (tick n : Nat)
    (hn : c.world.budget ≤ n) :
    ∃ moves : List Move, (∀ move ∈ moves, move.IsPassage) ∧
      (c.run moves).world = c.world.runBefore tick n ∧
      ∀ p ∈ (c.run moves).world.agenda, tick ≤ p.tick := by
  -- each appointment that comes to pass lowers the budget, which the number bounds
  induction n generalizing c with
  | zero =>
    have hempty := World.agenda_of_budget_le_zero hn
    exact ⟨[], by simp, rfl, by simp [run, hempty]⟩
  | succ n ih =>
    cases hagenda : c.world.agenda with
    | nil => exact ⟨[], by simp, by simp [run, World.runBefore, hagenda], by simp [run, hagenda]⟩
    | cons p rest =>
      rw [hagenda] at hsorted
      obtain ⟨hfirst, hrest⟩ := List.pairwise_cons.1 hsorted
      by_cases hdue : p.tick < tick
      · -- time goes on to the first appointment, which comes to pass
        let w : World := { c.world with now := max c.world.now p.tick, agenda := rest }
        let next : List Move := [.elapse p.tick, .act p, .handOver]
        have hnext : (c.run next).world = (w.perform p.activity).settleQueue :=
          run_next hagenda hfirst
        obtain ⟨cost, hcosts, hcost⟩ := World.costs_perform w p.activity
        have hsettled := hcosts.trans (World.costs_settleQueue _)
        rw [← hnext] at hsettled
        have hbudget : (c.run next).world.budget ≤ n := by
          have hspent := hsettled.budget
          have hbefore : c.world.budget =
              p.activity.budget w.engine.locks.settings.retries + w.budget := by
            rw [World.budget, hagenda, Agenda.budget_cons]
            rfl
          omega
        -- and the rest of the time passes in the world that this leaves
        obtain ⟨moves, hmoves, hrun, hlater⟩ := ih (hsettled.sorted hrest) hbudget
        have happend : c.run (next ++ moves) = (c.run next).run moves := List.foldl_append
        refine ⟨next ++ moves, ?_, ?_, happend ▸ hlater⟩
        · intro move hmove
          rcases List.mem_append.1 hmove with hmove | hmove
          · simp only [next, List.mem_cons, List.not_mem_nil, or_false] at hmove
            rcases hmove with rfl | rfl | rfl
            · exact .elapse p.tick
            · exact .act p
            · exact .handOver
          · exact hmoves move hmove
        · rw [happend, hrun, hnext]
          simp [World.runBefore, hagenda, hdue, w]
      · refine ⟨[], by simp, by simp [run, World.runBefore, hagenda, hdue], fun q hq => ?_⟩
        rw [run, List.foldl_nil, hagenda] at hq
        rcases List.mem_cons.1 hq with rfl | hq
        · exact Nat.le_of_not_lt hdue
        · exact Nat.le_trans (Nat.le_of_not_lt hdue) (hfirst q hq)

/-- A world in which the foreground sleeps makes moves. When it awakes, all that was due before
has come to pass. -/
theorem sleepUntil_moves (hsorted : c.world.agenda.Sorted) (tick : Nat) :
    ∃ moves : List Move, (∀ move ∈ moves, move.IsPassage) ∧
      (c.run moves).world = c.world.sleepUntil tick ∧
      ∀ p ∈ (c.world.sleepUntil tick).agenda, tick ≤ p.tick := by
  have hsettled := World.costs_settleQueue c.world
  -- first the queue is handed over, and at the end time goes on up to the tick
  obtain ⟨moves, hmoves, hrun, hlater⟩ := runBefore_moves (c := c.perform .handOver)
    (hsettled.sorted hsorted) tick c.world.budget hsettled.budget
  have happend : c.run (.handOver :: moves ++ [.elapse tick]) =
      ((c.perform .handOver).run moves).perform (.elapse tick) := by
    simp [run, List.foldl_append]
  have hworld : (c.run (.handOver :: moves ++ [.elapse tick])).world = c.world.sleepUntil tick := by
    rw [happend, perform_elapse hlater, hrun]
    rfl
  refine ⟨.handOver :: moves ++ [.elapse tick], ?_, hworld, ?_⟩
  · intro move hmove
    rcases List.mem_append.1 hmove with hmove | hmove
    · rcases List.mem_cons.1 hmove with rfl | hmove
      · exact .handOver
      · exact hmoves move hmove
    · rw [List.mem_singleton.1 hmove]
      exact .elapse tick
  · rw [← hworld, happend, perform_elapse hlater]
    exact hlater

/-! ## The order of the agenda -/

theorem sorted_perform (h : c.world.agenda.Sorted) (move : Move) :
    (c.perform move).world.agenda.Sorted := by
  cases move with
  | connect label => exact h
  | login connection user =>
    have hagenda : (c.world.login connection user).1.agenda = c.world.agenda := by
      unfold World.login
      dsimp only
      split <;> rfl
    exact (congrArg Agenda.Sorted hagenda).mpr h
  | disconnect connection =>
    have hstart (w : World) (timer : Option GraceTimer) (hw : w.agenda.Sorted) :
        (w.startTimer timer).agenda.Sorted := by
      cases timer with
      | none => exact hw
      | some t => exact hw.add _ _
    simp only [perform, hear]
    unfold World.disconnect
    split
    · -- whatever became of the grace period, at most a timer is new
      split
      · exact h
      · exact h
      · exact h
      · exact hstart _ _ h
    · split <;> exact h
  | call call => exact h
  | schedule tick t => exact h.add _ _
  | remould graph => exact h
  | handOver => exact h
  | act p =>
    simp only [perform]
    split
    · obtain ⟨cost, hcosts, -⟩ :=
        World.costs_perform { c.world with agenda := c.world.agenda.erase p } p.activity
      exact hcosts.sorted (h.sublist List.erase_sublist)
    · exact h
  | elapse tick =>
    simp only [perform]
    split <;> exact h

theorem sorted_run (r : Runtime) (settings : Settings) (graph : Graph) (moves : List Move) :
    ((start r settings graph).run moves).world.agenda.Sorted := by
  have hstart : (start r settings graph).world.agenda.Sorted := List.Pairwise.nil
  generalize start r settings graph = c at hstart
  induction moves generalizing c with
  | nil => exact hstart
  | cons move moves ih => exact ih (c.perform move) (sorted_perform hstart move)

/-- Whatever happened before: while the foreground sleeps, the world makes moves, and nothing
stays undone that was due before it awakes. -/
theorem sleepUntil_run (r : Runtime) (settings : Settings) (graph : Graph) (moves : List Move)
    (tick : Nat) :
    let c := (start r settings graph).run moves
    ∃ passage : List Move, (∀ move ∈ passage, move.IsPassage) ∧
      (c.run passage).world = c.world.sleepUntil tick ∧
      ∀ p ∈ (c.world.sleepUntil tick).agenda, tick ≤ p.tick :=
  sleepUntil_moves (sorted_run r settings graph moves) tick

end Chronicle

end Simulation

end SceneLocks
