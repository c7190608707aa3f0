import SceneLocks.Simulation.World
import SceneLocks.Proofs.Locks.Rollback
import SceneLocks.Proofs.Retry.Loop

/-!
# Requests retried

A request for a lock is a run of attempts: each finds the locks as the others left them, and only
contention is tried again. Whoever makes one attempt after the other, the acquisition ends like the
loop of its policy, with the same waits on the way. A request for a resource that the graph does not
know makes no attempt at all.
-/

namespace SceneLocks

open Number Simulation Time

/-! ## Attempts -/

/-- What the answer to an attempt that ends an acquisition leads to. -/
def Progress.ofAnswer : Except LockError Handle → Progress
  | .ok h => .granted h
  | .error e => .failed e

namespace Acquisition

/-- An acquisition after its first `made` attempts. -/
def after (a : Acquisition) (made : Nat) : Acquisition :=
  { a with made, left := a.policy.attempts - made }

/-- An acquisition after one attempt more. -/
def next (a : Acquisition) : Acquisition := { a with made := a.made + 1, left := a.left - 1 }

theorem next_after (a : Acquisition) (made : Nat) : (a.after made).next = a.after (made + 1) := rfl

/-- An acquisition goes on to its end: what it does, and what comes of it. Its attempt `n` finds the
locks `found n` at tick `ticks n`, and `draw n` is drawn for the wait after it. -/
inductive Goes (found : Nat → Locks) (ticks : Nat → Nat) (draw : Nat → Option Binary64) :
    Acquisition → List Act → Except Mishap (Except LockError Handle) → Prop where
  | granted {a : Acquisition} {h : Handle}
      (hattempt : ((found (a.made + 1)).attempt (ticks (a.made + 1)) a).2 = .granted h) :
      Goes found ticks draw a [.call] (.ok (.ok h))
  | failed {a : Acquisition} {e : LockError}
      (hattempt : ((found (a.made + 1)).attempt (ticks (a.made + 1)) a).2 = .failed e) :
      Goes found ticks draw a [.call] (.ok (.error e))
  | breaksOff {a b : Acquisition} {e : LockError}
      (hattempt : ((found (a.made + 1)).attempt (ticks (a.made + 1)) a).2 = .waiting b e)
      (hwait : b.policy.delay? (draw b.made) = none) :
      Goes found ticks draw a [.call] (.error .noWait)
  | waits {a b : Acquisition} {e : LockError} {d : Duration} {acts : List Act}
      {ended : Except Mishap (Except LockError Handle)}
      (hattempt : ((found (a.made + 1)).attempt (ticks (a.made + 1)) a).2 = .waiting b e)
      (hwait : b.policy.delay? (draw b.made) = some d)
      (hgoes : Goes found ticks draw b acts ended) :
      Goes found ticks draw a (.call :: RetryPolicy.pause d ++ acts) ended

variable {found : Nat → Locks} {ticks : Nat → Nat} {draw : Nat → Option Binary64}
  {a : Acquisition} {acts acts' : List Act}
  {ended ended' : Except Mishap (Except LockError Handle)}

/-- What the attempts find determines the way. -/
theorem Goes.unique (h : a.Goes found ticks draw acts ended)
    (h' : a.Goes found ticks draw acts' ended') : acts = acts' ∧ ended = ended' := by
  -- an attempt turns out in one way, and the other ways to go on contradict it
  induction h generalizing acts' ended' with
  | granted hattempt =>
    cases h' with
    | granted hattempt' =>
      cases hattempt.symm.trans hattempt'
      exact ⟨rfl, rfl⟩
    | failed hattempt' | breaksOff hattempt' _ | waits hattempt' _ _ =>
      cases hattempt.symm.trans hattempt'
  | failed hattempt =>
    cases h' with
    | failed hattempt' =>
      cases hattempt.symm.trans hattempt'
      exact ⟨rfl, rfl⟩
    | granted hattempt' | breaksOff hattempt' _ | waits hattempt' _ _ =>
      cases hattempt.symm.trans hattempt'
  | breaksOff hattempt hwait =>
    cases h' with
    | breaksOff _ _ => exact ⟨rfl, rfl⟩
    | waits hattempt' hwait' _ =>
      cases hattempt.symm.trans hattempt'
      cases hwait.symm.trans hwait'
    | granted hattempt' | failed hattempt' => cases hattempt.symm.trans hattempt'
  | waits hattempt hwait _ ih =>
    cases h' with
    | waits hattempt' hwait' hgoes' =>
      cases hattempt.symm.trans hattempt'
      cases hwait.symm.trans hwait'
      obtain ⟨rfl, rfl⟩ := ih hgoes'
      exact ⟨rfl, rfl⟩
    | breaksOff hattempt' hwait' =>
      cases hattempt.symm.trans hattempt'
      cases hwait.symm.trans hwait'
    | granted hattempt' | failed hattempt' => cases hattempt.symm.trans hattempt'

end Acquisition

namespace Locks

/-- A grant that fails is contended, or its section broke off. -/
theorem tryGrant_error {l : Locks} {whole : Bool} {scope : Scope} {r : Request} {e : LockError}
    (h : (l.tryGrant whole scope r).2 = .error e) :
    (∃ reason, e = .cannotLock r.resource reason) ∨ ∃ reason, e = .broken reason := by
  have htransact := tryGrant_eq_error_iff.1 h
  unfold transact at htransact
  dsimp only at htransact
  split at htransact
  · next e' hgranting =>
    cases htransact
    unfold Table.granting at hgranting
    split at hgranting
    · next conflict _ =>
      cases hgranting
      exact .inl ⟨conflict.message, rfl⟩
    · cases hgranting
  · next s _ =>
    unfold commit at htransact
    split at htransact
    · cases htransact
    · cases htransact
      exact .inr ⟨_, rfl⟩

/-- What an attempt leads to, by the answer to it. -/
theorem progress_attempt (l : Locks) (now : Nat) (a : Acquisition) :
    (l.attempt now a).2 =
      match (l.tryGrant a.whole a.scope a.request).2 with
      | .ok h => .granted h
      | .error e =>
        if !e.isContention then .failed e
        else if a.left ≤ 1 then .failed e
        else .waiting a.next e := by
  unfold attempt
  dsimp only
  split
  · next hgrant => rw [hgrant]
  · next hgrant =>
    rw [hgrant]
    dsimp only
    split
    · rfl
    · split <;> rfl

theorem tryGrant_after (l : Locks) (a : Acquisition) (made : Nat) :
    l.tryGrant (a.after made).whole (a.after made).scope (a.after made).request =
      l.tryGrant a.whole a.scope a.request :=
  rfl

/-- An acquisition that goes on has an attempt left. -/
theorem of_waiting {l : Locks} {now : Nat} {a b : Acquisition} {e : LockError}
    (h : (l.attempt now a).2 = .waiting b e) : b = a.next ∧ 1 < a.left := by
  rw [progress_attempt] at h
  split at h
  · cases h
  · split at h
    · cases h
    · split at h
      · cases h
      · next hleft =>
        cases h
        exact ⟨rfl, Nat.lt_of_not_le hleft⟩

/-- An attempt that ends the run ends the acquisition. -/
theorem attempt_of_ending? {l : Locks} (now : Nat) {a : Acquisition} {made : Nat}
    {r : Attempted LockError Handle}
    (h : a.policy.ending? LockError.isContention (made + 1)
      (l.tryGrant a.whole a.scope a.request).2 = some r) :
    (l.attempt now (a.after made)).2 = .ofAnswer r.answer := by
  have hprogress := l.progress_attempt now (a.after made)
  rw [tryGrant_after] at hprogress
  cases r with
  | done handle n =>
    obtain ⟨-, hgrant⟩ := RetryPolicy.ending?_eq_done_iff.1 h
    rw [hgrant] at hprogress
    exact hprogress
  | permanent e n =>
    obtain ⟨-, hgrant, hcontention⟩ := RetryPolicy.ending?_eq_permanent_iff.1 h
    rw [hgrant] at hprogress
    exact hprogress.trans (if_pos (by simp [hcontention]))
  | exhausted e n =>
    obtain ⟨-, hgrant, hcontention, hle⟩ := RetryPolicy.ending?_eq_exhausted_iff.1 h
    have hleft : (a.after made).left ≤ 1 := Nat.sub_le_of_le_add (Nat.add_comm made 1 ▸ hle)
    rw [hgrant] at hprogress
    exact hprogress.trans ((if_neg (by simp [hcontention])).trans (if_pos hleft))

/-- After an attempt that does not end the run the acquisition goes on. -/
theorem attempt_of_ending?_eq_none {l : Locks} (now : Nat) {a : Acquisition} {made : Nat}
    (h : a.policy.ending? LockError.isContention (made + 1)
      (l.tryGrant a.whole a.scope a.request).2 = none) :
    ∃ e, (l.attempt now (a.after made)).2 = .waiting (a.after (made + 1)) e := by
  have hprogress := l.progress_attempt now (a.after made)
  rw [tryGrant_after] at hprogress
  obtain ⟨⟨e, hgrant, hcontention⟩, hlt⟩ := RetryPolicy.ending?_eq_none_iff.1 h
  have hleft : ¬(a.after made).left ≤ 1 := Nat.not_le_of_lt (Nat.lt_sub_of_add_lt (by omega))
  rw [hgrant] at hprogress
  exact ⟨e, hprogress.trans ((if_neg (by simp [hcontention])).trans (if_neg hleft))⟩

end Locks

namespace Acquisition

variable {found : Nat → Locks} {ticks : Nat → Nat} {draw : Nat → Option Binary64}

/-- What the attempts of an acquisition yield. -/
def outcome (a : Acquisition) (found : Nat → Locks) (n : Nat) : Except LockError Handle :=
  ((found n).tryGrant a.whole a.scope a.request).2

/-- The loop of an acquisition's policy is a way it goes. -/
theorem goes_loopFrom (a : Acquisition) (found : Nat → Locks) (ticks : Nat → Nat)
    (draw : Nat → Option Binary64) {made : UInt32} (hmade : made.toNat < a.policy.attempts) :
    (a.after made.toNat).Goes found ticks draw
      (a.policy.loopFrom LockError.isContention (a.outcome found) draw made).1
      ((a.policy.loopFrom LockError.isContention (a.outcome found) draw made).2.map
        Attempted.answer) := by
  fun_induction RetryPolicy.loopFrom a.policy LockError.isContention (a.outcome found) draw made
  with
  | case1 made hfull =>
    obtain ⟨n, hcount, -⟩ := RetryPolicy.exists_count? hmade
    cases hfull.symm.trans hcount
  | case2 made n hcount r hended =>
    rw [RetryPolicy.toNat_of_count? hcount] at hended
    have hattempt := Locks.attempt_of_ending? (ticks (made.toNat + 1)) hended
    cases hanswer : r.answer with
    | ok h =>
      rw [hanswer] at hattempt
      simp only [Except.map, hanswer]
      exact .granted hattempt
    | error e =>
      rw [hanswer] at hattempt
      simp only [Except.map, hanswer]
      exact .failed hattempt
  | case3 made n hcount hnone hwait =>
    have hn := RetryPolicy.toNat_of_count? hcount
    rw [hn] at hnone hwait
    obtain ⟨e, hattempt⟩ := Locks.attempt_of_ending?_eq_none (ticks (made.toNat + 1)) hnone
    exact .breaksOff hattempt hwait
  | case4 made n hcount hnone d hwait acts ended hrest ih =>
    have hn := RetryPolicy.toNat_of_count? hcount
    have hlt := (RetryPolicy.ending?_eq_none_iff.1 hnone).2
    simp only [hrest] at ih
    rw [hn] at hnone hwait hlt ih
    obtain ⟨e, hattempt⟩ := Locks.attempt_of_ending?_eq_none (ticks (made.toNat + 1)) hnone
    exact .waits hattempt hwait (ih hlt)

/-- An acquisition goes like the loop of its policy. -/
theorem goes_iff (a : Acquisition) {acts : List Act}
    {ended : Except Mishap (Except LockError Handle)} :
    (a.after 0).Goes found ticks draw acts ended ↔
      acts = (a.policy.loop LockError.isContention (a.outcome found) draw).1 ∧
      ended = (a.policy.loop LockError.isContention (a.outcome found) draw).2.map
        Attempted.answer := by
  have hmade : (0 : UInt32).toNat < a.policy.attempts := a.policy.attempts_pos
  have hloop := a.goes_loopFrom found ticks draw hmade
  constructor
  · exact fun h => h.unique hloop
  · rintro ⟨rfl, rfl⟩
    exact hloop

end Acquisition

namespace Simulation.World

open Acquisition

/-- The world in which an acquisition in the foreground makes attempt `n + 1`, if it gets that far:
after each attempt it sleeps. -/
def before (w : World) (a : Acquisition) : Nat → World
  | 0 => w
  | n + 1 =>
    let w' := ((w.before a n).attempt (a.after n)).1
    w'.sleep ((waitOf? (a.after (n + 1))).getD .zero)

/-- The locks that attempt `n` of an acquisition in the foreground finds. -/
def foundBy (w : World) (a : Acquisition) (n : Nat) : Locks := (w.before a (n - 1)).engine.locks

/-- Where an acquisition in the foreground is left by the way it went. -/
def Arrives : Except Mishap (Except LockError Handle) → Progress → Prop
  | .ok answer, p => p = .ofAnswer answer
  | .error _, p => ∃ b e, p = .waiting b e

/-- Going on in the foreground from one attempt on is a way that the acquisition goes from there. -/
theorem goOn_goes (w : World) (a : Acquisition) {made n : Nat} (hmade : made < a.policy.attempts)
    (hn : (a.after made).left ≤ n) :
    ∃ acts ended,
      (a.after made).Goes (w.foundBy a) (fun m => (w.before a (m - 1)).now)
        (fun _ => a.policy.middle?) acts ended ∧
      Arrives ended (((w.before a made).attempt (a.after made)).1.goOn
        ((w.before a made).attempt (a.after made)).2 n).2 := by
  induction n generalizing made with
  | zero => exact absurd (Nat.le_zero.1 hn) (Nat.sub_ne_zero_of_lt hmade)
  | succ n ih =>
    cases hattempt : ((w.before a made).attempt (a.after made)).2 with
    | granted h => exact ⟨_, _, .granted hattempt, rfl⟩
    | failed e => exact ⟨_, _, .failed hattempt, rfl⟩
    | waiting b e =>
      obtain ⟨rfl, hleft⟩ := Locks.of_waiting hattempt
      rw [next_after] at hattempt ⊢
      unfold goOn
      dsimp only
      cases hwait : waitOf? (a.after (made + 1)) with
      | none => exact ⟨_, _, .breaksOff hattempt hwait, _, _, rfl⟩
      | some d =>
        have hlt : made + 1 < a.policy.attempts := Nat.add_lt_of_lt_sub' hleft
        have hbefore : w.before a (made + 1) =
            ((w.before a made).attempt (a.after made)).1.sleep d := by
          simp only [before, hwait, Option.getD_some]
        obtain ⟨acts, ended, hgoes, harrives⟩ := ih hlt (by
          rw [← next_after]
          exact Nat.sub_le_of_le_add hn)
        rw [hbefore] at harrives
        exact ⟨_, ended, .waits hattempt hwait hgoes, harrives⟩

/-- A request in the foreground is an acquisition that goes on to its end. -/
theorem acquire_goes {w : World} {whole : Bool} {r : Request} {a : Acquisition}
    (hbegin : w.engine.locks.begin w.engine.graph w.now whole r = .ok (a.after 0)) :
    ∃ acts ended,
      (a.after 0).Goes (w.foundBy a) (fun m => (w.before a (m - 1)).now)
        (fun _ => a.policy.middle?) acts ended ∧
      (w.acquire whole r).2 = ended.toOption := by
  obtain ⟨acts, ended, hgoes, harrives⟩ := w.goOn_goes a a.policy.attempts_pos (Nat.le_refl _)
  refine ⟨acts, ended, hgoes, ?_⟩
  unfold acquire
  rw [hbegin]
  dsimp only
  rcases hwent : (w.attempt (a.after 0)).1.goOn (w.attempt (a.after 0)).2 (a.after 0).left with
    ⟨w', p⟩
  change Arrives ended
    ((w.attempt (a.after 0)).1.goOn (w.attempt (a.after 0)).2 (a.after 0).left).2 at harrives
  rw [hwent] at harrives
  cases ended with
  | error mishap =>
    obtain ⟨b, e, rfl⟩ := harrives
    rfl
  | ok answer =>
    cases (show p = .ofAnswer answer from harrives)
    cases answer <;> rfl

/-- How a request for a lock is retried. -/
structure Retries (w : World) (whole : Bool) (r : Request) : Prop where
  /-- What the request says goes before the settings. -/
  retries : (w.engine.locks.policyFor r).retries = r.retries.getD w.engine.locks.settings.retries
  wait : (w.engine.locks.policyFor r).wait = r.wait.getD w.engine.locks.settings.retryWait
  /-- Without its resource the request is refused, and nothing else happens. -/
  unknown (h : w.engine.graph.scope? r.resource = none) :
    w.engine.locks.begin w.engine.graph w.now whole r = .error (.unknownResource r.resource) ∧
      w.acquire whole r = (w, some (.error (.unknownResource r.resource)))
  /-- An attempt fails because of contention, which waiting may mend, or for good because its
  section broke off. -/
  errors (l : Locks) (scope : Scope) (e : LockError)
    (h : (l.tryGrant whole scope r).2 = .error e) :
    (∃ reason, e = .cannotLock r.resource reason ∧ e.isContention = true) ∨
      ∃ reason, e = .broken reason ∧ e.isContention = false
  /-- Otherwise the request goes like the loop of its policy, whatever its attempts find, also in
  the foreground, which breaks off if the loop does. -/
  known (scope : Scope) (h : w.engine.graph.scope? r.resource = some scope) :
    ∃ a, w.engine.locks.begin w.engine.graph w.now whole r = .ok a ∧
      (∀ (found : Nat → Locks) ticks draw acts ended, a.Goes found ticks draw acts ended ↔
        let loop := (w.engine.locks.policyFor r).loop LockError.isContention
          (fun n => ((found n).tryGrant whole scope r).2) draw
        acts = loop.1 ∧ ended = loop.2.map Attempted.answer) ∧
      (w.acquire whole r).2 = (((w.engine.locks.policyFor r).loop LockError.isContention
          (fun n => ((w.foundBy a n).tryGrant whole scope r).2)
          (fun _ => (w.engine.locks.policyFor r).middle?)).2.map Attempted.answer).toOption

end Simulation.World

open Simulation

/-- A run makes exactly the attempts that its policy allows, and so does a request for a lock. -/
theorem attempts_promised {ε α : Type} (p : RetryPolicy) (mendable : ε → Bool)
    (outcome : Nat → Except ε α) (draw : Nat → Option Binary64) (w : World) (whole : Bool)
    (r : Request) : p.Promised mendable outcome draw ∧ w.Retries whole r := by
  refine ⟨p.promised mendable outcome draw, ⟨rfl, rfl, fun hunknown => ?_, fun l scope e he => ?_,
    fun scope hscope => ?_⟩⟩
  · have hbegin : w.engine.locks.begin w.engine.graph w.now whole r =
        .error (.unknownResource r.resource) := by
      simp [Locks.begin, Locks.resolve, hunknown, bind, Except.bind]
    exact ⟨hbegin, by simp [World.acquire, hbegin]⟩
  · rcases Locks.tryGrant_error he with ⟨reason, rfl⟩ | ⟨reason, rfl⟩
    · exact .inl ⟨reason, rfl, rfl⟩
    · exact .inr ⟨reason, rfl, rfl⟩
  · let a : Acquisition :=
      { request := r, scope, whole, policy := w.engine.locks.policyFor r, started := w.now
        made := 0, left := (w.engine.locks.policyFor r).attempts }
    have hbegin : w.engine.locks.begin w.engine.graph w.now whole r = .ok a := by
      simp [Locks.begin, Locks.resolve, hscope, bind, Except.bind, a]
    refine ⟨a, hbegin, fun found ticks draw acts ended => a.goes_iff, ?_⟩
    obtain ⟨acts, ended, hgoes, hacquire⟩ := World.acquire_goes (a := a) hbegin
    rw [hacquire, (a.goes_iff.1 hgoes).2]
    rfl

/-- The first attempt fails, and the next succeeds. -/
def busyOnce (n : Nat) : Except String Nat := if n = 1 then .error "busy" else .ok 7

theorem reaches_busyOnce : RetryPolicy.Reaches (fun _ => true) busyOnce 2 :=
  RetryPolicy.reaches_one.succ ⟨"busy", rfl, rfl⟩

/-- A wait that is stretched by a quarter. -/
theorem attempts_promised_busyOnce :
    let p : RetryPolicy :=
      { retries := 9, wait := .ofMillis 100, jitter := .ofDecimal false 5 (-1) }
    p.loop (fun _ => true) busyOnce (fun _ => some (.ofDecimal false 25 (-2))) =
      ([.call, .sleep (.ofMillis 125), .call], .ok (.done 7 2)) := by
  intro p
  have hpromised := (attempts_promised p (fun _ => true) busyOnce
    (fun _ => some (.ofDecimal false 25 (-2))) { engine := default, attachment := .bare } false
    { resource := "ap_1", owner := "alice" }).1
  have hends := hpromised.ends (fun _ => .ofMillis 125) fun _ _ => by decide +kernel
  have hdone := (hends.done 7 2).2 ⟨by decide, by decide, reaches_busyOnce, rfl⟩
  exact Prod.ext (hends.acts _ hdone).1 hdone

/-- A long wait that is stretched to twice its length is no duration any more: the run breaks off,
although its next attempt would succeed. -/
theorem not_done_busyOnce :
    let p : RetryPolicy := { retries := 9, wait := .longest, jitter := .one }
    ¬((p.loop (fun _ => true) busyOnce fun _ => some .one).2 = .ok (.done 7 2) ↔
      2 ≤ p.attempts ∧ RetryPolicy.Reaches (fun _ => true) busyOnce 2 ∧ busyOnce 2 = .ok 7) := by
  intro p hiff
  have hwait : p.delay? (some .one) = none := by decide +kernel
  have hending : p.ending? (fun _ => true) 1 (busyOnce 1) = none := by decide
  have hbreaksOff : p.loop (fun _ => true) busyOnce (fun _ => some .one) =
      ([.call], .error .noWait) := by
    rw [RetryPolicy.loop, RetryPolicy.loopFrom]
    simp [RetryPolicy.count?, hending, hwait]
  have hdone := hiff.2 ⟨by decide, reaches_busyOnce, rfl⟩
  rw [hbreaksOff] at hdone
  cases hdone

end SceneLocks
