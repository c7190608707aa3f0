import SceneLocks.Proofs.Engine.Delivery
import SceneLocks.Proofs.Locks.StaleHandles

/-!
# Acquisitions that outlive a session

The supervisor takes away what a user holds. It knows nothing of the user's acquisitions that
wait between two attempts, and an attempt does not ask whether its owner has a session. So what
is under way at a reclamation may still be granted afterwards, and nothing else may
(`leftovers_reclaim_run`).
-/

namespace SceneLocks

/-! ## Sections that add grants -/

/-- The grants of a resource that the section of a plan adds for a user. -/
def Plan.gain (resource : Resource) (user : User) : Plan → Nat
  | .grant _ _ r => if r.resource = resource ∧ r.owner = user then 1 else 0
  | .release .. | .reclaim _ | .update .. => 0

theorem Table.grants_result_le {t : Table} {p : Plan} {s : Section} (hs : p.edits t = .ok s)
    (resource : Resource) (user : User) :
    (s.result t).grants resource user ≤ t.grants resource user + p.gain resource user := by
  have hdone := Plan.done_of_edits hs
  cases p with
  | grant whole scope r => exact Nat.le_of_eq (grants_granted hdone resource user)
  | release r owner =>
    obtain ⟨e, hreleased⟩ := hdone
    rw [grants_released hreleased]
    exact Nat.sub_le _ _
  | reclaim owner =>
    rw [grants_reclaimed hdone]
    split
    · exact Nat.zero_le _
    · exact Nat.le_refl _
  | update scope owner kind =>
    obtain ⟨e, hupdated⟩ := hdone
    obtain ⟨tree, covered, hresized, -⟩ := hupdated.resized
    exact Nat.le_of_eq (grants_resized hresized resource user)

/-- A section that does not succeed adds nothing. -/
theorem Locks.Enters.grants_le {l l' : Locks} {p : Plan} {ok : Bool} (h : l.Enters p l' ok)
    (resource : Resource) (user : User) :
    l'.table.grants resource user ≤
      l.table.grants resource user + if ok then p.gain resource user else 0 := by
  rcases h.cases with ⟨hdone, s, hs, htable⟩ | ⟨-, htable⟩
  · rw [htable, hdone, if_pos rfl]
    exact Table.grants_result_le hs resource user
  · rw [htable]
    exact Nat.le_add_right _ _

/-! ## Acquisitions under way -/

/-- The errand is an acquisition of a resource for a user. -/
def Errand.seeks (resource : Resource) (user : User) : Errand → Bool
  | .acquire a => a.request.resource = resource ∧ a.request.owner = user
  | .inform .. | .replay .. => false

/-- A request for the user starts. -/
def Turn.Starts (user : User) : Turn → Prop
  | .ask _ _ r => r.owner = user
  | .call (.attempt _ a _) => a.request.owner = user
  | .call (.acquireOnce _ _ _ r) => r.owner = user
  | .call (.lock _ _ _ owner _) => owner = user
  | _ => False

instance (user : User) (turn : Turn) : Decidable (turn.Starts user) := by
  unfold Turn.Starts
  split <;> infer_instance

/-- Of the calls only those that start a request add grants. -/
theorem Call.gain_eq_zero {c : Call} {t : Table} {p : Plan} {user : User}
    (hplan : c.plan? t = some p) (h : ¬ (Turn.call c).Starts user) (resource : Resource) :
    p.gain resource user = 0 := by
  cases plans_of_plan? hplan with
  | attempt now a resolved => exact if_neg fun hr => h hr.2
  | acquireOnce now whole r hscope => exact if_neg fun hr => h hr.2
  | lock now hheld hscope => exact if_neg fun hr => h hr.2
  | _ => rfl

namespace Traffic

variable {s s' : Traffic} {turn : Turn} {user : User}

/-- How many acquisitions of a resource are under way for a user. -/
def waiting (s : Traffic) (resource : Resource) (user : User) : Nat :=
  s.errands.countP (·.seeks resource user)

/-- The grants that a user has of a resource, and those that acquisitions under way may add. -/
def stake (s : Traffic) (resource : Resource) (user : User) : Nat :=
  s.engine.locks.table.grants resource user + s.waiting resource user

theorem waiting_eq_erase {errand : Errand} (h : errand ∈ s.errands) (resource : Resource)
    (user : User) :
    s.waiting resource user = (s.errands.erase errand).countP (·.seeks resource user) +
      if errand.seeks resource user then 1 else 0 := by
  rw [waiting, (List.perm_cons_erase h).countP_eq, List.countP_cons]

/-- An attempt trades an acquisition for a grant, or leaves both as they were, or gives up. -/
theorem stake_attempt_le {a : Acquisition} (h : .acquire a ∈ s.errands) (now : Nat)
    (resource : Resource) (user : User) :
    (s.proceed now (.acquire a)).stake resource user ≤ s.stake resource user := by
  have hgrants := (Locks.enters_attempt s.engine.locks now a).grants_le resource user
  have hgain : (Plan.grant a.whole a.scope a.request).gain resource user =
      if (Errand.acquire a).seeks resource user then 1 else 0 := by
    simp [Plan.gain, Errand.seeks]
  rw [hgain] at hgrants
  rw [stake, stake, waiting_eq_erase h, waiting, Traffic.proceed, List.countP_append]
  dsimp only
  cases hprogress : (s.engine.locks.attempt now a).2 with
  | granted handle =>
    simp only [hprogress, Reply.ofProgress, Reply.isSuccess, if_true] at hgrants
    simp only [List.countP_nil]
    omega
  | failed e =>
    simp only [hprogress, Reply.ofProgress, Reply.isSuccess, Bool.false_eq_true,
      if_false] at hgrants
    simp only [List.countP_nil]
    omega
  | waiting next e =>
    simp only [hprogress, Reply.ofProgress, Reply.isSuccess, Bool.false_eq_true,
      if_false] at hgrants
    have hseeks : (Errand.acquire next).seeks resource user =
        (Errand.acquire a).seeks resource user := by
      simp only [Errand.seeks, (Locks.attempt_waiting hprogress).1]
    simp only [List.countP_singleton, hseeks]
    omega

/-- A call that starts no request for the user gives the user no grants. -/
theorem grants_perform_le {c : Call} (l : Locks) (h : ¬ (Turn.call c).Starts user)
    (resource : Resource) :
    (c.perform l).1.table.grants resource user ≤ l.table.grants resource user := by
  cases hplan : c.plan? l.table with
  | none => exact Nat.le_of_eq (by rw [Call.table_perform_of_plan?_eq_none hplan])
  | some p =>
    have hgrants := (Call.enters_perform hplan).grants_le resource user
    rwa [Call.gain_eq_zero hplan h, ite_self] at hgrants

theorem grants_reclaim_le (e : Engine) (t : GraceTimer) (resource : Resource) (user : User) :
    (e.reclaim t).locks.table.grants resource user ≤ e.locks.table.grants resource user := by
  by_cases hdue : e.grace.Registered t
  · rw [(Engine.reclaims_of_registered hdue).locks.1]
    have hgrants := (Locks.enters_releaseAll e.locks t.user).grants_le resource user
    rwa [Plan.gain, ite_self] at hgrants
  · exact Nat.le_of_eq (by rw [Engine.reclaim_of_not_registered hdue])

theorem waiting_issue (s : Traffic) (sessions : Sessions) (event : SessionEvent)
    (resource : Resource) (user : User) :
    (s.issue sessions event).waiting resource user = s.waiting resource user := by
  simp [waiting, issue, Errand.seeks]

/-- Unless a request for the user starts, the user's stake does not grow. -/
theorem Takes.stake_le (htakes : s.Takes turn s') (h : ¬ turn.Starts user)
    (resource : Resource) : s'.stake resource user ≤ s.stake resource user := by
  have hkept : ∀ errand, (s.errands.erase errand).countP (·.seeks resource user) ≤
      s.waiting resource user := fun errand => List.erase_sublist.countP_le
  cases htakes with
  | idle | connect | close | hangUp | remould => exact Nat.le_refl _
  | login | logout =>
    rw [stake, waiting_issue]
    exact Nat.le_refl _
  | ask hbegin =>
    have hother : ¬ (Errand.acquire _).seeks resource user := fun hseeks =>
      h ((Locks.of_begin hbegin).1 ▸ (of_decide_eq_true hseeks).2)
    simp [stake, waiting, hother]
  | @proceed now errand hmem =>
    cases errand with
    | inform n event =>
      obtain ⟨grace, followed, hfollow⟩ := s.engine.follow_eq (.ofTick now) event
      have hreplay : ∀ e ∈ (event.connection.map (Errand.replay · event.user)).toList,
          ¬ e.seeks resource user := by
        cases event.connection <;> simp [Errand.seeks]
      simp only [stake, waiting, Traffic.proceed, hfollow, List.countP_append,
        List.countP_eq_zero.2 hreplay, Nat.zero_add]
      exact Nat.add_le_add_left (hkept _) _
    | replay c u =>
      simp only [stake, waiting, Traffic.proceed, Engine.replay, Locks.table_replay]
      exact Nat.add_le_add_left (hkept _) _
    | acquire a => exact stake_attempt_le hmem now resource user
  | abandon a => exact Nat.add_le_add_left (hkept _) _
  | call c => exact Nat.add_le_add_right (grants_perform_le s.engine.locks h resource) _
  | fire t => exact Nat.add_le_add_right (grants_reclaim_le s.engine t resource user) _
  | deliver =>
    rw [stake, Engine.table_withDelivery]
    exact Nat.le_refl _

/-! ## Users who are away -/

/-- The user is logged in. -/
def Online (s : Traffic) (user : User) : Prop :=
  ∃ c, s.engine.sessions.session? user = some (some c)

/-- Requests for the user start only while the user is logged in. -/
def StartsOnline (user : User) : Traffic → List Turn → Prop
  | _, [] => True
  | s, turn :: turns => (turn.Starts user → s.Online user) ∧ StartsOnline user (s.take turn) turns

/-- The user is logged in at no time. -/
def Away (user : User) : Traffic → List Turn → Prop
  | s, [] => ¬ s.Online user
  | s, turn :: turns => ¬ s.Online user ∧ Away user (s.take turn) turns

instance (s : Traffic) (user : User) : Decidable (s.Online user) :=
  decidable_of_iff ((s.engine.sessions.session? user).join.isSome = true) (by
    simp [Online, Option.isSome_iff_exists, Option.join_eq_some_iff])

instance decidableStartsOnline (user : User) (s : Traffic) :
    (turns : List Turn) → Decidable (StartsOnline user s turns)
  | [] => .isTrue trivial
  | turn :: turns =>
    have := decidableStartsOnline user (s.take turn) turns
    inferInstanceAs (Decidable (_ ∧ _))

instance decidableAway (user : User) (s : Traffic) :
    (turns : List Turn) → Decidable (Away user s turns)
  | [] => inferInstanceAs (Decidable (¬ _))
  | turn :: turns =>
    have := decidableAway user (s.take turn) turns
    inferInstanceAs (Decidable (_ ∧ _))

theorem Away.now {turns : List Turn} (h : Away user s turns) : ¬ s.Online user := by
  cases turns with
  | nil => exact h
  | cons turn turns => exact h.1

theorem stake_run_le {turns : List Turn} (hstarts : StartsOnline user s turns)
    (haway : Away user s turns) (resource : Resource) :
    (s.run turns).stake resource user ≤ s.stake resource user := by
  induction turns generalizing s with
  | nil => exact Nat.le_refl _
  | cons turn turns ih =>
    have hidle : ¬ turn.Starts user := fun h => haway.1 (hstarts.1 h)
    exact Nat.le_trans (ih hstarts.2 haway.2) ((s.takes_take turn).stake_le hidle resource)

/-- A timer that fires for a user who is away leaves the user no session and no grants. -/
theorem Sound.reclaimed (h : s.Sound) {t : GraceTimer} (hdue : s.engine.grace.Registered t)
    (haway : ¬ (s.take (.fire t)).Online t.user) :
    (s.take (.fire t)).engine.sessions.session? t.user = none ∧
      ∀ resource, (s.take (.fire t)).stake resource t.user = s.waiting resource t.user := by
  have hreclaims := Engine.reclaims_of_registered hdue
  have hok := Locks.isOk_releaseAll h.quiet.trap t.user
  constructor
  · have hgone : ∀ c, s.engine.sessions.session? t.user ≠ some (some c) :=
      fun c hc => haway ⟨c, (s.engine.session?_reclaim t t.user c).2 hc⟩
    rw [take, hreclaims.sessions, if_pos hok, Sessions.session?_forget]
    split
    · rfl
    · next hknown =>
      cases hsession : s.engine.sessions.session? t.user with
      | none => rfl
      | some connection =>
        cases connection with
        | none => exact absurd ⟨rfl, hsession⟩ hknown
        | some c => exact absurd hsession (hgone c)
  · intro resource
    have hnone : (s.take (.fire t)).engine.locks.table.grants resource t.user = 0 := by
      rw [take, hreclaims.locks.1, Locks.grants_releaseAll hok]
    rw [stake, hnone, Nat.zero_add]
    rfl

/-- All that a user has in the later state are grants of acquisitions that were under way in the
earlier one. -/
structure Leftovers (earlier later : Traffic) (user : User) : Prop where
  stake : ∀ resource, later.engine.locks.table.grants resource user +
    later.waiting resource user ≤ earlier.waiting resource user
  owned : ∀ resource, later.engine.locks.table.Owned user resource →
    0 < earlier.waiting resource user
  shown : ∀ resource, (later.engine.locks.table.coverage? user resource).isSome →
    later.engine.locks.table.Owned user resource

theorem leftovers_of_stake_le {earlier later : Traffic} (hsound : later.Sound)
    (hstake : ∀ resource, later.stake resource user ≤ earlier.waiting resource user) :
    Leftovers earlier later user where
  stake := hstake
  owned resource howned := by
    have hgrants := hsound.consistent.coherent.grants_pos_iff.2 howned
    exact Nat.lt_of_lt_of_le hgrants (Nat.le_trans (Nat.le_add_right _ _) (hstake resource))
  shown _ := hsound.consistent.covered.owned

/-- After a reclamation a user has nothing until the next login, but for what acquisitions are
granted that were under way at the reclamation. -/
theorem leftovers_reclaim_run (settings : Settings) (graph : Graph) (before : List Turn)
    (t : GraceTimer) (after : List Turn) :
    let s := (start settings graph).run before
    let s' := s.take (.fire t)
    s.engine.grace.Registered t → StartsOnline t.user s' after → Away t.user s' after →
    s'.engine.sessions.session? t.user = none ∧ Leftovers s (s'.run after) t.user := by
  intro s s' hdue hstarts haway
  have hsound : s.Sound := (sound_start settings graph).run before
  obtain ⟨hgone, hnothing⟩ := hsound.reclaimed hdue haway.now
  refine ⟨hgone, leftovers_of_stake_le ?_ fun resource => ?_⟩
  · exact ((s.takes_take _).moves hsound).sound.run after
  · rw [← hnothing]
    exact stake_run_le hstarts haway resource

/-- An action point of a project. -/
def actionPoint : Graph := Graph.withRoots.insert "ap_1" (some Resource.project)

/-- Whoever leaves keeps the locks for a second. -/
def brief : Settings := { locking := { timeout := .one } }

/-- Alice's wish for the action point, before its first attempt and after. She waits for two
seconds between the two, longer than she would keep her locks. -/
def wish : Acquisition :=
  let r : Request :=
    { resource := "ap_1", owner := "alice", visibility := .ui, retries := some 1
      wait := some (.ofMillis 2000) }
  { request := r, scope := ⟨"ap_1", ["PROJECT"], []⟩, whole := false,
    policy := Locks.policyFor {} r, started := 0, made := 0, left := 2 }

def wishRefused : Acquisition := { wish with made := 1, left := 1 }

/-- Alice asks for what Bob holds, and leaves while she waits for it. -/
def leavesWaiting : List Turn :=
  let desk : ConnectionId := ⟨"desk", 0⟩
  [.connect "desk", .login desk "alice", .proceed 0 (.inform 0 ⟨.connected, "alice", some desk⟩),
    .proceed 0 (.replay desk "alice"), .call (.lock actionPoint 0 "ap_1" "bob" false),
    .ask 0 false wish.request, .proceed 0 (.acquire wish), .disconnect desk,
    .proceed 0 (.inform 1 ⟨.disconnected, "alice", none⟩)]

/-- Bob unlocks what Alice waits for. -/
def bobUnlocks : List Turn :=
  [.call (.unlock "ap_1" "bob"), .proceed 2000 (.acquire wishRefused)]

/-- If her acquisition was abandoned by then, she has nothing afterwards. -/
theorem leftovers_reclaim_run_abandoned :
    let t : GraceTimer := ⟨"alice", 1⟩
    let s := (start brief actionPoint).run (leavesWaiting ++ [.abandon wishRefused])
    let s' := s.take (.fire t)
    let f := s'.run bobUnlocks
    s.engine.grace.Registered t ∧ StartsOnline "alice" s' bobUnlocks ∧
      Away "alice" s' bobUnlocks ∧ s'.engine.sessions.session? "alice" = none ∧
      ∀ resource, ¬ f.engine.locks.table.Owned "alice" resource := by
  intro t s s' f
  have hdue : s.engine.grace.Registered t := (Grace.isSome_claim? _ t).1 (by decide +kernel)
  have hstarts : StartsOnline "alice" s' bobUnlocks := by decide +kernel
  have haway : Away "alice" s' bobUnlocks := by decide +kernel
  have herrands : s.errands = [] := by decide +kernel
  have hafter := leftovers_reclaim_run brief actionPoint (leavesWaiting ++ [.abandon wishRefused]) t
    bobUnlocks
  obtain ⟨hgone, (hleft : Leftovers s f "alice")⟩ := hafter hdue hstarts haway
  refine ⟨hdue, hstarts, haway, hgone, fun resource howned => ?_⟩
  have hwaited := hleft.owned resource howned
  rw [waiting, herrands] at hwaited
  exact Nat.lt_irrefl 0 hwaited

/-- Else her lock outlives her session: it is granted after her reclamation, and no reclamation is
pending that would take it away. -/
theorem owned_bobUnlocks :
    let t : GraceTimer := ⟨"alice", 1⟩
    let s := (start brief actionPoint).run leavesWaiting
    let s' := s.take (.fire t)
    let f := s'.run bobUnlocks
    StartsOnline "alice" (start brief actionPoint) (leavesWaiting ++ .fire t :: bobUnlocks) ∧
      s.engine.grace.Registered t ∧ s'.engine.sessions.session? "alice" = none ∧
      Away "alice" s' bobUnlocks ∧ f.engine.locks.table.Owned "alice" "ap_1" ∧
      (f.engine.locks.table.coverage? "alice" "ap_1").isSome ∧
      f.errands = [] ∧ f.engine.grace.pending["alice"]? = none := by
  intro t s s' f
  have hdue : s.engine.grace.Registered t := (Grace.isSome_claim? _ t).1 (by decide +kernel)
  have howned : (f.engine.locks.table.lookup? "ap_1").any (·.isOwnedBy "alice") := by
    decide +kernel
  obtain ⟨e, he, howner⟩ := (Option.any_eq_true _ _).1 howned
  exact ⟨by decide +kernel, hdue, by decide +kernel, by decide +kernel, ⟨e, he, howner⟩,
    by decide +kernel, by decide +kernel, by decide +kernel⟩

end Traffic

end SceneLocks
