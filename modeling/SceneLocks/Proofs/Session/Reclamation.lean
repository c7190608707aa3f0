import SceneLocks.Engine
import SceneLocks.Proofs.Locks.Calls

/-!
# Reclamations

Every disconnect starts a timer, and cancelling a timer does not keep it from firing: a timer
that was cancelled or superseded may fire late, in any order with all others. It takes the locks
of its user away just when it is due, which a timer is until its user comes back, leaves again,
or the supervisor shuts down, and until it has fired once.
-/

namespace SceneLocks

open Time

/-! ## What happened -/

/-- What happened to the grace periods. -/
inductive Occurrence where
  | started (t : GraceTimer)
  | cameBack (user : User)
  | stopped
  /-- A timer fired, and took the locks of its user or was skipped. -/
  | fired (t : GraceTimer) (reclaimed : Bool)
deriving DecidableEq

/-- Nothing is left to a timer: its user came back or left again, or there was a shutdown. -/
def Occurrence.Ends (t : GraceTimer) : Occurrence → Prop
  | .started t' => t'.user = t.user
  | .cameBack user => user = t.user
  | .stopped => True
  | .fired .. => False

/-- All that happened to the grace periods, newest first. -/
abbrev Past := List Occurrence

namespace Past

/-- The timers started, newest first. -/
def timers (past : Past) : List GraceTimer :=
  past.filterMap fun
    | .started t => some t
    | _ => none

/-- The timer belongs to its user's latest disconnect, nothing ended it since, and it has not
fired before. -/
structure Due (past : Past) (t : GraceTimer) : Prop where
  standing : ∃ since before : Past, past = since ++ .started t :: before ∧
    ∀ o ∈ since, ¬ o.Ends t
  unfired : ∀ reclaimed, .fired t reclaimed ∉ past

theorem mem_timers {past : Past} {t : GraceTimer} : t ∈ past.timers ↔ .started t ∈ past := by
  unfold timers
  rw [List.mem_filterMap]
  constructor
  · rintro ⟨o, ho, h⟩
    cases o <;> simp_all
  · exact fun h => ⟨_, h, rfl⟩

theorem not_due_nil (t : GraceTimer) : ¬ Due [] t := by
  rintro ⟨⟨since, before, h, -⟩, -⟩
  simp at h

/-- What happens makes a timer due that just started, and no longer due what it ends. -/
theorem due_cons {o : Occurrence} {past : Past} {t : GraceTimer} :
    Due (o :: past) t ↔
      (o = .started t ∧ ∀ reclaimed, .fired t reclaimed ∉ past) ∨
      (past.Due t ∧ ¬ o.Ends t ∧ ∀ reclaimed, o ≠ .fired t reclaimed) := by
  constructor
  · rintro ⟨⟨since, before, hpast, hsince⟩, hunfired⟩
    simp only [List.mem_cons, not_or] at hunfired
    -- the newest occurrence is the start of the timer, or one of those since then
    cases since with
    | nil =>
      obtain ⟨rfl, rfl⟩ := List.cons.inj hpast
      exact .inl ⟨rfl, fun reclaimed => (hunfired reclaimed).2⟩
    | cons o' since =>
      obtain ⟨rfl, rfl⟩ := List.cons.inj hpast
      simp only [List.mem_cons, forall_eq_or_imp] at hsince
      exact .inr ⟨⟨⟨since, before, rfl, hsince.2⟩, fun reclaimed => (hunfired reclaimed).2⟩,
        hsince.1, fun reclaimed h => (hunfired reclaimed).1 h.symm⟩
  · rintro (⟨rfl, hunfired⟩ | ⟨⟨⟨since, before, rfl, hsince⟩, hunfired⟩, hends, hfired⟩)
    · exact ⟨⟨[], past, rfl, by simp⟩, by simpa using hunfired⟩
    · refine ⟨⟨o :: since, before, rfl, ?_⟩, ?_⟩
      · simpa only [List.mem_cons, forall_eq_or_imp] using ⟨hends, hsince⟩
      · simp only [List.mem_cons, not_or]
        exact fun reclaimed => ⟨fun h => hfired reclaimed h.symm, hunfired reclaimed⟩

/-- Firing settles a timer and no other. -/
theorem due_fired_cons {past : Past} {t t' : GraceTimer} {reclaimed : Bool} :
    Due (.fired t reclaimed :: past) t' ↔ past.Due t' ∧ t ≠ t' := by
  rw [due_cons]
  constructor
  · rintro (⟨h, -⟩ | ⟨hdue, -, hfired⟩)
    · cases h
    · exact ⟨hdue, fun h => hfired reclaimed (h ▸ rfl)⟩
  · rintro ⟨hdue, hne⟩
    exact .inr ⟨hdue, nofun, fun _ h => hne (Occurrence.fired.inj h).1⟩

/-- Every firing took the locks of its user just when its timer was due. -/
def Judged (past : Past) : Prop :=
  ∀ t reclaimed before, (.fired t reclaimed :: before : Past) <:+ past →
    (reclaimed = true ↔ Due before t)

theorem Judged.cons {o : Occurrence} {past : Past} (h : past.Judged)
    (hfired : ∀ t reclaimed, o = .fired t reclaimed → (reclaimed = true ↔ past.Due t)) :
    Judged (o :: past) := by
  intro t reclaimed before hsuffix
  rcases List.suffix_cons_iff.1 hsuffix with heq | hsuffix
  · obtain ⟨rfl, rfl⟩ := List.cons.inj heq
    exact hfired t reclaimed rfl
  · exact h t reclaimed before hsuffix

theorem Judged.of_suffix {before past : Past} (h : past.Judged) (hsuffix : before <:+ past) :
    before.Judged :=
  fun t reclaimed earlier hearlier => h t reclaimed earlier (hearlier.trans hsuffix)

/-- A timer that took the locks of its user is not due again, so it does so only once. -/
theorem Judged.count_le_one {past : Past} (h : past.Judged) (t : GraceTimer) :
    past.count (.fired t true) ≤ 1 := by
  induction past with
  | nil => simp
  | cons o past ih =>
    -- a timer that fires while it is due has not fired before
    by_cases ho : o = .fired t true
    · subst ho
      have hdue : Due past t := (h t true past (List.suffix_refl _)).1 rfl
      exact Nat.le_of_eq (by rw [List.count_cons_self, List.count_eq_zero.2 (hdue.unfired true)])
    · rw [List.count_cons_of_ne ho]
      exact ih (h.of_suffix (List.suffix_cons o past))

/-- Once a timer is ended, nothing makes it due again: no other timer has its generation. -/
theorem not_due_of_ends {since before : Past} {o : Occurrence} {t : GraceTimer}
    (hdistinct : (timers (since ++ o :: before)).Nodup) (hstarted : .started t ∈ before)
    (hends : o.Ends t) : ¬ Due (since ++ o :: before) t := by
  -- only a start of its own could make the timer due again, and that it had already
  induction since with
  | nil =>
    rw [List.nil_append, due_cons]
    rintro (⟨rfl, -⟩ | ⟨-, hstands, -⟩)
    · exact (List.nodup_cons.1 hdistinct).1 (mem_timers.2 hstarted)
    · exact hstands hends
  | cons o' since ih =>
    rw [List.cons_append, due_cons]
    rintro (⟨rfl, -⟩ | ⟨hdue, -⟩)
    · refine (List.nodup_cons.1 hdistinct).1 (mem_timers.2 ?_)
      exact List.mem_append_right since (List.mem_cons_of_mem o hstarted)
    · exact ih (hdistinct.sublist ((List.sublist_cons_self o' _).filterMap _)) hdue

theorem Judged.not_fired_of_ends {since before : Past} {o : Occurrence} {t : GraceTimer}
    (h : Judged (since ++ o :: before)) (hdistinct : (timers (since ++ o :: before)).Nodup)
    (hstarted : .started t ∈ before) (hends : o.Ends t) : .fired t true ∉ since := by
  intro hfired
  -- when it fired the timer had been ended already
  obtain ⟨late, early, rfl⟩ := List.append_of_mem hfired
  rw [List.append_assoc, List.cons_append] at h hdistinct
  have hdue : Due (early ++ o :: before) t := (h t true _ (List.suffix_append late _)).1 rfl
  refine not_due_of_ends (hdistinct.sublist (List.Sublist.filterMap _ ?_)) hstarted hends hdue
  exact (List.sublist_cons_self _ _).trans (List.sublist_append_right late _)

end Past

/-! ## Records -/

namespace Grace

variable {g : Grace} {t : GraceTimer}

/-- The timer is the one that its user's record waits for. -/
def Registered (g : Grace) (t : GraceTimer) : Prop :=
  ∃ p, g.pending[t.user]? = some p ∧ p.generation = t.generation

theorem claim?_of_registered (h : g.Registered t) :
    g.claim? t = some { g with pending := g.pending.erase t.user } := by
  obtain ⟨p, hp, hgeneration⟩ := h
  simp [claim?, hp, hgeneration]

theorem claim?_of_not_registered (h : ¬ g.Registered t) : g.claim? t = none := by
  rwa [Registered, ← isSome_claim?, Bool.not_eq_true, Option.isSome_eq_false_iff,
    Option.isNone_iff_eq_none] at h

/-- Two timers of the same user and the same generation are the same. -/
theorem Registered.eq {t' : GraceTimer} (h : g.Registered t) (h' : g.Registered t')
    (huser : t.user = t'.user) : t = t' := by
  obtain ⟨p, hp, hgeneration⟩ := h
  obtain ⟨p', hp', hgeneration'⟩ := h'
  rw [huser, hp'] at hp
  obtain rfl := Option.some.inj hp
  cases t; cases t'
  simp_all

theorem registered_erase (user : User) (t : GraceTimer) :
    Registered { g with pending := g.pending.erase user } t ↔
      user ≠ t.user ∧ g.Registered t := by
  simp only [Registered, Std.ExtTreeMap.getElem?_erase, Std.compare_eq_iff_eq]
  split
  · next h => simp [h]
  · next h => simp [h]

/-- A disconnect whose deadline the clock does not reach leaves the records alone. -/
theorem onDisconnect_cases (g : Grace) (now : Instant) (user : User) :
    (∃ deadline, now.after? g.timeout = some deadline ∧ g.onDisconnect now user =
      ({ g with
          generation := g.generation + 1
          pending := g.pending.insert user ⟨g.generation + 1, deadline⟩ },
        some ⟨user, g.generation + 1⟩)) ∨
    (now.after? g.timeout = none ∧
      g.onDisconnect now user = ({ g with generation := g.generation + 1 }, none)) := by
  unfold onDisconnect
  dsimp only
  cases now.after? g.timeout with
  | none => exact .inr ⟨rfl, rfl⟩
  | some deadline => exact .inl ⟨deadline, rfl, rfl⟩

theorem registered_insert (user : User) (generation : Nat) (deadline : Instant)
    (t : GraceTimer) :
    Registered { g with
        generation, pending := g.pending.insert user ⟨generation, deadline⟩ } t ↔
      t = ⟨user, generation⟩ ∨ user ≠ t.user ∧ g.Registered t := by
  simp only [Registered, Std.ExtTreeMap.getElem?_insert, Std.compare_eq_iff_eq]
  split
  · next h =>
    obtain ⟨owner, own⟩ := t
    simp_all [eq_comm]
  · next h =>
    obtain ⟨owner, own⟩ := t
    simp_all [eq_comm]

end Grace

namespace Engine

/-- The timer has the locks of its user taken away: its record goes with them, and the user is
forgotten if that works. -/
structure Reclaims (e : Engine) (t : GraceTimer) : Prop where
  registered : e.grace.Registered t
  grace : (e.reclaim t).grace = { e.grace with pending := e.grace.pending.erase t.user }
  locks : (e.reclaim t).locks.Agree (e.locks.releaseAll t.user).1
  sessions : (e.reclaim t).sessions =
    if (e.locks.releaseAll t.user).2.isOk then (e.sessions.forget t.user).1 else e.sessions

theorem reclaim_of_not_registered {e : Engine} {t : GraceTimer} (h : ¬ e.grace.Registered t) :
    e.reclaim t = e := by
  simp [reclaim, Grace.claim?_of_not_registered h]

theorem reclaims_of_registered {e : Engine} {t : GraceTimer} (h : e.grace.Registered t) :
    e.Reclaims t := by
  have hclaim := Grace.claim?_of_registered h
  rcases hreleased : e.locks.releaseAll t.user with ⟨locks, _ | n⟩
  · refine ⟨h, ?_, ?_, ?_⟩ <;> simp only [reclaim, hclaim, hreleased]
    · exact Locks.agree_record locks _
    · rfl
  · refine ⟨h, ?_, ?_, ?_⟩ <;> simp only [reclaim, hclaim, hreleased]
    · exact Locks.agree_rfl locks
    · rfl

theorem connected_reclaim (e : Engine) (t : GraceTimer) :
    (e.reclaim t).connected = e.connected := by
  unfold reclaim
  split
  · rfl
  · split <;> rfl

end Engine

/-! ## The supervisor -/

/-- What reaches the supervisor, and what else happens to the locks and the sessions. -/
inductive Signal where
  | disconnect (now : Instant) (user : User)
  | connect (user : User)
  | shutdown
  /-- A timer that was started fires, whether it was cancelled since or not. -/
  | fire (t : GraceTimer)
  | elsewhere (locks : Locks) (sessions : Sessions)

/-- The engine with all that happened to its grace periods. -/
structure Supervision where
  engine : Engine
  past : Past := []

namespace Supervision

/-- The state after a signal. A disconnect beyond the reach of the clock breaks off without a
timer, and only a timer that was started can fire. -/
def receive (w : Supervision) : Signal → Supervision
  | .disconnect now user =>
    let (engine, timer) := w.engine.startGrace now user
    ⟨engine, (timer.map .started).toList ++ w.past⟩
  | .connect user => ⟨(w.engine.endGrace user).1, .cameBack user :: w.past⟩
  | .shutdown => ⟨{ w.engine with grace := w.engine.grace.shutdown.1 }, .stopped :: w.past⟩
  | .fire t =>
    if .started t ∈ w.past then
      ⟨w.engine.reclaim t, .fired t (w.engine.grace.claim? t).isSome :: w.past⟩
    else w
  | .elsewhere locks sessions => { w with engine := { w.engine with locks, sessions } }

/-- The state after some signals. -/
def run (w : Supervision) (signals : List Signal) : Supervision := signals.foldl receive w

/-- The records are those of the timers that are due, and every firing was judged by that. -/
structure Sound (w : Supervision) : Prop where
  registered : ∀ t, w.engine.grace.Registered t ↔ w.past.Due t
  /-- The generations given out so far are not given out again. -/
  spent : ∀ t, .started t ∈ w.past → t.generation ≤ w.engine.grace.generation
  increasing : w.past.timers.Pairwise fun later earlier => earlier.generation < later.generation
  started : ∀ t reclaimed, .fired t reclaimed ∈ w.past → .started t ∈ w.past
  judged : w.past.Judged

/-- Nothing happened yet. -/
def start (engine : Engine) (timeout : Duration) : Supervision :=
  { engine := { engine with grace := { timeout } } }

theorem sound_start (engine : Engine) (timeout : Duration) : (start engine timeout).Sound where
  registered t := by simp [start, Grace.Registered, Past.not_due_nil]
  spent := by simp [start]
  increasing := by simp [start, Past.timers]
  started := by simp [start]
  judged t reclaimed before h := by simp [start] at h

namespace Sound

variable {w w' : Supervision}

/-- One more thing happens: a timer that starts has a generation of its own, and one that fires
was started and is judged by whether it is due. -/
theorem cons {o : Occurrence} (h : w.Sound) (hpast : w'.past = o :: w.past)
    (hregistered : ∀ t, w'.engine.grace.Registered t ↔ Past.Due (o :: w.past) t)
    (hgeneration : w.engine.grace.generation ≤ w'.engine.grace.generation)
    (hstarted : ∀ t, o = .started t →
      w.engine.grace.generation < t.generation ∧ t.generation ≤ w'.engine.grace.generation)
    (hfired : ∀ t reclaimed, o = .fired t reclaimed →
      .started t ∈ w.past ∧ (reclaimed = true ↔ w.past.Due t)) : w'.Sound where
  registered := by rwa [hpast]
  spent t ht := by
    rw [hpast, List.mem_cons] at ht
    rcases ht with rfl | ht
    · exact (hstarted t rfl).2
    · exact Nat.le_trans (h.spent t ht) hgeneration
  increasing := by
    rw [hpast]
    cases o with
    | started t =>
      refine List.pairwise_cons.2 ⟨fun earlier hearlier => ?_, h.increasing⟩
      exact Nat.lt_of_le_of_lt (h.spent earlier (Past.mem_timers.1 hearlier)) (hstarted t rfl).1
    | cameBack | stopped | fired => exact h.increasing
  started t reclaimed ht := by
    rw [hpast, List.mem_cons] at ht ⊢
    rcases ht with rfl | ht
    · exact .inr (hfired t reclaimed rfl).1
    · exact .inr (h.started t reclaimed ht)
  judged := hpast ▸ h.judged.cons fun t reclaimed ho => (hfired t reclaimed ho).2

/-- A timer of a generation that was not given out yet has not fired. -/
theorem not_fired (h : w.Sound) {t : GraceTimer}
    (hnew : w.engine.grace.generation < t.generation) (reclaimed : Bool) :
    .fired t reclaimed ∉ w.past :=
  fun hfired => Nat.not_lt.2 (h.spent t (h.started t reclaimed hfired)) hnew

theorem disconnect (h : w.Sound) (now : Instant) (user : User) :
    (w.receive (.disconnect now user)).Sound := by
  simp only [receive, Engine.startGrace]
  rcases w.engine.grace.onDisconnect_cases now user with
    ⟨deadline, -, hgrace⟩ | ⟨-, hgrace⟩ <;> rw [hgrace]
  · refine h.cons rfl (fun t => ?_) (Nat.le_succ _) ?_ nofun
    · rw [Grace.registered_insert, Past.due_cons, h.registered]
      have hnew := h.not_fired (t := ⟨user, w.engine.grace.generation + 1⟩) (Nat.lt_succ_self _)
      constructor
      · rintro (rfl | ⟨huser, hdue⟩)
        · exact .inl ⟨rfl, hnew⟩
        · exact .inr ⟨hdue, huser, nofun⟩
      · rintro (⟨ht, -⟩ | ⟨hdue, huser, -⟩)
        · exact .inl (Occurrence.started.inj ht).symm
        · exact .inr ⟨huser, hdue⟩
    · rintro t ht
      obtain rfl := Occurrence.started.inj ht
      exact ⟨Nat.lt_succ_self _, Nat.le_refl _⟩
  · -- the generation is used up, nothing else changes
    exact { h with spent := fun t ht => Nat.le_trans (h.spent t ht) (Nat.le_succ _) }

theorem connect (h : w.Sound) (user : User) : (w.receive (.connect user)).Sound := by
  refine h.cons rfl (fun t => ?_) (Nat.le_refl _) nofun nofun
  -- a user has one record, so with it go all of the user's timers
  rw [Past.due_cons, ← h.registered]
  refine (Grace.registered_erase user t).trans ?_
  simp [Occurrence.Ends, and_comm]

theorem shutdown (h : w.Sound) : (w.receive .shutdown).Sound := by
  refine h.cons rfl (fun t => ?_) (Nat.le_refl _) nofun nofun
  rw [Past.due_cons]
  simp [receive, Grace.shutdown, Grace.Registered, Occurrence.Ends]

theorem fire (h : w.Sound) (t : GraceTimer) : (w.receive (.fire t)).Sound := by
  unfold receive
  dsimp only
  split
  · next hstarted =>
    have hjudged : (w.engine.grace.claim? t).isSome = true ↔ w.past.Due t := by
      rw [Grace.isSome_claim?]
      exact h.registered t
    have hfired : ∀ t' reclaimed, Occurrence.fired t (w.engine.grace.claim? t).isSome =
        .fired t' reclaimed → .started t' ∈ w.past ∧ (reclaimed = true ↔ w.past.Due t') := by
      rintro t' reclaimed heq
      obtain ⟨rfl, rfl⟩ := Occurrence.fired.inj heq
      exact ⟨hstarted, hjudged⟩
    by_cases hregistered : w.engine.grace.Registered t
    · have hgrace := (Engine.reclaims_of_registered hregistered).grace
      refine h.cons rfl (fun t' => ?_) (Nat.le_of_eq (by rw [hgrace])) nofun hfired
      rw [hgrace, Grace.registered_erase, Past.due_fired_cons, ← h.registered, and_comm]
      -- the record that went was of this timer, and no other timer had one for the same user
      refine and_congr_right fun hother => not_congr ⟨hregistered.eq hother, ?_⟩
      rintro rfl
      rfl
    · rw [Engine.reclaim_of_not_registered hregistered]
      refine h.cons rfl (fun t' => ?_) (Nat.le_refl _) nofun hfired
      rw [Past.due_fired_cons, ← h.registered]
      refine ⟨fun hother => ⟨hother, ?_⟩, And.left⟩
      rintro rfl
      exact hregistered hother
  · exact h

theorem receive (h : w.Sound) (signal : Signal) : (w.receive signal).Sound := by
  cases signal with
  | disconnect now user => exact h.disconnect now user
  | connect user => exact h.connect user
  | shutdown => exact h.shutdown
  | fire t => exact h.fire t
  | elsewhere locks sessions => exact { h with }

theorem run (h : w.Sound) (signals : List Signal) : (w.run signals).Sound := by
  induction signals generalizing w with
  | nil => exact h
  | cons signal signals ih => exact ih (h.receive signal)

end Sound

/-! ## Exactly once -/

/-- Every disconnect leads to one reclamation at most, and to none once it is cancelled or
superseded. -/
structure ExactlyOnce (w : Supervision) : Prop where
  /-- Every timer has a later generation than those started before it. -/
  increasing : w.past.timers.Pairwise fun later earlier => earlier.generation < later.generation
  /-- A user has one record at most. -/
  single : (w.engine.grace.deadlines.map (·.1)).Nodup
  /-- A timer that fires now takes the locks of its user just when it is due. -/
  reclaims : ∀ t, w.engine.Reclaims t ↔ w.past.Due t
  /-- Else it changes nothing at all. -/
  skips : ∀ t, ¬ w.past.Due t → w.engine.reclaim t = w.engine
  /-- So it was with every timer that fired. -/
  judged : w.past.Judged
  once : ∀ t, w.past.count (.fired t true) ≤ 1
  ended : ∀ since o before t, w.past = since ++ o :: before → .started t ∈ before → o.Ends t →
    .fired t true ∉ since

theorem exactlyOnce_run (engine : Engine) (timeout : Duration) (signals : List Signal) :
    ((start engine timeout).run signals).ExactlyOnce := by
  have h := (sound_start engine timeout).run signals
  generalize (start engine timeout).run signals = w at h
  refine ⟨h.increasing, ?_, fun t => ⟨fun hreclaims => ?_, fun hdue => ?_⟩, fun t hdue => ?_,
    h.judged, h.judged.count_le_one, ?_⟩
  · have hkeys : w.engine.grace.deadlines.map (·.1) = w.engine.grace.pending.keys := by
      simp [Grace.deadlines, Function.comp_def]
    rw [hkeys]
    exact Std.ExtTreeMap.nodup_keys
  · exact (h.registered t).1 hreclaims.registered
  · exact Engine.reclaims_of_registered ((h.registered t).2 hdue)
  · exact Engine.reclaim_of_not_registered (mt (h.registered t).1 hdue)
  · intro since o before t hpast hstarted hends
    refine Past.Judged.not_fired_of_ends (hpast ▸ h.judged) ?_ hstarted hends
    refine hpast ▸ h.increasing.imp ?_
    rintro later _ hlt rfl
    exact Nat.lt_irrefl _ hlt

end Supervision

end SceneLocks
