import SceneLocks.Proofs.Locks.Answers
import SceneLocks.Proofs.Locks.Invalidation

/-!
# Sections that break off

A section works on the table itself, one edit after the other, and the table is put back when it
breaks off. That comes to what a section is said to do: it is performed as a whole, or the table
stays (`commit_eq_execute`). After a section broke off, wherever that happened, every call answers
and acts as it would have without that section.
-/

namespace SceneLocks

/-! ## Edit by edit -/

namespace Locks

/-- Performs one edit on the table. -/
def edit (l : Locks) (e : Edit) : Locks :=
  { l with table := e.apply l.table, queue := l.queue.broadcast e.event?.toList }

/-- What an edit breaks off on: an announcement wakes the consumer of the queue. -/
def springs? (l : Locks) (e : Edit) : Option Fault :=
  if e.event?.isSome then l.queue.trap? else none

/-- Puts the table back to what it was before, after a section broke off. -/
def restore (l : Locks) (before : Table) (fault : Fault) : Locks :=
  { l with table := before, queue := l.queue.disarm }.record
    (.rolledBack fault.reason before.size)

/-- What the caller of a section that broke off is told. -/
def brokenOff (fault : Fault) : LockError :=
  .broken ("lock table operation aborted: " ++ fault.reason)

/-- Performs the edits of a section one after the other, until one breaks off. -/
def execute (before : Table) : Section → Locks → Locks × Except LockError Unit
  | [], l => (l, .ok ())
  | e :: s, l =>
    match l.springs? e with
    | some fault => ((l.edit e).restore before fault, .error (brokenOff fault))
    | none => execute before s (l.edit e)

theorem perform_nil (l : Locks) : l.perform [] = l := by
  simp [perform, Queue.broadcast]

theorem perform_cons (l : Locks) (e : Edit) (s : Section) :
    l.perform (e :: s) = (l.edit e).perform s := by
  simp [perform, edit, Queue.broadcast, Queue.push_push]

/-- After some edits of a section. -/
theorem foldl_edit (l : Locks) (s : Section) : s.foldl edit l = l.perform s := by
  induction s generalizing l with
  | nil => exact (perform_nil l).symm
  | cons e s ih => rw [List.foldl_cons, ih, perform_cons]

theorem trap?_edit (l : Locks) (e : Edit) : (l.edit e).queue.trap? = l.queue.trap? := by
  simp [edit, Queue.trap?, Queue.broadcast]

/-- A section that is undone is one that was on its way, with the table put back. -/
theorem rollBack_eq (l : Locks) (s : Section) (n : Nat) (fault : Fault) :
    l.rollBack s n fault = (((s.take n).foldl edit l).restore l.table fault, brokenOff fault) := by
  rw [foldl_edit]
  rfl

theorem restore_eq_rollBack (l : Locks) (s : Section) (n : Nat) (fault : Fault) :
    ((s.take n).foldl edit l.enter).restore l.table fault = (l.enter.rollBack s n fault).1 := by
  rw [rollBack_eq, table_enter]

/-- Edit by edit a section comes to its end, or breaks off right after an announcement. -/
theorem execute_eq (before : Table) (s : Section) (l : Locks) :
    execute before s l =
      match l.breakPoint? s with
      | none => (l.perform s, .ok ())
      | some (n, fault) =>
        ((l.perform (s.take n)).restore before fault, .error (brokenOff fault)) := by
  unfold breakPoint?
  induction s generalizing l with
  | nil =>
    rw [execute, perform_nil]
    cases l.queue.trap? <;> rfl
  | cons e s ih =>
    -- an edit leaves the trap, so the rest breaks off where it would have without the edit
    have hrest := ih (l.edit e)
    rw [trap?_edit] at hrest
    unfold execute springs?
    cases htrap : l.queue.trap? with
    | none =>
      rw [htrap] at hrest
      rw [ite_self, perform_cons]
      exact hrest
    | some fault =>
      rw [htrap] at hrest
      rw [List.findIdx?_cons]
      cases hevent : e.event?.isSome with
      | true =>
        simp only [if_true, Option.bind_some, Option.map_some, Nat.zero_add, List.take_succ_cons,
          List.take_zero, perform_cons, perform_nil]
      | false =>
        simp only [Bool.false_eq_true, if_false, hrest, Option.bind_some, Option.map_map]
        cases s.findIdx? (·.event?.isSome) with
        | none => simp only [Option.map_none, perform_cons]
        | some i =>
          simp only [Option.map_some, Function.comp_apply, List.take_succ_cons, perform_cons]

/-- To commit a section is to perform it edit by edit, and to put the table back if that breaks
off. -/
theorem commit_eq_execute (l : Locks) (s : Section) : l.commit s = execute l.table s l := by
  rw [execute_eq, commit]
  cases l.breakPoint? s with
  | none => rfl
  | some point => rfl

end Locks

/-! ## Errors -/

theorem Plan.edits_ne_broken (p : Plan) (t : Table) (reason : String) :
    p.edits t ≠ .error (.broken reason) := by
  intro h
  cases p with
  | grant whole scope r =>
    simp only [edits, Table.granting] at h
    split at h
    · cases h
    · cases h
  | release resource owner =>
    simp only [edits, Table.releasing, Table.strangerError] at h
    split at h
    · cases h
    · split at h
      · cases h
      · split at h <;> cases h
  | reclaim owner => cases h
  | update scope owner kind =>
    simp only [edits, Table.updating, Table.updateError] at h
    split at h
    · cases h
    · split at h
      · cases kind with
        | tree =>
          simp only [Table.extending] at h
          split at h
          · cases h
          · split at h <;> cases h
        | object =>
          simp only [Table.shrinking] at h
          split at h <;> cases h
      · split at h
        · split at h <;> cases h
        · cases h

namespace Locks

/-- A section broke off between the two states: what it announced until then stays queued, the
table is what it was, and the fault is over. -/
structure BrokeOff (l l' : Locks) : Prop where
  table : l'.table = l.table
  queue : ∃ events, l'.queue = (l.queue.broadcast events).disarm

theorem brokeOff_rollBack (l : Locks) (s : Section) (n : Nat) (fault : Fault) :
    l.BrokeOff (l.enter.rollBack s n fault).1 := by
  refine ⟨by simp, Section.events (s.take n), ?_⟩
  simp [rollBack]

theorem BrokeOff.agree {l l' l'' : Locks} (h : l.BrokeOff l') (hagree : l''.Agree l') :
    l.BrokeOff l'' := by
  obtain ⟨events, hqueue⟩ := h.queue
  exact ⟨hagree.1.trans h.table, events, hagree.2.trans hqueue⟩

/-- A section that fails was refused, and then nothing was done, or it broke off. -/
theorem transact_error {l : Locks} {p : Plan} {error : LockError}
    (h : (l.transact (p.edits ·)).2 = .error error) :
    ((∀ reason, error ≠ .broken reason) ∧ (l.transact (p.edits ·)).1.Agree l) ∨
    ((∃ fault, error = brokenOff fault) ∧ l.BrokeOff (l.transact (p.edits ·)).1) := by
  unfold transact at h ⊢
  simp only [table_enter] at h ⊢
  cases hs : p.edits l.table with
  | error e =>
    simp only [hs, Except.error.injEq] at h ⊢
    subst h
    refine .inl ⟨fun reason hbroken => ?_, agree_enter l⟩
    exact p.edits_ne_broken l.table reason (hbroken ▸ hs)
  | ok s =>
    simp only [hs, commit] at h ⊢
    cases hpoint : l.enter.breakPoint? s with
    | none => simp [hpoint] at h
    | some point =>
      simp only [hpoint, Except.error.injEq] at h ⊢
      exact .inr ⟨⟨point.2, h.symm⟩, brokeOff_rollBack l s point.1 point.2⟩

end Locks

namespace Call

/-- No call breaks off unless a fault is in the making. -/
theorem reply_outcome_ne_broken (c : Call) (t : Table) :
    (c.outcome t).reply ≠ .broken ∧ ∀ reason, (c.outcome t).reply ≠ .failed (.broken reason) := by
  cases hplan : c.plan? t with
  | none =>
    rw [outcome_of_plan?_eq_none hplan]
    rcases c.reply_atOnce t with hreply | ⟨n, hreply⟩
    · rcases c.answerAtOnce_cases t with h | ⟨resource, h⟩ <;> simp [hreply, h]
    · simp [hreply]
  | some p =>
    cases hs : p.edits t with
    | error e =>
      have hrefused : ∀ reason, e ≠ .broken reason := by
        rintro reason rfl
        exact p.edits_ne_broken t reason hs
      simpa [outcome_of_error hplan hs] using hrefused
    | ok s =>
      rw [outcome_of_ok hplan hs]
      cases c <;> simp [answer]

/-- A call that fails was refused, and then it did nothing to the table and to the queue, or its
section broke off. -/
theorem perform_failed {c : Call} {l : Locks} {error : LockError}
    (h : (c.perform l).2 = .failed error) :
    ((∀ reason, error ≠ .broken reason) ∧ (c.perform l).1.Agree l) ∨
    ((∃ fault, error = Locks.brokenOff fault) ∧ l.BrokeOff (c.perform l).1) := by
  cases hplan : c.plan? l.table with
  | some p =>
    obtain ⟨hagree, -⟩ := enters_perform hplan
    rw [reply_perform hplan] at h
    cases hresult : (l.transact (p.edits ·)).2 with
    | ok _ =>
      rw [hresult] at h
      cases c <;> cases h
    | error e =>
      rw [hresult] at h
      obtain rfl := Reply.failed.inj h
      rcases Locks.transact_error hresult with ⟨hrefused, hsame⟩ | ⟨hfault, hbroke⟩
      · exact .inl ⟨hrefused, hagree.trans hsame⟩
      · exact .inr ⟨hfault, hbroke.agree hagree⟩
  | none =>
    rcases perform_at_once hplan with ⟨hagree, hreply⟩ | ⟨connection, user, rfl⟩
    · refine .inl ⟨fun reason hbroken => ?_, hagree⟩
      exact c.answerAtOnce_ne_broken l.table reason (hreply ▸ hbroken ▸ h)
    · exact absurd h (reply_replay_ne_failed l connection user error)

end Call

/-! ## States that are alike -/

theorem Queue.pending_push (q : Queue) (ns : List Notification) :
    (q.push ns).pending = q.pending ++ if q.isOpen then ns else [] := by
  unfold push
  split <;> simp_all

namespace Locks

/-- Two states that differ only in what was queued, written and dropped so far. -/
structure Alike (l l' : Locks) : Prop where
  settings : l.settings = l'.settings
  table : l.table = l'.table
  isOpen : l.queue.isOpen = l'.queue.isOpen
  trap : l.queue.trap = l'.queue.trap

/-- What was done from `l` to `m` and from `l'` to `m'` leaves the same table, and queues the
same. -/
structure Alongside (l l' m m' : Locks) : Prop where
  table : m.table = m'.table
  isOpen : m.queue.isOpen = m'.queue.isOpen
  trap : m.queue.trap = m'.queue.trap
  queued : ∃ ns, m.queue.pending = l.queue.pending ++ ns ∧ m'.queue.pending = l'.queue.pending ++ ns

/-- The same, and the two are still alike, and the same cached data was dropped. -/
structure Parallel (l l' m m' : Locks) : Prop where
  alike : m.Alike m'
  queued : ∃ ns, m.queue.pending = l.queue.pending ++ ns ∧ m'.queue.pending = l'.queue.pending ++ ns
  dropped : ∃ rs, m.invalidated = l.invalidated ++ rs ∧ m'.invalidated = l'.invalidated ++ rs

variable {l l' m m' : Locks}

theorem Parallel.record (h : l.Parallel l' m m') (r r' : Record) :
    l.Parallel l' (m.record r) (m'.record r') :=
  ⟨⟨h.alike.settings, h.alike.table, h.alike.isOpen, h.alike.trap⟩, h.queued, h.dropped⟩

theorem Alike.trap? (h : l.Alike l') : l.queue.trap? = l'.queue.trap? := by
  unfold Queue.trap?
  rw [h.isOpen, h.trap]

theorem Alongside.agree {n n' : Locks} (h : l.Alongside l' m m') (hn : n.Agree m)
    (hn' : n'.Agree m') : l.Alongside l' n n' := by
  obtain ⟨htable, hqueue⟩ := hn
  obtain ⟨htable', hqueue'⟩ := hn'
  constructor
  · rw [htable, htable', h.table]
  · rw [hqueue, hqueue', h.isOpen]
  · rw [hqueue, hqueue', h.trap]
  · rw [hqueue, hqueue']
    exact h.queued

/-- What drops nothing and leaves the settings keeps states alike. -/
theorem Alongside.parallel (h : l.Alongside l' m m') (halike : l.Alike l') (hm : m.SameRest l)
    (hm' : m'.SameRest l') : l.Parallel l' m m' := by
  obtain ⟨hsettings, hdropped⟩ := hm
  obtain ⟨hsettings', hdropped'⟩ := hm'
  refine ⟨⟨?_, h.table, h.isOpen, h.trap⟩, h.queued, [], ?_, ?_⟩
  · rw [hsettings, hsettings', halike.settings]
  · rw [hdropped, List.append_nil]
  · rw [hdropped', List.append_nil]

theorem Alike.alongside (h : l.Alike l') (hm : m.Agree l) (hm' : m'.Agree l') :
    l.Alongside l' m m' := by
  have hself : l.Alongside l' l l' := ⟨h.table, h.isOpen, h.trap, [], by simp, by simp⟩
  exact hself.agree hm hm'

/-- The same notifications go to both queues, or to neither. -/
theorem Alike.push (h : l.Alike l') (ns : List Notification) (htable : m.table = m'.table)
    (hm : m.queue = l.queue.push ns) (hm' : m'.queue = l'.queue.push ns) :
    l.Alongside l' m m' := by
  refine ⟨htable, by simp [hm, hm', h.isOpen], by simp [hm, hm', h.trap], ?_⟩
  rw [hm, hm', Queue.pending_push, Queue.pending_push, h.isOpen]
  exact ⟨_, rfl, rfl⟩

theorem Alike.push_disarm (h : l.Alike l') (ns : List Notification) (htable : m.table = m'.table)
    (hm : m.queue = (l.queue.push ns).disarm) (hm' : m'.queue = (l'.queue.push ns).disarm) :
    l.Alongside l' m m' := by
  refine ⟨htable, by simp [hm, hm', Queue.disarm, h.isOpen], by simp [hm, hm', Queue.disarm], ?_⟩
  rw [hm, hm']
  simp only [Queue.disarm, Queue.pending_push, h.isOpen]
  exact ⟨_, rfl, rfl⟩

theorem Alike.perform (h : l.Alike l') (s : Section) :
    l.Alongside l' (l.enter.perform s) (l'.enter.perform s) := by
  apply h.push (s.events.map (⟨.all, ·⟩))
  · simp [Locks.perform, h.table]
  · simp [Locks.perform, Queue.broadcast]
  · simp [Locks.perform, Queue.broadcast]

theorem Alike.rollBack (h : l.Alike l') (s : Section) (n : Nat) (fault : Fault) :
    l.Alongside l' (l.enter.rollBack s n fault).1 (l'.enter.rollBack s n fault).1 := by
  apply h.push_disarm ((Section.events (s.take n)).map (⟨.all, ·⟩))
  · simp [h.table]
  · simp [Locks.rollBack, Queue.broadcast]
  · simp [Locks.rollBack, Queue.broadcast]

/-- Wherever a section breaks off, states that are alike stay alike. -/
theorem Alike.breakOff (h : l.Alike l') (s : Section) (n : Nat) (fault : Fault) :
    l.Parallel l' (((s.take n).foldl edit l.enter).restore l.table fault)
      (((s.take n).foldl edit l'.enter).restore l'.table fault) := by
  rw [restore_eq_rollBack, restore_eq_rollBack]
  exact (h.rollBack s n fault).parallel h (sameRest_enter l) (sameRest_enter l')

/-- A section does the same to both tables, comes to the same, and queues the same. -/
theorem Alike.transact (h : l.Alike l') (plan : Table → Except LockError Section) :
    (l.transact plan).2 = (l'.transact plan).2 ∧
      l.Alongside l' (l.transact plan).1 (l'.transact plan).1 := by
  unfold Locks.transact
  simp only [table_enter, h.table]
  cases plan l'.table with
  | error e => exact ⟨rfl, h.alongside (agree_enter l) (agree_enter l')⟩
  | ok s =>
    have hpoint : l.enter.breakPoint? s = l'.enter.breakPoint? s :=
      breakPoint?_congr (by rw [queue_enter, queue_enter, h.trap?]) s
    simp only [commit, hpoint]
    cases l'.enter.breakPoint? s with
    | none => exact ⟨rfl, h.perform s⟩
    | some point => exact ⟨rfl, h.rollBack s point.1 point.2⟩

/-- A replay says the same to a connection. -/
theorem Alike.replay (h : l.Alike l') (c : ConnectionId) (user : User) :
    (l.replay c user).2 = (l'.replay c user).2 ∧
      l.Alongside l' (l.replay c user).1 (l'.replay c user).1 := by
  unfold Locks.replay
  simp only [table_enter, queue_enter, h.table, h.trap?]
  split
  · exact ⟨rfl, h.push_disarm _ rfl rfl rfl⟩
  · exact ⟨rfl, h.push _ rfl rfl rfl⟩

end Locks

namespace Call

open Locks

/-- A call answers the same, does the same to both tables, and queues and drops the same. -/
theorem alongside_perform {l l' : Locks} (h : l.Alike l') (c : Call) :
    (c.perform l).2 = (c.perform l').2 ∧
      l.Alongside l' (c.perform l).1 (c.perform l').1 := by
  cases hplan : c.plan? l.table with
  | some p =>
    have hplan' : c.plan? l'.table = some p := h.table ▸ hplan
    obtain ⟨hresult, halongside⟩ := h.transact (p.edits ·)
    constructor
    · rw [reply_perform hplan, reply_perform hplan', hresult, h.table]
    · exact halongside.agree (enters_perform hplan).1 (enters_perform hplan').1
  | none =>
    have hplan' : c.plan? l'.table = none := h.table ▸ hplan
    -- among the calls that enter no section only a replay has something to say
    by_cases hreplay : ∃ connection user, c = .replay connection user
    · obtain ⟨connection, user, rfl⟩ := hreplay
      obtain ⟨hsent, halongside⟩ := h.replay connection user
      refine ⟨?_, halongside⟩
      simp only [perform, Prod.map_snd, hsent]
    · obtain ⟨hagree, hreply⟩ := (perform_at_once hplan).resolve_right hreplay
      obtain ⟨hagree', hreply'⟩ := (perform_at_once hplan').resolve_right hreplay
      rw [hreply, hreply', h.table]
      exact ⟨rfl, h.alongside hagree hagree'⟩

/-- Whatever is called in states that are alike, they stay alike. -/
theorem parallel_perform {l l' : Locks} (h : l.Alike l') (c : Call) :
    l.Parallel l' (c.perform l).1 (c.perform l').1 := by
  obtain ⟨hreply, halongside⟩ := alongside_perform h c
  refine ⟨⟨?_, halongside.table, halongside.isOpen, halongside.trap⟩, halongside.queued, ?_⟩
  · rw [settings_perform, settings_perform, h.settings]
  · exact ⟨_, invalidated_perform c l, hreply ▸ invalidated_perform c l'⟩

end Call

end SceneLocks
