import SceneLocks.Proofs.Locks.Ledger

/-!
# What belongs to others

Every call is made on behalf of one user. The entries of a resource are shared rows, with one
mode and one flag for all owners, and yet no call takes or alters what another user holds: a
flag is only set on an exclusive entry, and such an entry has no other owner.
-/

namespace SceneLocks

/-! ## On whose behalf -/

/-- The user whose grants a plan is about. -/
def Plan.user : Plan → User
  | .grant _ _ r => r.owner
  | .release _ owner | .reclaim owner | .update _ owner _ => owner

/-- The user on whose behalf a call is made. -/
def Call.user : Call → User
  | .attempt _ a _ => a.request.owner
  | .acquireOnce _ _ _ r => r.owner
  | .lock _ _ _ owner _ | .unlock _ owner | .updateLock _ _ owner _ | .releaseAll owner => owner
  | .release h => h.owner
  | .drop h => h.handle.owner
  | .replay _ user => user

theorem Call.user_of_plan? {c : Call} {t : Table} {p : Plan} (h : c.plan? t = some p) :
    p.user = c.user := by
  cases plans_of_plan? h <;> rfl

/-! ## What a section leaves alone -/

/-- All that a user holds, and all that the editors show of it, is the same in both tables. -/
structure Table.SameFor (t t' : Table) (user : User) : Prop where
  grants : ∀ resource, t'.grants resource user = t.grants resource user
  /-- The user's entries keep their owner, their mode and their flag. -/
  entries : ∀ resource e, t.lookup? resource = some e → e.isOwnedBy user →
    ∃ e', t'.lookup? resource = some e' ∧ e'.isOwnedBy user ∧ e'.mode = e.mode ∧ e'.tree = e.tree
  coverage : ∀ root, t'.coverage? user root = t.coverage? user root

namespace Table

variable {t : Table} {s : Section} {user : User}

theorem sameFor_rfl (t : Table) (user : User) : t.SameFor t user :=
  ⟨fun _ => rfl, fun _ e he howned => ⟨e, he, howned, rfl, rfl⟩, fun _ => rfl⟩

/-- Another grant leaves mode and flag of an entry as its first grant made them. -/
theorem sameFor_granted {whole : Bool} {scope : Scope} {r : Request}
    (hs : Granted t whole scope r s) (huser : user ≠ r.owner) : t.SameFor (s.result t) user where
  grants x := by
    rw [grants_granted hs, if_neg fun h => huser h.2.symm, Nat.add_zero]
  entries x e he howned := by
    rw [hs.lookup?]
    split
    · rw [he]
      exact ⟨e.add r.owner, rfl, Entry.isOwnedBy_add.2 (.inr howned), rfl, rfl⟩
    · exact ⟨e, he, howned, rfl, rfl⟩
  coverage x := by
    rw [hs.coverage?, if_neg fun h => huser h.2.1.symm]

theorem sameFor_released {resource : Resource} {owner : User} {found : Entry}
    (hs : Released t resource owner found s) (huser : user ≠ owner) :
    t.SameFor (s.result t) user where
  grants x := by
    rw [grants_released hs, if_neg fun h => huser h.2.symm, Nat.sub_zero]
  entries x e he howned := by
    rw [hs.lookup?]
    split
    · next hx =>
      subst hx
      obtain rfl : found = e := Option.some.inj (hs.found.symm.trans he)
      -- the entry does not go, since the user is still among its owners
      have hstill : (found.remove owner).isOwnedBy user :=
        Entry.isOwnedBy_remove.2 ⟨howned, fun h => absurd h.symm huser⟩
      exact ⟨found.remove owner, Entry.keepOwned_eq_some_iff.2 ⟨rfl, user, hstill⟩, hstill,
        rfl, rfl⟩
    · exact ⟨e, he, howned, rfl, rfl⟩
  coverage x := by
    rw [hs.coverage?, if_neg fun h => huser h.2.1.symm]

theorem sameFor_reclaimed {owner : User} (hs : Reclaimed t owner s) (huser : user ≠ owner) :
    t.SameFor (s.result t) user where
  grants x := by
    rw [grants_reclaimed hs, if_neg huser.symm]
  entries x e he howned := by
    rw [hs.lookup?, he, Option.bind_some]
    split
    · have hstill : (e.removeAll owner).isOwnedBy user :=
        Entry.isOwnedBy_removeAll.2 ⟨huser.symm, howned⟩
      exact ⟨e.removeAll owner, Entry.keepOwned_eq_some_iff.2 ⟨rfl, user, hstill⟩, hstill,
        rfl, rfl⟩
    · exact ⟨e, rfl, howned, rfl, rfl⟩
  coverage x := by
    -- coverages go by user, not by owner of an entry
    rw [hs.coverage?, if_neg huser.symm]

/-- An updated entry has no owner besides the one who updates it. -/
theorem sameFor_resized {resource : Resource} {owner : User} {found : Entry} {tree : Bool}
    {covered : Std.ExtTreeSet Resource} (hcoherent : t.Coherent)
    (hs : Resized t resource owner found tree covered s) (huser : user ≠ owner) :
    t.SameFor (s.result t) user where
  grants x := grants_resized hs x user
  entries x e he howned := by
    rw [hs.lookup?]
    split
    · next hx =>
      subst hx
      obtain rfl : found = e := Option.some.inj (hs.found.symm.trans he)
      -- only exclusive entries are updated, and those have a sole owner
      have hsole := (hcoherent resource found hs.found).exclusive hs.exclusive
      exact absurd (hsole.eq_of_isOwnedBy howned hs.owned) huser
    · exact ⟨e, he, howned, rfl, rfl⟩
  coverage x := by
    rw [hs.coverage?, if_neg fun h => huser h.1.symm]

end Table

namespace Plan

variable {t : Table} {s : Section} {p : Plan}

theorem sameFor_result {user : User} (hcoherent : t.Coherent) (hs : p.edits t = .ok s)
    (huser : user ≠ p.user) : t.SameFor (s.result t) user := by
  have hdone := done_of_edits hs
  cases p with
  | grant whole scope r => exact Table.sameFor_granted hdone huser
  | release resource owner =>
    obtain ⟨e, hreleased⟩ := hdone
    exact Table.sameFor_released hreleased huser
  | reclaim owner => exact Table.sameFor_reclaimed hdone huser
  | update scope owner kind =>
    obtain ⟨e, hupdated⟩ := hdone
    obtain ⟨tree, covered, hresized, -, -⟩ := hupdated.resized
    exact Table.sameFor_resized hcoherent hresized huser

/-- A section announces nothing of anybody but its user. -/
theorem user_of_mem_events {event : Event} (hs : p.edits t = .ok s) (h : event ∈ s.events) :
    event.user = p.user := by
  have hdone := done_of_edits hs
  cases p with
  | grant whole scope r =>
    rw [Granted.events hdone] at h
    split at h
    · obtain ⟨x, -, rfl⟩ := List.mem_map.1 h
      rfl
    · simp at h
  | release resource owner =>
    obtain ⟨e, hreleased⟩ := hdone
    rw [hreleased.events] at h
    split at h
    · obtain ⟨x, -, rfl⟩ := List.mem_map.1 h
      rfl
    · simp at h
  | reclaim owner =>
    rw [Reclaimed.events hdone] at h
    obtain ⟨x, -, rfl⟩ := List.mem_map.1 h
    rfl
  | update scope owner kind =>
    obtain ⟨e, hupdated⟩ := hdone
    cases kind with
    | tree =>
      rw [Extended.events hupdated] at h
      cases hc : t.coverage? owner scope.resource with
      | none => simp [hc] at h
      | some previous =>
        rw [hc] at h
        obtain ⟨x, -, rfl⟩ := List.mem_map.1 h
        rfl
    | object =>
      rw [Shrunk.events hupdated] at h
      cases hc : t.coverage? owner scope.resource with
      | none => simp [hc] at h
      | some previous =>
        rw [hc] at h
        obtain ⟨x, -, rfl⟩ := List.mem_map.1 h
        rfl

end Plan

/-! ## What goes into the queue -/

/-- The queue has grown by notifications of a kind, and by nothing else. -/
def Queue.GrowsBy (q q' : Queue) (kind : Notification → Prop) : Prop :=
  ∃ ns, q'.pending = q.pending ++ ns ∧ ∀ n ∈ ns, kind n

namespace Queue

variable {q q' : Queue} {kind : Notification → Prop}

theorem growsBy_of_eq (h : q' = q) : q.GrowsBy q' kind :=
  ⟨[], by simp [h], by simp⟩

/-- A closed queue takes none of them. -/
theorem growsBy_push {ns : List Notification} (h : ∀ n ∈ ns, kind n) :
    q.GrowsBy (q.push ns) kind := by
  cases hopen : q.isOpen with
  | true => exact ⟨ns, pending_push_of_isOpen hopen ns, h⟩
  | false => exact growsBy_of_eq (push_of_not_isOpen hopen ns)

theorem growsBy_broadcast {events : List Event} (h : ∀ event ∈ events, kind ⟨.all, event⟩) :
    q.GrowsBy (q.broadcast events) kind := by
  refine growsBy_push fun n hn => ?_
  obtain ⟨event, hevent, rfl⟩ := List.mem_map.1 hn
  exact h event hevent

end Queue

namespace Locks

variable {l : Locks} {kind : Notification → Prop}

/-- Of a section that breaks off some announcements remain. -/
theorem growsBy_rollBack {s : Section} (h : ∀ event ∈ s.events, kind ⟨.all, event⟩) (n : Nat)
    (fault : Fault) : l.queue.GrowsBy (l.rollBack s n fault).1.queue kind := by
  -- what was announced before the fault is not taken back
  have hsublist : (Section.events (s.take n)).Sublist s.events :=
    (List.take_sublist n s).filterMap _
  exact l.queue.growsBy_broadcast fun event hevent => h event (hsublist.subset hevent)

theorem growsBy_transact {plan : Table → Except LockError Section}
    (h : ∀ s, plan l.table = .ok s → ∀ event ∈ s.events, kind ⟨.all, event⟩) :
    l.queue.GrowsBy (l.transact plan).1.queue kind := by
  unfold transact
  dsimp only
  rw [table_enter, ← queue_enter l]
  cases hplan : plan l.table with
  | error e => exact Queue.growsBy_of_eq rfl
  | ok s =>
    have hs := h s hplan
    simp only [commit]
    cases l.enter.breakPoint? s with
    | none => exact Queue.growsBy_broadcast hs
    | some point => exact growsBy_rollBack hs point.1 point.2

/-- What a replay says goes to one connection only. -/
theorem growsBy_replay (l : Locks) (c : ConnectionId) (user : User) :
    l.queue.GrowsBy (l.replay c user).1.queue fun n => n.audience = .only c := by
  let notifications : List Notification := (replayEvents l.enter.table user).map (⟨.only c, ·⟩)
  have hnotifications : ∀ n ∈ notifications, n.audience = .only c := by
    intro n hn
    obtain ⟨event, -, rfl⟩ := List.mem_map.1 hn
    rfl
  rw [← queue_enter l]
  unfold replay
  dsimp only
  split
  · exact Queue.growsBy_push fun n hn => hnotifications n (List.mem_of_mem_take hn)
  · exact Queue.growsBy_push hnotifications

/-! ## What a call leaves alone -/

/-- Between the two states nothing happened to what anybody but the user holds, and everything
that all connections are told names the user. -/
structure ActsFor (l l' : Locks) (user : User) : Prop where
  others : ∀ other, other ≠ user → l.table.SameFor l'.table other
  told : l.queue.GrowsBy l'.queue fun n => n.audience = .all → n.event.user = user

theorem actsFor_perform {l : Locks} (hcoherent : l.table.Coherent) (c : Call) :
    l.ActsFor (c.perform l).1 c.user := by
  cases hplan : c.plan? l.table with
  | none =>
    refine ⟨fun other _ => ?_, ?_⟩
    · rw [Call.table_perform_of_plan?_eq_none hplan]
      exact l.table.sameFor_rfl other
    · -- only a replay says something without a section, and not to all
      rcases Call.agree_perform hplan with hagree | ⟨connection, user, rfl⟩
      · exact Queue.growsBy_of_eq hagree.2
      · obtain ⟨ns, hpending, hns⟩ := l.growsBy_replay connection user
        exact ⟨ns, hpending, fun n hn hall => absurd (hall.symm.trans (hns n hn)) nofun⟩
  | some p =>
    -- the section does it all, and it is made for the user of the call
    have henters := Call.enters_perform hplan
    rw [← Call.user_of_plan? hplan]
    refine ⟨fun other hother => ?_, ?_⟩
    · rcases henters.cases with ⟨-, s, hs, htable⟩ | ⟨-, htable⟩
      · rw [htable]
        exact p.sameFor_result hcoherent hs hother
      · rw [htable]
        exact l.table.sameFor_rfl other
    · rw [henters.1.2]
      exact growsBy_transact fun s hs event hevent _ => p.user_of_mem_events hs hevent

theorem actsFor_breakOff (l : Locks) (p : Plan) (n : Nat) (fault : Fault) :
    l.ActsFor ((Step.breakOff p n fault).perform l) p.user := by
  refine ⟨fun other _ => ?_, ?_⟩
  · rcases (Step.breakOff p n fault).perform_cases l with ⟨c, _, _, h, -⟩ | ⟨h, -⟩
    · exact absurd h nofun
    · rw [h]
      exact l.table.sameFor_rfl other
  · rw [← queue_enter l]
    simp only [Step.perform]
    cases hedits : p.edits l.table with
    | error e => exact Queue.growsBy_of_eq rfl
    | ok s =>
      exact growsBy_rollBack (fun event hevent _ => p.user_of_mem_events hedits hevent) n fault

/-- Nobody can take or alter what another user holds: after every run, a call on behalf of one
user, whether it succeeds, fails or breaks off in its section, leaves the grants, the entries and
the editor locks of all others as they are, and announces nothing but that user's. -/
theorem actsFor_run (settings : LockSettings) (steps : List Step) :
    (∀ c : Call, ((fresh settings).run steps).ActsFor
      (c.perform ((fresh settings).run steps)).1 c.user) ∧
    ∀ (p : Plan) (n : Nat) (fault : Fault), ((fresh settings).run steps).ActsFor
      ((Step.breakOff p n fault).perform ((fresh settings).run steps)) p.user := by
  have hcoherent : ((fresh settings).run steps).table.Coherent :=
    invariant_run Table.coherent_empty (fun _ _ _ hp h hs => h.result hp hs) settings
      fun _ _ _ _ hplan => Call.resolved_of_plan? hplan
  exact ⟨actsFor_perform hcoherent, actsFor_breakOff _⟩

end Locks

end SceneLocks
