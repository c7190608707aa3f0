import SceneLocks.Proofs.Locks.Diagnosis
import SceneLocks.Proofs.Locks.EditorView
import SceneLocks.Proofs.Locks.Locality
import SceneLocks.Proofs.Locks.Others
import SceneLocks.Proofs.Locks.StaleHandles

/-!
# Locks that are given back

Whether a grant can be given back is up to the entry of its resource, whatever handle is shown for
it and whatever became of the graph since (`unlock_run`). A user who loses all locks at once loses
just those, and the editors are told once of each resource that they showed for that user
(`clear_run`).
-/

namespace SceneLocks

/-! ## One grant -/

/-- The call gives a grant of an owner on a resource back, with a handle or without one. -/
inductive Call.Unlocks : Resource → User → Call → Prop where
  | unlock (resource : Resource) (owner : User) :
    Unlocks resource owner (.unlock resource owner)
  | handle {h : Handle} {c : Call} (hback : c.GivesBack h) : Unlocks h.resource h.owner c

namespace Call.Unlocks

variable {c : Call} {resource : Resource} {owner : User}

theorem plan? (hc : c.Unlocks resource owner) (t : Table) :
    c.plan? t = some (.release resource owner) := by
  cases hc with
  | unlock => rfl
  | handle hback => exact hback.plan? t

theorem answer (hc : c.Unlocks resource owner) (t : Table) : c.answer t = .done := by
  cases hc with
  | unlock => rfl
  | handle hback => cases hback <;> rfl

theorem done_iff {l : Locks} (hc : c.Unlocks resource owner) :
    (c.perform l).2 = .done ↔ (c.perform l).2.isSuccess = true := by
  rw [Call.reply_perform (hc.plan? l.table), hc.answer]
  cases (l.transact ((Plan.release resource owner).edits ·)).2 <;>
    simp [Reply.ofExcept, Reply.isSuccess]

end Call.Unlocks

namespace Table

/-- What is announced when an owner gives a grant back: with the last one, everything that the
owner's editor lock on the resource covers is free. -/
def freed (t : Table) (resource : Resource) (owner : User) : List Event :=
  if t.grants resource owner = 1 then
    ((t.coverage? owner resource).getD ∅).toList.map (.unlocked · owner)
  else []

variable {t : Table} {resource : Resource} {owner holder user : User} {s : Section}

theorem mem_freed {event : Event} :
    event ∈ t.freed resource owner ↔ t.grants resource owner = 1 ∧
      ∃ x, t.Covers owner resource x ∧ event = .unlocked x owner := by
  unfold freed
  split
  · next hlast =>
    simp only [List.mem_map, Std.ExtTreeSet.mem_toList, mem_getD_coverage, hlast, true_and,
      @eq_comm _ event]
  · next hmore => simp [hmore]

theorem nodup_freed : (t.freed resource owner).Nodup := by
  unfold freed
  split
  · refine (nodup_toList _).map fun x y hxy => ?_
    exact congrArg Event.resource hxy
  · exact List.nodup_nil

/-- A release announces what is freed. -/
theorem events_of_releasing (hcoherent : t.Coherent) (hs : t.releasing resource owner = .ok s) :
    s.events = t.freed resource owner := by
  obtain ⟨e, hreleased⟩ := released_of_releasing hs
  have hgrants := grants_of_lookup? hreleased.found owner
  have hpos := (hcoherent resource e hreleased.found).isOwnedBy_iff.1 hreleased.owned
  have hlast : e.grants owner ≤ 1 ↔ e.grants owner = 1 := by omega
  rw [hreleased.events, freed, hgrants]
  simp only [hlast]

end Table

namespace Locks

/-- What a call to give a grant back is answered: whether it is one of the owner's, and if not,
whether somebody else holds the resource alone. -/
structure Answers (l : Locks) (resource : Resource) (owner : User) (reply : Reply) : Prop where
  done_iff : reply = .done ↔
    l.table.Owned owner resource ∧ l.Unhindered (l.table.freed resource owner)
  /-- Only a fault keeps an owner from giving the grant back. -/
  broken_iff : (∃ reason, reply = .failed (.broken reason)) ↔
    l.table.Owned owner resource ∧ ¬ l.Unhindered (l.table.freed resource owner)
  invalidOwner_iff : ∀ holder, reply = .failed (.invalidOwner resource owner holder) ↔
    l.table.HeldAlone resource holder ∧ holder ≠ owner
  notLocked_iff : reply = .failed (.notLocked resource owner) ↔
    ¬ l.table.Owned owner resource ∧
      ∀ e, l.table.lookup? resource = some e → e.mode = .shared

/-- One grant of the owner on the resource is gone, and with the last one its editor lock; nothing
else has changed. -/
structure GaveBack (l l' : Locks) (resource : Resource) (owner : User) : Prop where
  grants : ∀ x u, l.table.grants x u =
    l'.table.grants x u + if resource = x ∧ owner = u then 1 else 0
  entries : ∀ x e', l'.table.lookup? x = some e' →
    ∃ e, l.table.lookup? x = some e ∧ e'.mode = e.mode ∧ e'.tree = e.tree
  coverage : ∀ u x, l'.table.coverage? u x =
    if l.table.grants resource owner = 1 ∧ owner = u ∧ resource = x then none
    else l.table.coverage? u x
  queue : l'.queue = l.queue.broadcast (l.table.freed resource owner)

variable {l : Locks} {c : Call} {resource : Resource} {owner : User}

theorem answers_unlock (hcoherent : l.table.Coherent) (hc : c.Unlocks resource owner) :
    l.Answers resource owner (c.perform l).2 := by
  have hplan := hc.plan? l.table
  by_cases howned : l.table.Owned owner resource
  · obtain ⟨s, hs⟩ := Table.releasing_of_owned howned
    have hevents := Table.events_of_releasing hcoherent hs
    -- nobody else holds the resource alone, and nobody is told that it is not locked
    have halone : ∀ holder, ¬ (l.table.HeldAlone resource holder ∧ holder ≠ owner) := by
      rintro holder ⟨halone, hother⟩
      exact hother (halone.owned_iff.1 howned).symm
    by_cases hgoes : l.Unhindered (l.table.freed resource owner)
    · have hreply : (c.perform l).2 = .done :=
        hc.done_iff.2 ((Call.isSuccess_iff hplan).2 ⟨s, hs, hevents ▸ hgoes⟩)
      constructor <;> simp [hreply, howned, hgoes, halone]
    · obtain ⟨-, reason, hreply⟩ := Call.perform_of_hindered hplan hs (hevents ▸ hgoes)
      constructor <;> simp [hreply, howned, hgoes, halone]
  · rcases Table.releasing_of_not_owned hcoherent howned with
      ⟨holder, halone, hother, herror⟩ | ⟨hshared, herror⟩
    · have hreply := Call.reply_of_error hplan herror
      have hsole : ∀ other, l.table.HeldAlone resource other → holder = other :=
        fun other hother => hother.owned_iff.1 (halone.owned_iff.2 rfl)
      constructor
      · simp [hreply, howned]
      · simp [hreply, howned]
      · intro other
        simp only [hreply, Reply.failed.injEq, LockError.invalidOwner.injEq, true_and]
        constructor
        · rintro rfl
          exact ⟨halone, hother⟩
        · exact fun h => hsole other h.1
      · simpa [hreply, howned] using halone.not_shared
    · have hreply := Call.reply_of_error hplan herror
      constructor
      · simp [hreply, howned]
      · simp [hreply, howned]
      · intro holder
        simp only [hreply, Reply.failed.injEq, reduceCtorEq, false_iff, not_and]
        exact fun halone => absurd hshared halone.not_shared
      · simpa [hreply, howned] using hshared

theorem gaveBack_unlock (hcoherent : l.table.Coherent) (hc : c.Unlocks resource owner)
    (hdone : (c.perform l).2 = .done) : l.GaveBack (c.perform l).1 resource owner := by
  have hplan := hc.plan? l.table
  obtain ⟨s, hs, hgoes⟩ := (Call.isSuccess_iff hplan).1 (hc.done_iff.1 hdone)
  have hcomes := Call.comesTo_of_ok hplan hs hgoes
  rw [Table.events_of_releasing hcoherent hs] at hcomes
  obtain ⟨e, hreleased⟩ := released_of_releasing hs
  have hgrants := Table.grants_of_lookup? hreleased.found owner
  have hpos := (hcoherent resource e hreleased.found).isOwnedBy_iff.1 hreleased.owned
  constructor
  · intro x u
    rw [hcomes.table, Table.grants_released hreleased]
    split
    · next hx =>
      obtain ⟨rfl, rfl⟩ := hx
      omega
    · rfl
  · intro x e' he'
    rw [hcomes.table] at he'
    exact hreleased.before he'
  · intro u x
    have hlast : e.grants owner ≤ 1 ↔ e.grants owner = 1 := by omega
    rw [hcomes.table, hreleased.coverage?, hgrants]
    simp only [hlast]
  · exact hcomes.queue

/-- What giving a grant back comes to depends on the entry of the resource and on the editor locks
on it only. -/
theorem reply_unlock_congr {l' : Locks} (hc : c.Unlocks resource owner)
    (hagree : l.table.AgreeAt resource l'.table) (htrap : l.queue.trap? = l'.queue.trap?) :
    (c.perform l).2 = (c.perform l').2 := by
  have hsame : (Plan.release resource owner).edits l.table =
      (Plan.release resource owner).edits l'.table := hagree.releasing owner
  rw [Call.reply_perform (hc.plan? l.table), Call.reply_perform (hc.plan? l'.table),
    result_transact_congr htrap hsame, hc.answer, hc.answer]

/-- A grant is given back if and only if it is its owner's, after every run. It is one grant that
goes, and with the last one everything is announced as free, once, that the owner's editor lock on
the resource covers. Anybody else is told who holds the resource alone, or that it is not theirs.
None of this depends on the graphs that the run went by, but for the entry and the editor locks that
it left on the resource. -/
theorem unlock_run (settings : LockSettings) (steps : List Step) {resource : Resource}
    {owner : User} {c : Call} (hc : c.Unlocks resource owner) :
    let l := (fresh settings).run steps
    l.Answers resource owner (c.perform l).2 ∧
    ((c.perform l).2 = .done → l.GaveBack (c.perform l).1 resource owner) ∧
    ((l.table.freed resource owner).Nodup ∧ ∀ event, event ∈ l.table.freed resource owner ↔
      l.table.grants resource owner = 1 ∧
        ∃ x, l.table.Covers owner resource x ∧ event = .unlocked x owner) ∧
    ((c.perform l).2 ≠ .done → (c.perform l).1.table = l.table) ∧
    (¬ l.table.Owned owner resource → (c.perform l).1.queue = l.queue) ∧
    ∀ (settings' : LockSettings) (steps' : List Step),
      let l' := (fresh settings').run steps'
      l.table.AgreeAt resource l'.table → l.queue.trap? = l'.queue.trap? →
        (c.perform l).2 = (c.perform l').2 := by
  intro l
  have hcoherent := (consistent_run settings steps).coherent
  have hplan := hc.plan? l.table
  refine ⟨answers_unlock hcoherent hc, gaveBack_unlock hcoherent hc,
    ⟨Table.nodup_freed, fun event => Table.mem_freed⟩, ?_, ?_, ?_⟩
  · intro hfailed
    rcases (Call.enters_perform hplan).cases with ⟨hdone, s, hs, -⟩ | ⟨-, htable⟩
    · exact absurd (hc.done_iff.2 hdone) hfailed
    · exact htable
  · intro hstranger
    have herror : ∃ e, (Plan.release resource owner).edits l.table = .error e := by
      rcases Table.releasing_of_not_owned hcoherent hstranger with ⟨_, -, -, h⟩ | ⟨-, h⟩ <;>
        exact ⟨_, h⟩
    obtain ⟨e, he⟩ := herror
    have hqueue := (Call.comesTo_of_error hplan he).queue
    rwa [Queue.push_nil] at hqueue
  · exact fun settings' steps' hagree htrap => reply_unlock_congr hc hagree htrap

/-- Alice's editor has the cup with its table. The cup is taken out of the graph, where Bob locks
the table that is left. -/
def cupTakenAway : List Step :=
  [.call (.lock cupOnTable 0 "cup" "alice" true),
    .call (.lock (Graph.empty.insert "table" none) 1 "table" "bob" false)]

/-- The cup is still Alice's to unlock, and nobody else's. -/
theorem unlock_run_cupTakenAway :
    let l := (fresh {}).run cupTakenAway
    let unlocked := (Call.unlock "cup" "alice").perform l
    unlocked.2 = .done ∧
      unlocked.1.queue = l.queue.broadcast [.unlocked "cup" "alice", .unlocked "table" "alice"] ∧
      ((Call.unlock "cup" "bob").perform l).2 = .failed (.invalidOwner "cup" "bob" "alice") := by
  intro l unlocked
  have hfreed : l.table.freed "cup" "alice" =
      [.unlocked "cup" "alice", .unlocked "table" "alice"] := by
    decide +kernel
  have halone : l.table.HeldAlone "cup" "alice" :=
    ⟨.first "cup" .exclusive "alice" true, by decide +kernel, rfl, rfl⟩
  obtain ⟨hanswers, hgaveBack, -⟩ := unlock_run {} cupTakenAway (.unlock "cup" "alice")
  obtain ⟨hrefused, -⟩ := unlock_run {} cupTakenAway (.unlock "cup" "bob")
  have hdone : unlocked.2 = .done :=
    hanswers.done_iff.2 ⟨halone.owned_iff.2 rfl, .inl (by decide +kernel)⟩
  refine ⟨hdone, ?_, (hrefused.invalidOwner_iff "alice").2 ⟨halone, by decide⟩⟩
  rw [← hfreed]
  exact (hgaveBack hdone).queue

end Locks

/-! ## All locks of a user -/

namespace Table

variable {t : Table} {owner : User}

/-- The resources that a user has a part in are as many as the entries. -/
theorem length_ownedBy (t : Table) (owner : User) :
    (t.ownedBy owner).length = (t.rows.filter (·.isOwnedBy owner)).length := by
  rw [ownedBy, rows, Std.ExtTreeMap.length_keys, ← Std.ExtTreeMap.length_toList,
    Std.ExtTreeMap.toList_filter, values_eq_map_snd_toList, List.filter_map, List.length_map]
  rfl

theorem shownBy_eq_getD (t : Table) (owner : User) :
    t.shownBy owner = (t.shownLocks[owner]?).getD ∅ := by
  rw [shownBy, shownLocks, Std.ExtTreeMap.getElem?_map]

/-- Something is shown for everybody who is listed. -/
theorem toList_shownBy_eq_nil_iff (hlisted : t.Listed) (hcovered : t.Covered) :
    (t.shownBy owner).toList = [] ↔ t.shownLocks[owner]? = none := by
  constructor
  · intro hnil
    cases hshown : t.shown[owner]? with
    | none => simp [shownLocks, hshown]
    | some c =>
      obtain ⟨root, hroot⟩ := hlisted owner c hshown
      obtain ⟨covered, hrecord⟩ :=
        Option.isSome_iff_exists.1 (Std.ExtTreeMap.mem_iff_isSome_getElem?.1 hroot)
      have hcoverage : t.coverage? owner root = some covered := by
        rw [coverage?, hshown, Option.bind_some, hrecord]
      have hself := (hcovered owner root covered hcoverage).1
      have hmem : root ∈ (t.shownBy owner).toList :=
        Std.ExtTreeSet.mem_toList.2 (mem_shownBy.2 ⟨root, covered, hcoverage, hself⟩)
      rw [hnil] at hmem
      cases hmem
  · intro hnone
    simp [shownBy_eq_getD, hnone]

theorem result_reclaiming_of_not_owned (howned : ∀ resource, ¬ t.Owned owner resource)
    (hshown : t.shown[owner]? = none) : (t.reclaiming owner).result t = t := by
  have hnone : t.ownedBy owner = [] :=
    List.eq_nil_iff_forall_not_mem.2 fun resource hmem => howned resource (mem_ownedBy.1 hmem)
  have herase : t.shown.erase owner = t.shown := by
    refine Std.ExtTreeMap.ext_getElem? fun user => ?_
    rw [Std.ExtTreeMap.getElem?_erase]
    split
    · next heq => rw [← Std.LawfulEqOrd.compare_eq_iff_eq.1 heq, hshown]
    · rfl
  simp [reclaiming, hnone, Edit.apply, uncoverAll, herase]

end Table

/-- Who owns nothing of an entry loses nothing. -/
theorem Entry.removeAll_of_not_isOwnedBy {e : Entry} {owner : User} (h : ¬ e.isOwnedBy owner) :
    e.removeAll owner = e := by
  have howners : e.owners.erase owner = e.owners := by
    refine Std.ExtTreeMap.ext_getElem? fun user => ?_
    rw [Std.ExtTreeMap.getElem?_erase]
    split
    · next heq =>
      rw [← Std.LawfulEqOrd.compare_eq_iff_eq.1 heq]
      rw [Entry.isOwnedBy_iff, ← Option.isSome_iff_exists, Option.not_isSome_iff_eq_none] at h
      exact h.symm
    · rfl
  rw [removeAll, howners]

/-- A reclamation takes its owner out of every entry, and drops the entries left without an
owner. -/
theorem Reclaimed.lookup?_eq {t : Table} {owner : User} {s : Section} (hs : Reclaimed t owner s)
    (hcoherent : t.Coherent) (resource : Resource) :
    (s.result t).lookup? resource =
      (t.lookup? resource).bind fun e => (e.removeAll owner).keepOwned := by
  rw [hs.lookup?]
  cases he : t.lookup? resource with
  | none => rfl
  | some e =>
    simp only [Option.bind_some]
    split
    · rfl
    · next hother =>
      have howned := (hcoherent resource e he).owned
      rw [Entry.removeAll_of_not_isOwnedBy hother, Entry.keepOwned_eq_some_iff.2 ⟨rfl, howned⟩]

namespace Locks

/-- A user has lost all locks, and nobody else any. -/
structure Cleared (l l' : Locks) (owner : User) : Prop where
  unowned : ∀ resource, ¬ l'.table.Owned owner resource
  survives : ∀ resource e, l.table.lookup? resource = some e →
    ((l'.table.lookup? resource).isSome ↔ ∃ other, other ≠ owner ∧ e.isOwnedBy other)
  /-- What survives loses the user and nothing else. -/
  loses : ∀ resource e', l'.table.lookup? resource = some e' →
    ∃ e, l.table.lookup? resource = some e ∧ e' = e.removeAll owner
  unlisted : l'.table.shownLocks[owner]? = none
  others : ∀ other, other ≠ owner → l.table.SameFor l'.table other ∧
    l'.table.shownLocks[other]? = l.table.shownLocks[other]?
  /-- The editors are told of what was shown for the user, in order and of each resource once. -/
  told : ∃ resources : List Resource,
    l'.queue = l.queue.broadcast (resources.map (.unlocked · owner)) ∧
    resources.Pairwise (· < ·) ∧
    ∀ resource, resource ∈ resources ↔
      ∃ shown, l.table.shownLocks[owner]? = some shown ∧ resource ∈ shown
  /-- There is nothing left to lose. -/
  again : (l'.releaseAll owner).2 = .ok 0 ∧ (l'.releaseAll owner).1.table = l'.table ∧
    (l'.releaseAll owner).1.queue = l'.queue

variable {l l' : Locks} {owner : User}

/-- A reclamation goes through unless a fault is in the making and something is shown. -/
theorem unhindered_reclaiming_iff (hlisted : l.table.Listed) (hcovered : l.table.Covered) :
    l.Unhindered (l.table.reclaiming owner).events ↔
      l.queue.trap? = none ∨ l.table.shownLocks[owner]? = none := by
  rw [Unhindered, (reclaimed_reclaiming l.table owner).events, List.map_eq_nil_iff,
    Table.toList_shownBy_eq_nil_iff hlisted hcovered]

/-- What a reclamation that goes through comes to. -/
theorem releaseAll_of_unhindered (h : l.Unhindered (l.table.reclaiming owner).events) :
    (l.releaseAll owner).2 = .ok (l.table.ownedBy owner).length ∧
      (l.releaseAll owner).1.table = (l.table.reclaiming owner).result l.table ∧
      (l.releaseAll owner).1.queue =
        l.queue.broadcast ((l.table.shownBy owner).toList.map (.unlocked · owner)) := by
  have htransact := transact_of_ok ((Plan.reclaim owner).edits ·) rfl h
  obtain ⟨htable, hqueue⟩ := (enters_releaseAll l owner).1
  rw [htransact] at htable hqueue
  refine ⟨?_, ?_, ?_⟩
  · rw [result_releaseAll]
    exact congrArg (fun x => x.2.map fun () => (l.table.ownedBy owner).length) htransact
  · simpa [perform] using htable
  · simpa [perform, (reclaimed_reclaiming l.table owner).events] using hqueue

theorem cleared_releaseAll (hcoherent : l.table.Coherent)
    (h : l.Unhindered (l.table.reclaiming owner).events) :
    l.Cleared (l.releaseAll owner).1 owner := by
  obtain ⟨-, htable, hqueue⟩ := releaseAll_of_unhindered h
  have hreclaimed := reclaimed_reclaiming l.table owner
  have hlookup := hreclaimed.lookup?_eq hcoherent
  rw [← htable] at hlookup
  have hshown : ∀ user : User, (l.releaseAll owner).1.table.shownLocks[user]? =
      if owner = user then none else l.table.shownLocks[user]? := by
    intro user
    simp only [htable, Table.shownLocks, Table.shown_reclaiming, Std.ExtTreeMap.getElem?_map,
      Std.ExtTreeMap.getElem?_erase, Std.LawfulEqOrd.compare_eq_iff_eq]
    split <;> rfl
  have hunowned : ∀ resource, ¬ (l.releaseAll owner).1.table.Owned owner resource :=
    htable ▸ Table.not_owned_reclaimed hreclaimed
  refine ⟨hunowned, ?_, ?_, by simp [hshown], ?_, ?_, ?_⟩
  · intro resource e he
    rw [hlookup, he, Option.bind_some, Option.isSome_iff_exists]
    simp only [Entry.keepOwned_eq_some_iff, Entry.isOwnedBy_removeAll, exists_eq_left', ne_comm]
  · intro resource e' he'
    rw [hlookup] at he'
    obtain ⟨e, he, hkept⟩ := Option.bind_eq_some_iff.1 he'
    exact ⟨e, he, (Entry.keepOwned_eq_some_iff.1 hkept).1.symm⟩
  · intro other hother
    refine ⟨?_, by rw [hshown, if_neg hother.symm]⟩
    exact htable ▸ Table.sameFor_reclaimed hreclaimed hother
  · refine ⟨(l.table.shownBy owner).toList, hqueue, ?_, ?_⟩
    · have hordered := (l.table.shownBy owner).ordered_toList
      exact hordered.imp fun hlt => compareOfLessAndEq_eq_lt.1 hlt
    · intro resource
      rw [Std.ExtTreeSet.mem_toList, Table.mem_shownBy, Table.mem_shownLocks]
  · -- the second call: nothing is owned or covered any more, so the plan is empty and goes through
    have hnone : (l.releaseAll owner).1.table.shown[owner]? = none := by
      simp [htable, Table.shown_reclaiming]
    have hnothing : ((l.releaseAll owner).1.table.shownBy owner).toList = [] := by
      simp [Table.shownBy, hnone]
    have hgoes : (l.releaseAll owner).1.Unhindered
        ((l.releaseAll owner).1.table.reclaiming owner).events := by
      right
      rw [(reclaimed_reclaiming _ owner).events, hnothing, List.map_nil]
    obtain ⟨hcount, htable', hqueue'⟩ := releaseAll_of_unhindered hgoes
    have howned : (l.releaseAll owner).1.table.ownedBy owner = [] :=
      List.eq_nil_iff_forall_not_mem.2 fun resource hmem =>
        hunowned resource (Table.mem_ownedBy.1 hmem)
    rw [howned] at hcount
    rw [Table.result_reclaiming_of_not_owned hunowned hnone] at htable'
    rw [hnothing] at hqueue'
    exact ⟨hcount, htable', by simpa [Queue.broadcast] using hqueue'⟩

/-- A user whose locks are all taken back loses every grant, and nobody else anything, whatever
graphs the locks were taken in. The count is that of the entries that the user had a part in. Only
a fault can come in between, if there is anything to announce; then all stays as it was. -/
theorem clear_run (settings : LockSettings) (steps : List Step) (owner : User) :
    let l := (fresh settings).run steps
    let count := (l.table.rows.filter (·.isOwnedBy owner)).length
    ((l.releaseAll owner).2 = .ok count ↔
      l.queue.trap? = none ∨ l.table.shownLocks[owner]? = none) ∧
    (∀ n, (l.releaseAll owner).2 = .ok n → n = count ∧ l.Cleared (l.releaseAll owner).1 owner) ∧
    ∀ e, (l.releaseAll owner).2 = .error e → (l.releaseAll owner).1.table = l.table := by
  intro l count
  have hconsistent : l.table.Consistent := consistent_run settings steps
  have hlisted : l.table.Listed := listed_run settings steps
  have hcount : (l.table.ownedBy owner).length = count := l.table.length_ownedBy owner
  have hgoes : ∀ n, (l.releaseAll owner).2 = .ok n →
      l.Unhindered (l.table.reclaiming owner).events := by
    intro n hn
    have hok := (enters_releaseAll l owner).2
    rw [hn] at hok
    obtain ⟨s, hs, hs'⟩ := isOk_transact_iff.1 hok.symm
    cases hs
    exact hs'
  rw [← unhindered_reclaiming_iff hlisted hconsistent.covered]
  refine ⟨⟨hgoes count, fun h => hcount ▸ (releaseAll_of_unhindered h).1⟩, ?_, ?_⟩
  · intro n hn
    obtain ⟨hresult, -⟩ := releaseAll_of_unhindered (hgoes n hn)
    rw [hn, hcount] at hresult
    exact ⟨Except.ok.inj hresult, cleared_releaseAll hconsistent.coherent (hgoes n hn)⟩
  · intro e he
    rcases (enters_releaseAll l owner).cases with ⟨hok, -⟩ | ⟨-, htable⟩
    · rw [he] at hok
      cases hok
    · exact htable

/-- Alice locks the trees around both action points, each of which covers the project, and shares
the scene with Bob twice. -/
def muchOfAlices : List Step :=
  let share (owner : User) : Call :=
    .acquireOnce actionPoints 0 false { resource := Resource.scene, owner, mode := .shared }
  [.call (.lock actionPoints 0 "ap_1" "alice" true),
    .call (.lock actionPoints 0 "ap_2" "alice" true),
    .call (share "alice"), .call (share "bob"), .call (share "alice")]

theorem clear_run_muchOfAlices :
    let l := (fresh {}).run muchOfAlices
    (l.releaseAll "alice").2 = .ok 3 ∧ l.Cleared (l.releaseAll "alice").1 "alice" ∧
      (l.table.shownLocks["alice"]?).map (·.toList) = some [Resource.project, "ap_1", "ap_2"] ∧
      (l.releaseAll "alice").1.table.lookup? Resource.scene =
        some (.first Resource.scene .shared "bob" false) := by
  intro l
  obtain ⟨-, hcleared, -⟩ := clear_run {} muchOfAlices "alice"
  have hcount : (l.releaseAll "alice").2 = .ok 3 := by decide +kernel
  exact ⟨hcount, (hcleared 3 hcount).2, by decide +kernel, by decide +kernel⟩

end Locks

end SceneLocks
