import Mathlib.Data.List.Nodup
import SceneLocks.Session.Broadcaster

/-!
# What arrives in the mailboxes

A notification that is handed out reaches the live connections of its audience whose receiving
end is still there, each once. As long as no mailbox breaks its sender off, a step of the
broadcaster takes the oldest notification off the queue and hands it out.
-/

namespace SceneLocks

/-- Whether the audience includes a connection. -/
def Audience.includes (c : ConnectionId) : Audience → Bool
  | .all => true
  | .only c' => c' == c

/-- What a connection gets of some notifications, if it is there for all of them. -/
def heardBy (c : ConnectionId) (ns : List Notification) : List Event :=
  ns.filterMap fun n => if n.audience.includes c then some n.event else none

theorem heardBy_append (c : ConnectionId) (ns ms : List Notification) :
    heardBy c (ns ++ ms) = heardBy c ns ++ heardBy c ms :=
  List.filterMap_append

theorem heardBy_broadcast (c : ConnectionId) (events : List Event) :
    heardBy c (events.map (⟨.all, ·⟩)) = events := by
  simp [heardBy, List.filterMap_map, Audience.includes]

theorem heardBy_only (c c' : ConnectionId) (events : List Event) :
    heardBy c (events.map (⟨.only c', ·⟩)) = if c' = c then events else [] := by
  by_cases h : c' = c
  · simp [heardBy, List.filterMap_map, Audience.includes, h]
  · simp [heardBy, List.filterMap_map, Audience.includes, h]

namespace Mailboxes

variable {m : Mailboxes} {s : Sessions} {n : Notification} {c : ConnectionId}

/-- What arrived at a connection and was not taken out yet. -/
def unread (m : Mailboxes) (c : ConnectionId) : List Event := (m[c]?.map (·.unread)).getD []

/-- No arrival breaks its sender off. -/
def Untrapped (m : Mailboxes) : Prop :=
  ∀ (c : ConnectionId) box, m[c]? = some box → box.trapped = false

/-- Nothing arrived at a connection of this number or a later one. -/
def SilentFrom (m : Mailboxes) (serial : Nat) : Prop :=
  ∀ c : ConnectionId, serial ≤ c.serial → m.unread c = []

/-! ## Receivers -/

theorem mem_receivers :
    c ∈ m.receivers s n ↔ n.audience.includes c ∧ c ∈ s.connections ∧ m.accepts c := by
  unfold receivers Sessions.listeners
  rw [List.mem_filter, ← and_assoc]
  refine and_congr_left fun _ => ?_
  cases n.audience with
  | all => simp [Audience.includes]
  | only c' =>
    simp only [Audience.includes, beq_iff_eq, Std.ExtTreeMap.contains_iff_mem]
    by_cases hlive : c' ∈ s.connections
    · rw [if_pos hlive, List.mem_singleton]
      constructor
      · rintro rfl
        exact ⟨rfl, hlive⟩
      · exact fun h => h.1.symm
    · rw [if_neg hlive]
      refine iff_of_false List.not_mem_nil ?_
      rintro ⟨rfl, h⟩
      exact hlive h

theorem nodup_receivers (m : Mailboxes) (s : Sessions) (n : Notification) :
    (m.receivers s n).Nodup := by
  unfold receivers Sessions.listeners
  apply List.Nodup.filter
  cases n.audience with
  | all => exact Std.ExtTreeMap.nodup_keys
  | only c =>
    dsimp only
    split <;> simp

/-! ## Arrivals -/

theorem getElem?_foldl_put {cs : List ConnectionId} (hnodup : cs.Nodup) (event : Event)
    (m : Mailboxes) (c : ConnectionId) :
    (cs.foldl (·.put · event) m)[c]? =
      if c ∈ cs then m[c]?.map fun box => { box with unread := box.unread ++ [event] }
      else m[c]? := by
  induction cs generalizing m with
  | nil => rfl
  | cons c' cs ih =>
    obtain ⟨hc', hnodup⟩ := List.nodup_cons.1 hnodup
    rw [List.foldl_cons, ih hnodup, put, Std.ExtTreeMap.getElem?_modify]
    by_cases h : c' = c
    · subst h
      simp [hc']
    · simp [h, Ne.symm h]

theorem getElem?_deliver (m : Mailboxes) (s : Sessions) (n : Notification) (c : ConnectionId) :
    (m.deliver s n)[c]? =
      if c ∈ m.receivers s n then
        m[c]?.map fun box => { box with unread := box.unread ++ [n.event] }
      else m[c]? :=
  getElem?_foldl_put (nodup_receivers m s n) n.event m c

theorem accepts_deliver (m : Mailboxes) (s : Sessions) (n : Notification) (c : ConnectionId) :
    (m.deliver s n).accepts c = m.accepts c := by
  unfold accepts
  rw [getElem?_deliver]
  split
  · cases m[c]? <;> rfl
  · rfl

/-- A connection that listens gets what it is in the audience of. -/
theorem unread_deliver_of_listens (hlive : c ∈ s.connections) (hopen : m.accepts c) :
    (m.deliver s n).unread c = m.unread c ++ heardBy c [n] := by
  have hbox : ∃ box, m[c]? = some box := by
    unfold accepts at hopen
    cases hbox : m[c]? with
    | none => simp [hbox] at hopen
    | some box => exact ⟨box, rfl⟩
  obtain ⟨box, hbox⟩ := hbox
  unfold unread heardBy
  rw [getElem?_deliver]
  by_cases h : n.audience.includes c
  · simp [if_pos (mem_receivers.2 ⟨h, hlive, hopen⟩), hbox, h]
  · simp [if_neg fun hmem => h (mem_receivers.1 hmem).1, h]

/-- Nothing arrives at a connection that is not live. -/
theorem unread_deliver_of_not_mem (h : c ∉ s.connections) :
    (m.deliver s n).unread c = m.unread c := by
  unfold unread
  rw [getElem?_deliver, if_neg fun hmem => h (mem_receivers.1 hmem).2.1]

theorem Untrapped.deliver (h : m.Untrapped) (s : Sessions) (n : Notification) :
    (m.deliver s n).Untrapped := by
  intro c box hbox
  rw [getElem?_deliver] at hbox
  split at hbox
  · obtain ⟨before, hbefore, rfl⟩ := Option.map_eq_some_iff.1 hbox
    exact h c before hbefore
  · exact h c box hbox

theorem Untrapped.springs (h : m.Untrapped) (s : Sessions) (n : Notification) :
    m.springs s n = false := by
  unfold Mailboxes.springs
  rw [List.any_eq_false]
  intro c _
  cases hbox : m[c]? with
  | none => simp
  | some box => simp [h c box hbox]

theorem Untrapped.insert (h : m.Untrapped) (c : ConnectionId) {box : Mailbox}
    (hbox : box.trapped = false) : Untrapped (Std.ExtTreeMap.insert m c box) := by
  intro c' box' hbox'
  rw [Std.ExtTreeMap.getElem?_insert] at hbox'
  split at hbox'
  · exact Option.some.inj hbox' ▸ hbox
  · exact h c' box' hbox'

theorem unread_insert (m : Mailboxes) (c c' : ConnectionId) (box : Mailbox) :
    Mailboxes.unread (Std.ExtTreeMap.insert m c box) c' =
      if c = c' then box.unread else m.unread c' := by
  unfold Mailboxes.unread
  rw [Std.ExtTreeMap.getElem?_insert]
  simp only [Std.compare_eq_iff_eq]
  split <;> rfl

theorem accepts_insert (m : Mailboxes) (c c' : ConnectionId) (box : Mailbox) :
    Mailboxes.accepts (Std.ExtTreeMap.insert m c box) c' =
      if c = c' then box.isOpen else m.accepts c' := by
  unfold Mailboxes.accepts
  rw [Std.ExtTreeMap.getElem?_insert]
  simp only [Std.compare_eq_iff_eq]
  split <;> rfl

theorem SilentFrom.insert {serial : Nat} (h : m.SilentFrom serial) (c : ConnectionId)
    {box : Mailbox} (hbox : box.unread = []) :
    SilentFrom (Std.ExtTreeMap.insert m c box) serial := by
  intro c' hc'
  rw [unread_insert]
  split
  · exact hbox
  · exact h c' hc'

end Mailboxes

/-! ## The broadcaster at work -/

namespace Delivery

variable {d : Delivery}

/-- With nothing in the queue there is nothing to do. -/
theorem step_of_pending_eq_nil (hrunning : d.broadcaster.phase = .running)
    (hpending : d.queue.pending = []) (s : Sessions) : d.step s false = d := by
  unfold step
  simp [hrunning, hpending]

/-- The oldest notification is taken off the queue and handed out. -/
theorem step_of_pending_eq_cons (hrunning : d.broadcaster.phase = .running) {n : Notification}
    {rest : List Notification} (hpending : d.queue.pending = n :: rest)
    (huntrapped : d.mailboxes.Untrapped) (s : Sessions) :
    d.step s false =
      { broadcaster := { d.broadcaster with processed := d.broadcaster.processed + 1 }
        queue := { d.queue with pending := rest }
        mailboxes := d.mailboxes.deliver s n } := by
  unfold step dispatch
  simp [hrunning, hpending, huntrapped.springs s n]

end Delivery

end SceneLocks
