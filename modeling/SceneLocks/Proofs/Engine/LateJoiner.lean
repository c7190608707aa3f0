import SceneLocks.Proofs.Engine.Delivery
import SceneLocks.Proofs.Locks.EditorView

/-!
# Late joiners

A connection hears what is handed out from the moment it is made, so an editor that logs in has
an arbitrary stretch of the earlier broadcasts before the replay. These never show a lock that is
gone by then, and the replay tells all that is left, so together they are the picture of the
other users as it was at the replay (`replay_run`).
-/

namespace SceneLocks

/-! ## What a replay says -/

namespace Table

variable {t : Table} {user : User}

/-- What a user who comes is told: the editor locks of the others and the own exclusive locks. -/
def Introduces (t : Table) (user : User) (event : Event) : Prop :=
  event.kind = .locked ∧
    (event.user ≠ user ∧ (∃ resources, t.shownLocks[event.user]? = some resources ∧
        event.resource ∈ resources) ∨
      event.user = user ∧ ∃ e, t.lookup? event.resource = some e ∧ e.mode = .exclusive ∧
        e.isOwnedBy user)

theorem mem_replayEvents (hcoherent : t.Coherent) {event : Event} :
    event ∈ Locks.replayEvents t user ↔ t.Introduces user event := by
  obtain ⟨kind, resource, other⟩ := event
  unfold Locks.replayEvents Introduces
  simp only [List.mem_append, List.mem_flatMap, List.mem_map, List.mem_filter, decide_eq_true_eq,
    Prod.exists, Std.ExtTreeMap.mem_toList_iff_getElem?_eq_some, Event.locked, Event.mk.injEq,
    Std.ExtTreeSet.mem_toList]
  constructor
  · rintro (⟨owner, resources, ⟨hshown, howner⟩, r, hr, rfl, rfl, rfl⟩ |
      ⟨e, ⟨he, hexclusive, howned⟩, rfl, rfl, rfl⟩)
    · exact ⟨rfl, .inl ⟨howner, resources, hshown, hr⟩⟩
    · obtain ⟨r, hfound⟩ := mem_values.1 he
      obtain rfl := (hcoherent r e hfound).stored
      exact ⟨rfl, .inr ⟨rfl, e, hfound, hexclusive, howned⟩⟩
  · rintro ⟨rfl, ⟨hother, resources, hshown, hr⟩ | ⟨rfl, e, hfound, hexclusive, howned⟩⟩
    · exact .inl ⟨other, resources, ⟨hshown, hother⟩, resource, hr, rfl, rfl, rfl⟩
    · exact .inr ⟨e, ⟨mem_values.2 ⟨resource, hfound⟩, hexclusive, howned⟩, rfl,
        (hcoherent resource e hfound).stored, rfl⟩

/-- The entries are listed by their resources, each once. -/
theorem nodup_rows (hcoherent : t.Coherent) : (t.rows.map (·.resource)).Nodup := by
  have hkeys : t.rows.map (·.resource) = t.entries.keys := by
    rw [rows, values_eq_map_snd_toList, List.map_map, ← Std.ExtTreeMap.map_fst_toList_eq_keys]
    refine List.map_congr_left fun entry hentry => ?_
    obtain ⟨resource, e⟩ := entry
    exact (hcoherent resource e (Std.ExtTreeMap.mem_toList_iff_getElem?_eq_some.1 hentry)).stored
  rw [hkeys]
  exact Std.ExtTreeMap.nodup_keys

/-- A replay tells nothing twice. -/
theorem nodup_replayEvents (hcoherent : t.Coherent) (user : User) :
    (Locks.replayEvents t user).Nodup := by
  unfold Locks.replayEvents
  refine List.nodup_append.2 ⟨List.nodup_flatMap.2 ⟨?_, ?_⟩, ?_, ?_⟩
  · rintro ⟨other, resources⟩ -
    exact (nodup_toList resources).map fun a b h => congrArg Event.resource h
  · -- two users are two
    refine (Std.ExtTreeMap.distinct_keys_toList.filter _).imp ?_
    rintro ⟨other, resources⟩ ⟨other', resources'⟩ hne event hevent hevent'
    obtain ⟨r, -, rfl⟩ := List.mem_map.1 hevent
    obtain ⟨r', -, heq⟩ := List.mem_map.1 hevent'
    exact hne (Std.compare_eq_iff_eq.2 (congrArg Event.user heq).symm)
  · refine List.Nodup.of_map (·.resource) ?_
    rw [List.map_map]
    exact (nodup_rows hcoherent).sublist (List.filter_sublist.map _)
  · -- the user is none of the others
    intro event hevent event' hevent'
    obtain ⟨⟨other, resources⟩, hother, hevent⟩ := List.mem_flatMap.1 hevent
    obtain ⟨r, -, rfl⟩ := List.mem_map.1 hevent
    obtain ⟨e, -, rfl⟩ := List.mem_map.1 hevent'
    intro heq
    have hne : other ≠ user := by simpa using (List.mem_filter.1 hother).2
    exact hne (congrArg Event.user heq)

end Table

/-! ## Stretches of the broadcasts -/

theorem foldl_tell_subset {view view' : Finset (User × Resource)} (h : view ⊆ view')
    (events : List Event) : events.foldl Event.tell view ⊆ events.foldl Event.tell view' := by
  induction events generalizing view view' with
  | nil => exact h
  | cons event events ih =>
    apply ih
    unfold Event.tell
    split
    · exact Finset.insert_subset_insert _ h
    · exact Finset.erase_subset_erase _ h

/-- Who missed the beginning shows no more than who heard it all. -/
theorem foldl_tell_subset_append (missed events : List Event) :
    events.foldl Event.tell ∅ ⊆ (missed ++ events).foldl Event.tell ∅ := by
  rw [List.foldl_append]
  exact foldl_tell_subset (Finset.empty_subset _) events

/-- After events that tell of locks only, what they tell of is shown beside what was. -/
theorem mem_foldl_tell_of_locked {events : List Event} (h : ∀ event ∈ events, event.kind = .locked)
    {view : Finset (User × Resource)} {user : User} {resource : Resource} :
    (user, resource) ∈ events.foldl Event.tell view ↔
      (user, resource) ∈ view ∨ .locked resource user ∈ events := by
  induction events generalizing view with
  | nil => simp
  | cons event events ih =>
    obtain ⟨kind, r, owner⟩ := event
    obtain rfl : kind = .locked := h _ List.mem_cons_self
    rw [List.foldl_cons, ih fun event hevent => h event (List.mem_cons_of_mem _ hevent)]
    simp only [Event.tell, Event.locked, Finset.mem_insert, Prod.mk.injEq, List.mem_cons,
      Event.mk.injEq, true_and]
    tauto

/-- Of the other users a replay shows just the editor locks. -/
theorem mem_foldl_tell_replayEvents {t : Table} (hcoherent : t.Coherent) {user other : User}
    (hother : other ≠ user) {view : Finset (User × Resource)} {resource : Resource} :
    (other, resource) ∈ (Locks.replayEvents t user).foldl Event.tell view ↔
      (other, resource) ∈ view ∨ t.Shows other resource := by
  rw [mem_foldl_tell_of_locked fun event hevent => ((Table.mem_replayEvents hcoherent).1 hevent).1,
    Table.mem_replayEvents hcoherent, ← Table.mem_shownLocks]
  simp [Table.Introduces, Event.locked, hother]

namespace Traffic

variable {s s' : Traffic} {turn : Turn} {c : ConnectionId} {user : User}

/-! ## One login per connection -/

/-- A connection is logged in on once at most, and told what is locked in the name of the user
who logged in. -/
structure Named (s : Traffic) : Prop where
  guest : ∀ c : ConnectionId, s.engine.sessions.connections[c]? = some none →
    ∀ n event, s.Issued n event → event.connection ≠ some c
  serial : ∀ n event c, s.Issued n event → event.connection = some c →
    c.serial < s.engine.connected
  single : ∀ n event n' event' c, s.Issued n event → s.Issued n' event' →
    event.connection = some c → event'.connection = some c → event.user = event'.user
  replay : ∀ c user, .replay c user ∈ s.errands →
    ∃ n event, s.Issued n event ∧ event.connection = some c ∧ event.user = user

theorem named_start (settings : Settings) (graph : Graph) : (start settings graph).Named where
  guest := by simp [start, Issued]
  serial := by simp [start, Issued]
  single := by simp [start, Issued]
  replay := by simp [start]

theorem Named.issue (h : s.Named) (sessions : Sessions) (event : SessionEvent)
    (hnew : ∀ c, event.connection = some c → s.engine.sessions.connections[c]? = some none ∧
      c.serial < s.engine.connected)
    (hguest : ∀ c : ConnectionId, sessions.connections[c]? = some none →
      s.engine.sessions.connections[c]? = some none ∧ event.connection ≠ some c) :
    (s.issue sessions event).Named where
  guest c hc n e he := by
    obtain ⟨hbefore, hother⟩ := hguest c hc
    rcases (s.issued_issue sessions event n e).1 he with ⟨-, rfl⟩ | he
    · exact hother
    · exact h.guest c hbefore n e he
  serial n e c he hconnection := by
    rcases (s.issued_issue sessions event n e).1 he with ⟨-, rfl⟩ | he
    · exact (hnew c hconnection).2
    · exact h.serial n e c he hconnection
  single n e n' e' c he he' hc hc' := by
    -- nobody was logged in before on the connection that the new event is about
    rcases (s.issued_issue sessions event n e).1 he with ⟨-, hsame⟩ | hold
    · rcases (s.issued_issue sessions event n' e').1 he' with ⟨-, hsame'⟩ | hold'
      · rw [hsame, hsame']
      · exact absurd hc' (h.guest c (hnew c (hsame ▸ hc)).1 n' e' hold')
    · rcases (s.issued_issue sessions event n' e').1 he' with ⟨-, hsame'⟩ | hold'
      · exact absurd hc (h.guest c (hnew c (hsame' ▸ hc')).1 n e hold)
      · exact h.single n e n' e' c hold hold' hc hc'
  replay c user hmem := by
    obtain ⟨n, e, he, hc, huser⟩ := h.replay c user (by simpa [Traffic.issue] using hmem)
    exact ⟨n, e, (s.issued_issue sessions event n e).2 (.inr he), hc, huser⟩

theorem Takes.named (htakes : s.Takes turn s') (hsound : s.Sound) (h : s.Named) : s'.Named := by
  rcases htakes.issued with ⟨c, user, sessions, event, hlogin, rfl⟩ |
    ⟨c, sessions, event, hlogout, rfl⟩ | hstays
  · have hlive : c ∈ s.engine.sessions.connections := by
      rw [Std.ExtTreeMap.mem_iff_isSome_getElem?, hlogin.free]
      rfl
    -- a login names the connection it is on, which was free and counted
    apply h.issue
    · intro c' hc'
      obtain rfl := Option.some.inj (hlogin.names.2.symm.trans hc')
      exact ⟨hlogin.free, hsound.serial c hlive⟩
    · intro c' hc'
      rw [hlogin.connections] at hc'
      split at hc'
      · cases hc'
      · next hne => exact ⟨hc', fun heq => hne (Option.some.inj (hlogin.names.2.symm.trans heq))⟩
  · obtain ⟨-, hnone⟩ := hlogout.kind event rfl
    -- a disconnect names no connection
    apply h.issue
    · intro c' hc'
      exact absurd (hnone.symm.trans hc') nofun
    · intro c' hc'
      rw [hlogout.connections] at hc'
      split at hc'
      · cases hc'
      · exact ⟨hc', fun heq => absurd (hnone.symm.trans heq) nofun⟩
  · -- every other turn issues no event; a connection that is new has no name yet
    refine ⟨fun c hc n e he heq => ?_, fun n e c he hc => ?_, ?_, fun c user hmem => ?_⟩
    · rw [hstays.issued] at he
      rcases hstays.guest c hc with hold | hnew
      · exact h.guest c hold n e he heq
      · exact Nat.not_lt.2 hnew (h.serial n e c he heq)
    · rw [hstays.issued] at he
      exact Nat.lt_of_lt_of_le (h.serial n e c he hc) hstays.connected
    · simpa only [hstays.issued] using h.single
    · simp only [hstays.issued]
      rcases hstays.replay c user hmem with hold | hheard
      · exact h.replay c user hold
      · exact hheard

/-! ## What a connection comes to show -/

/-- What arrived at a connection and what is on its way there. -/
def told (s : Traffic) (c : ConnectionId) : List Event := s.unread c ++ heardBy c s.pending

/-- As long as the connection is told in the name of one user only, all that it will show of the
others once the queue is empty is on their list. This holds of a connection that is made now,
too. -/
def Honest (c : ConnectionId) (user : User) (s : Traffic) : Prop :=
  s.Listens c ∨ s.engine.connected ≤ c.serial →
  (∀ n event, s.Issued n event → event.connection = some c → event.user = user) →
  ∀ other resource, other ≠ user → (other, resource) ∈ (s.told c).foldl Event.tell ∅ →
    s.engine.locks.table.Shows other resource

theorem honest_start (settings : Settings) (graph : Graph) (c : ConnectionId) (user : User) :
    (start settings graph).Honest c user := by
  intro _ _ other resource _ hmem
  simp [told, unread, pending, heardBy, start, Engine.assemble, Mailboxes.unread] at hmem

/-- A turn lets a connection show no more than before, but for what it adds to the queue. -/
theorem told_takes (hsound : s.Sound) {taken added : List Notification}
    (hmoves : s.Moves turn s') (hflows : s.Flows s' taken added)
    (hthere : s'.Listens c ∨ s'.engine.connected ≤ c.serial) :
    (s.Listens c ∨ s.engine.connected ≤ c.serial) ∧
      (s'.told c).foldl Event.tell ∅ ⊆ (s.told c ++ heardBy c added).foldl Event.tell ∅ := by
  by_cases hserial : c.serial < s.engine.connected
  · have hlistens : s'.Listens c :=
      hthere.resolve_right fun h => Nat.not_lt.2 (Nat.le_trans hflows.connected h) hserial
    obtain ⟨hbefore, hunread⟩ := hflows.unread c hserial hlistens
    have htold : s'.told c = s.told c ++ heardBy c added := by
      rw [told, told, hunread, List.append_assoc, List.append_assoc, ← heardBy_append,
        ← heardBy_append, hflows.pending]
    exact ⟨.inl hbefore, htold ▸ Finset.Subset.refl _⟩
  · have hnew := Nat.le_of_not_lt hserial
    -- the connection is made now, or later: it misses what is taken off the queue
    have htold : s.told c ++ heardBy c added = heardBy c taken ++ s'.told c := by
      rw [told, told, show s.unread c = [] from hsound.silent c hnew,
        show s'.unread c = [] from hmoves.silent c hnew, List.nil_append, List.nil_append,
        ← heardBy_append, ← heardBy_append, hflows.pending]
    exact ⟨.inr hnew, htold ▸ foldl_tell_subset_append _ _⟩

theorem Takes.honest (htakes : s.Takes turn s') (hsound : s.Sound) (hnamed : s.Named)
    (hbyHand : ∀ other, turn = .call (.replay c other) → other = user) (h : s.Honest c user) :
    s'.Honest c user := by
  intro hthere hnames other resource hother hmem
  have hmoves := htakes.moves hsound
  obtain ⟨taken, added, hflows, hsends⟩ := hmoves.flows
  obtain ⟨hbefore, hsubset⟩ := told_takes hsound hmoves hflows hthere
  have hshows := h hbefore (fun n event he => hnames n event (htakes.issued_mono he)) other
    resource hother
  have hmem := hsubset hmem
  rw [List.foldl_append] at hmem
  cases hsends with
  | nothing htable =>
    rw [htable]
    exact hshows (by simpa [heardBy] using hmem)
  | performs hp hs htable =>
    rw [htable]
    rw [heardBy_broadcast] at hmem
    exact shows_of_mem_foldl_tell hp hsound.consistent.covered hs hshows hmem
  | @replays c' user' hreplays htable =>
    rw [htable]
    rw [heardBy_only] at hmem
    split at hmem
    · next hsame =>
      subst hsame
      have huser : user' = user := by
        rcases hreplays with herrand | hcall
        · obtain ⟨n, event, he, hc, rfl⟩ := hnamed.replay c' user' herrand
          exact hnames n event (htakes.issued_mono he) hc
        · exact hbyHand user' hcall
      subst huser
      rw [mem_foldl_tell_replayEvents hsound.consistent.coherent hother] at hmem
      exact hmem.elim hshows id
    · exact hshows hmem

/-! ## The replay of a login -/

/-- The replay only adds to the queue. -/
structure Replayed (s : Traffic) (c : ConnectionId) (user : User) (s' : Traffic) : Prop where
  pending : s'.pending =
    s.pending ++ (Locks.replayEvents s.engine.locks.table user).map (⟨.only c, ·⟩)
  sent : (s.engine.replay c user).2 =
    some (Locks.replayEvents s.engine.locks.table user).length
  table : s'.engine.locks.table = s.engine.locks.table
  connected : s'.engine.connected = s.engine.connected
  unread : s'.unread = s.unread
  listens : s'.Listens = s.Listens

theorem Sound.replayed (h : s.Sound) (now : Nat) (hmem : .replay c user ∈ s.errands) :
    s.Replayed c user (s.take (.proceed now (.replay c user))) := by
  have hsent : s.engine.locks.Sent (s.engine.locks.replay c user).1 (fun _ _ => True) _ :=
    Locks.sent_replay h.quiet trivial
  rw [take, if_pos hmem]
  refine ⟨hsent.pending h.quiet, ?_, Locks.table_replay _ _ _, rfl, rfl, rfl⟩
  simp [Engine.replay, Locks.replay, h.quiet.trap?]

/-- Whatever else goes on, a connection comes to show the others as they were at its replay. -/
theorem Sound.shows_of_replay (h : s.Sound) (hnamed : s.Named) (hhonest : s.Honest c user)
    (hmem : .replay c user ∈ s.errands) (now : Nat) (later : List Turn) {other : User}
    (hother : other ≠ user) (resource : Resource) :
    let s' := s.take (.proceed now (.replay c user))
    let f := s'.run later
    f.Listens c → f.processed = s'.processed + s'.pending.length →
      ((other, resource) ∈ (f.unread c).foldl Event.tell ∅ ↔
        s'.engine.locks.table.Shows other resource) := by
  intro s' f hlistens hprocessed
  obtain ⟨n, event, hissued, hconnection, rfl⟩ := hnamed.replay c user hmem
  have hserial : c.serial < s.engine.connected := hnamed.serial n event c hissued hconnection
  have hreplayed : s.Replayed c event.user s' := h.replayed now hmem
  have hsound : s'.Sound := ((s.takes_take _).moves h).sound
  obtain ⟨taken, added, hflows⟩ := hsound.flows_run later
  -- what was taken off the queue since the replay is what was in it then
  have htaken : s'.pending = taken := by
    have hlength : s'.pending.length = taken.length :=
      Nat.add_left_cancel (hprocessed.symm.trans hflows.processed)
    exact (List.append_inj hflows.pending hlength).1
  obtain ⟨hbefore, hunread⟩ := hflows.unread c (hreplayed.connected ▸ hserial) hlistens
  have htold : f.unread c = s.told c ++ Locks.replayEvents s.engine.locks.table event.user := by
    rw [hunread, ← htaken, hreplayed.unread, hreplayed.pending, heardBy_append, heardBy_only,
      if_pos rfl, told, List.append_assoc]
  rw [htold, List.foldl_append, hreplayed.table,
    mem_foldl_tell_replayEvents h.consistent.coherent hother, or_iff_right_iff_imp]
  apply hhonest
  · exact .inl (hreplayed.listens ▸ hbefore)
  · exact fun n' event' hissued' hc' =>
      hnamed.single n' event' n event c hissued' hissued hc' hconnection
  · exact hother

theorem invariants_run (settings : Settings) (graph : Graph) {turns : List Turn}
    (hbyHand : ∀ other, .call (.replay c other) ∈ turns → other = user) :
    let s := (start settings graph).run turns
    s.Sound ∧ s.Named ∧ s.Honest c user := by
  have hturn : ∀ (s s' : Traffic) (turn : Turn), turn ∈ turns → s.Takes turn s' →
      s.Sound ∧ s.Named ∧ s.Honest c user → s'.Sound ∧ s'.Named ∧ s'.Honest c user := by
    rintro s s' turn hturn htakes ⟨hsound, hnamed, hhonest⟩
    refine ⟨(htakes.moves hsound).sound, htakes.named hsound hnamed, ?_⟩
    exact htakes.honest hsound hnamed (fun other heq => hbyHand other (heq ▸ hturn)) hhonest
  apply invariant_run hturn
  exact ⟨sound_start settings graph, named_start settings graph,
    honest_start settings graph c user⟩

/-- Who logs in comes to show the editor locks of the others as they were at the replay, whatever
else reached the connection since it was made and whatever goes on until the last event of the
replay arrives. -/
theorem replay_run (settings : Settings) (graph : Graph) (turns : List Turn) (now : Nat)
    (c : ConnectionId) (user : User) :
    let s := (start settings graph).run turns
    .replay c user ∈ s.errands →
    -- nobody has the connection told in another name
    (∀ other, .call (.replay c other) ∈ turns → other = user) →
    let s' := s.take (.proceed now (.replay c user))
    (∃ events : List Event, events.Nodup ∧
      (∀ event, event ∈ events ↔ s.engine.locks.table.Introduces user event) ∧
      s'.pending = s.pending ++ events.map (⟨.only c, ·⟩) ∧
      (s.engine.replay c user).2 = some events.length ∧
      s'.engine.locks.table = s.engine.locks.table) ∧
    (∀ later, let f := s'.run later
      f.Listens c → f.processed = s'.processed + s'.pending.length →
      ∀ other resource, other ≠ user →
        ((other, resource) ∈ (f.unread c).foldl Event.tell ∅ ↔
          ∃ resources, s'.engine.locks.table.shownLocks[other]? = some resources ∧
            resource ∈ resources)) ∧
    (let f := s'.run (List.replicate s'.pending.length .deliver);
      f.processed = s'.processed + s'.pending.length ∧ (s'.Listens c → f.Listens c)) := by
  intro s hmem hbyHand s'
  obtain ⟨hsound, hnamed, hhonest⟩ := invariants_run settings graph hbyHand
  have hcoherent := hsound.consistent.coherent
  have hreplayed : s.Replayed c user s' := hsound.replayed now hmem
  refine ⟨⟨Locks.replayEvents s.engine.locks.table user, Table.nodup_replayEvents hcoherent user,
    fun event => Table.mem_replayEvents hcoherent, hreplayed.pending, hreplayed.sent,
    hreplayed.table⟩, ?_, ?_⟩
  · intro later f hlistens hprocessed other resource hother
    rw [Table.mem_shownLocks]
    exact hsound.shows_of_replay hnamed hhonest hmem now later hother resource hlistens hprocessed
  · obtain ⟨hprocessed, hlistens⟩ := ((s.takes_take _).moves hsound).sound.run_deliver
    exact ⟨hprocessed, hlistens c⟩

/-- Bob's connection misses the first news of Alice's tree and hears the rest. She gives the tree
up after he logs in, but before he is told what is locked. -/
def joinsLate : List Turn :=
  let desk : ConnectionId := ⟨"desk", 0⟩
  [.call (.lock Locks.actionPoints 0 "ap_1" "alice" true), .deliver, .connect "desk", .deliver,
    .call (.lock Locks.actionPoints 0 "ap_2" "alice" false), .login desk "bob",
    .proceed 0 (.inform 0 ⟨.connected, "bob", some desk⟩), .call (.unlock "ap_1" "alice")]

theorem replay_run_joinsLate :
    let s := (start {} .withRoots).run joinsLate
    let desk : ConnectionId := ⟨"desk", 0⟩
    let s' := s.take (.proceed 0 (.replay desk "bob"))
    let f := s'.run (List.replicate s'.pending.length .deliver)
    .replay desk "bob" ∈ s.errands ∧ f.Listens desk ∧
      f.unread desk = [.locked "ap_1" "alice", .locked "ap_2" "alice",
        .unlocked "PROJECT" "alice", .unlocked "ap_1" "alice", .locked "ap_2" "alice"] ∧
      (f.unread desk).foldl Event.tell ∅ = {("alice", "ap_2")} ∧
      ∃ resources, s'.engine.locks.table.shownLocks["alice"]? = some resources ∧
        "ap_2" ∈ resources := by
  intro s desk s' f
  have hmem : .replay desk "bob" ∈ s.errands := by decide +kernel
  have hbyHand : ∀ other, .call (.replay desk other) ∈ joinsLate → other = "bob" := by
    simp [joinsLate]
  have hview : (f.unread desk).foldl Event.tell ∅ = {("alice", "ap_2")} := by decide +kernel
  obtain ⟨-, hshows, hprocessed, hstays⟩ :=
    replay_run {} .withRoots joinsLate 0 desk "bob" hmem hbyHand
  have hlistens : f.Listens desk := hstays ⟨by decide +kernel, by decide +kernel⟩
  refine ⟨hmem, hlistens, by decide +kernel, hview, ?_⟩
  apply (hshows _ hlistens hprocessed "alice" "ap_2" (by decide)).1
  rw [hview]
  exact Finset.mem_singleton_self _

end Traffic

end SceneLocks
