import SceneLocks.Session.Registry

/-!
# Sessions

The connections and the users are kept in two maps, each of which knows the other's side of a
login. They agree as long as every connection that is added is a new one.
-/

namespace SceneLocks.Sessions

variable {s s' : Sessions} {c : ConnectionId} {user : User} {event : SessionEvent}

/-! ## What logging in and out does -/

/-- What a login found and what it did. -/
structure LoggedIn (s : Sessions) (c : ConnectionId) (user : User) (s' : Sessions)
    (event : SessionEvent) : Prop where
  free : s.connections[c]? = some none
  names : event.user = user ∧ event.connection = some c
  /-- The user came back, or was not known. -/
  kind : (event.kind = .reconnected ∧ s.session? user = some none) ∨
    (event.kind = .connected ∧ s.session? user = none)
  connections : ∀ c', s'.connections[c']? = if c = c' then some (some user) else s.connections[c']?
  session? : ∀ user', s'.session? user' =
    if user = user' then some (some c) else s.session? user'

theorem loggedIn_of_login (h : s.login c user = .ok (s', event)) :
    s.LoggedIn c user s' event := by
  unfold login at h
  split at h
  · cases h
  · cases h
  · next hfree =>
    split at h
    · cases h
    · next hknown =>
      obtain ⟨rfl, rfl⟩ := Prod.mk.inj (Except.ok.inj h)
      refine ⟨hfree, ⟨rfl, rfl⟩, .inl ⟨rfl, hknown⟩, fun c' => ?_, fun user' => ?_⟩
      · simp [Std.ExtTreeMap.getElem?_insert]
      · simp [session?, Std.ExtTreeMap.getElem?_insert]
    · next hunknown =>
      obtain ⟨rfl, rfl⟩ := Prod.mk.inj (Except.ok.inj h)
      refine ⟨hfree, ⟨rfl, rfl⟩, .inr ⟨rfl, hunknown⟩, fun c' => ?_, fun user' => ?_⟩
      · simp [Std.ExtTreeMap.getElem?_insert]
      · simp [session?, Std.ExtTreeMap.getElem?_insert]

/-- What a logout of a connection found and what it did. -/
structure LoggedOut (s : Sessions) (c : ConnectionId) (s' : Sessions)
    (event : Option SessionEvent) : Prop where
  found : s.connections[c]? = some (event.map (·.user))
  kind : ∀ e ∈ event, e.kind = .disconnected ∧ e.connection = none
  connections : ∀ c', s'.connections[c']? = if c = c' then none else s.connections[c']?
  session? : ∀ user', s'.session? user' =
    if event.map (·.user) = some user' then (s.session? user').map fun _ => none
    else s.session? user'

theorem loggedOut_of_logout {event : Option SessionEvent} (h : s.logout c = .ok (s', event)) :
    s.LoggedOut c s' event := by
  unfold logout at h
  split at h
  · cases h
  · next hfound =>
    obtain ⟨rfl, rfl⟩ := Prod.mk.inj (Except.ok.inj h)
    refine ⟨hfound, nofun, fun c' => ?_, fun user' => rfl⟩
    simp [Std.ExtTreeMap.getElem?_erase]
  · next user hfound =>
    obtain ⟨rfl, rfl⟩ := Prod.mk.inj (Except.ok.inj h)
    refine ⟨hfound, ?_, fun c' => ?_, fun user' => ?_⟩
    · rintro e ⟨⟩
      exact ⟨rfl, rfl⟩
    · simp [Std.ExtTreeMap.getElem?_erase]
    · simp only [session?, Std.ExtTreeMap.getElem?_modify, Std.compare_eq_iff_eq, Option.map_some,
        Option.some.injEq]
      split
      · next h => rw [h]
      · rfl

/-- The user logged in on the connection is known, though disconnected. -/
theorem LoggedOut.session?_eq {c : ConnectionId} {event : SessionEvent}
    (h : s.LoggedOut c s' (some event)) (user : User) :
    s'.session? user =
      if event.user = user then (s.session? user).map fun _ => none else s.session? user := by
  simpa using h.session? user

/-- No connection is made by a logout. -/
theorem LoggedOut.live {event : Option SessionEvent} (h : s.LoggedOut c s' event)
    {c' : ConnectionId} (hlive : c' ∈ s'.connections) : c' ∈ s.connections := by
  rw [Std.ExtTreeMap.mem_iff_isSome_getElem?, h.connections] at hlive
  split at hlive
  · simp at hlive
  · exact Std.ExtTreeMap.mem_iff_isSome_getElem?.2 hlive

theorem session?_forget (s : Sessions) (user user' : User) :
    (s.forget user).1.session? user' =
      if user = user' ∧ s.session? user = some none then none else s.session? user' := by
  unfold forget
  split
  · next h => simp [session?, Std.ExtTreeMap.getElem?_erase, h]
  · next h => simp [session?, h]

theorem connections_forget (s : Sessions) (user : User) :
    (s.forget user).1.connections = s.connections := by
  unfold forget
  split <;> rfl

/-! ## Agreement -/

/-- A user is on a connection just when the connection has that user. -/
def Coherent (s : Sessions) : Prop :=
  ∀ c user, s.connections[c]? = some (some user) ↔ s.session? user = some (some c)

theorem coherent_empty : Sessions.empty.Coherent := by
  intro c user
  simp [empty, session?]

theorem Coherent.connect (h : s.Coherent) (hnew : s.connections[c]? = none) :
    (s.connect c).Coherent := by
  intro c' user
  rw [show (s.connect c).session? user = s.session? user from rfl, ← h]
  simp only [Sessions.connect, Std.ExtTreeMap.getElem?_insert, Std.compare_eq_iff_eq]
  split
  · next hc => simp [← hc, hnew]
  · rfl

theorem Coherent.login (h : s.Coherent) (hlogin : s.LoggedIn c user s' event) : s'.Coherent := by
  intro c' user'
  rw [hlogin.connections, hlogin.session?]
  split
  · next hc =>
    subst hc
    split
    · next huser => simp [huser]
    · -- nobody else was on the connection, which was free
      next huser => simp [huser, ← h c user', hlogin.free]
  · next hc =>
    split
    · next huser =>
      subst huser
      rw [h]
      -- whoever logs in was on no connection before
      rcases hlogin.kind with ⟨-, hsession⟩ | ⟨-, hsession⟩ <;> simp [hsession, hc]
    · exact h c' user'

theorem Coherent.logout {event : Option SessionEvent} (h : s.Coherent)
    (hlogout : s.LoggedOut c s' event) : s'.Coherent := by
  intro c' user'
  rw [hlogout.connections, hlogout.session?]
  split
  · next hc =>
    subst hc
    split
    · simp
    · next huser => simpa [← h c user', hlogout.found] using huser
  · next hc =>
    split
    · next huser =>
      rw [h]
      -- the user was on the connection that goes, hence on no other
      have hfound := (h c user').1 (hlogout.found.trans (by rw [huser]))
      simp [hfound, hc]
    · exact h c' user'

theorem Coherent.forget (h : s.Coherent) (user : User) : (s.forget user).1.Coherent := by
  intro c user'
  rw [session?_forget, connections_forget, h]
  split
  · next huser => simp [← huser.1, huser.2]
  · rfl

end SceneLocks.Sessions
