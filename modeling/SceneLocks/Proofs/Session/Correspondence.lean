import Mathlib.Data.List.Induction
import SceneLocks.Proofs.Session.Sessions

/-!
# Users and their connections

Whatever calls reach the sessions, a user's record names a connection just when that connection
is live and has the user, as long as every connection that is added is a new one. So what the
calls answer can be told from the live connections and from what happened to the user before
(`paired_run`).
-/

namespace SceneLocks

/-! ## Calls -/

/-- A call on the sessions. -/
inductive SessionCall where
  | connect (c : ConnectionId)
  | login (c : ConnectionId) (user : User)
  | logout (c : ConnectionId)
  | forget (user : User)
deriving DecidableEq, Repr

namespace SessionCall

/-- Whether a call does what it is meant to do. -/
def succeeds (s : Sessions) : SessionCall → Bool
  | .connect _ => true
  | .login c user => (s.login c user).isOk
  | .logout c => (s.logout c).isOk
  | .forget user => (s.forget user).2

/-- The sessions after a call. -/
def perform (s : Sessions) : SessionCall → Sessions
  | .connect c => s.connect c
  | .login c user =>
    match s.login c user with
    | .ok (s', _) => s'
    | .error _ => s
  | .logout c =>
    match s.logout c with
    | .ok (s', _) => s'
    | .error _ => s
  | .forget user => (s.forget user).1

/-- The connection that a call adds. -/
def added? : SessionCall → Option ConnectionId
  | .connect c => some c
  | .login .. | .logout _ | .forget _ => none

end SessionCall

namespace Sessions

/-- The sessions after some calls. -/
def run (s : Sessions) (calls : List SessionCall) : Sessions := calls.foldl SessionCall.perform s

/-- The user logged in at some point of the run and was not forgotten since. -/
def Joined (calls : List SessionCall) (user : User) : Prop :=
  ∃ before c after, calls = before ++ .login c user :: after ∧
    (SessionCall.login c user).succeeds (empty.run before) = true ∧
    ∀ between later, after = between ++ .forget user :: later →
      (SessionCall.forget user).succeeds (empty.run (before ++ .login c user :: between)) = false

variable {s s' : Sessions} {c : ConnectionId} {user : User} {calls : List SessionCall}

theorem run_snoc (s : Sessions) (calls : List SessionCall) (call : SessionCall) :
    s.run (calls ++ [call]) = call.perform (s.run calls) := by
  rw [run, List.foldl_append]
  rfl

/-! ## What a call does -/

/-- What a call can come to. -/
inductive Performs (s : Sessions) : SessionCall → Sessions → Bool → Prop where
  | connect (c : ConnectionId) : s.Performs (.connect c) (s.connect c) true
  | login {c : ConnectionId} {user : User} {s' : Sessions} {event : SessionEvent}
    (h : s.LoggedIn c user s' event) : s.Performs (.login c user) s' true
  | logout {c : ConnectionId} {s' : Sessions} {event : Option SessionEvent}
    (h : s.LoggedOut c s' event) : s.Performs (.logout c) s' true
  | forget {user : User} (h : s.session? user = some none) :
    s.Performs (.forget user) (s.forget user).1 true
  /-- A call that fails leaves everything as it was. -/
  | failed (call : SessionCall) : s.Performs call s false

/-- A login succeeds on a connection on which nobody is logged in, for a name that is not on a
connection. -/
theorem isOk_login_iff : (s.login c user).isOk = true ↔
    s.connections[c]? = some none ∧ ∀ c', s.session? user ≠ some (some c') := by
  unfold login session?
  cases s.connections[c]? with
  | none => simp [Except.isOk, Except.toBool]
  | some present =>
    cases present with
    | some other => simp [Except.isOk, Except.toBool]
    | none =>
      rcases s.users[user]? with _ | _ | c' <;> simp [Except.isOk, Except.toBool]

theorem isOk_logout_iff : (s.logout c).isOk = true ↔ c ∈ s.connections := by
  rw [Std.ExtTreeMap.mem_iff_isSome_getElem?]
  unfold logout
  rcases s.connections[c]? with _ | _ | user <;> simp [Except.isOk, Except.toBool]

theorem snd_forget_iff (s : Sessions) (user : User) :
    (s.forget user).2 = true ↔ s.session? user = some none := by
  unfold forget session?
  split <;> simp_all

theorem forget_of_failed (h : (s.forget user).2 = false) : (s.forget user).1 = s := by
  unfold forget at h ⊢
  split <;> simp_all

theorem performs_perform (s : Sessions) (call : SessionCall) :
    s.Performs call (call.perform s) (call.succeeds s) := by
  cases call with
  | connect c => exact .connect c
  | login c user =>
    simp only [SessionCall.perform, SessionCall.succeeds]
    cases hlogin : s.login c user with
    | error e => exact .failed _
    | ok result => exact .login (loggedIn_of_login hlogin)
  | logout c =>
    simp only [SessionCall.perform, SessionCall.succeeds]
    cases hlogout : s.logout c with
    | error e => exact .failed _
    | ok result => exact .logout (loggedOut_of_logout hlogout)
  | forget user =>
    simp only [SessionCall.perform, SessionCall.succeeds]
    cases hforget : (s.forget user).2 with
    | true => exact .forget ((s.snd_forget_iff user).1 hforget)
    | false =>
      rw [forget_of_failed hforget]
      exact .failed _

variable {call : SessionCall} {ok : Bool}

theorem Performs.eq_of_failed (h : s.Performs call s' false) : s' = s := by
  cases h
  rfl

/-- A live connection was live before or has just been added. -/
theorem Performs.live (h : s.Performs call s' ok) (hlive : c ∈ s'.connections) :
    c ∈ s.connections ∨ call.added? = some c := by
  cases h with
  | connect c' =>
    rcases Std.ExtTreeMap.mem_insert.1 hlive with hnew | hold
    · exact .inr (congrArg some (Std.LawfulEqOrd.eq_of_compare hnew))
    · exact .inl hold
  | login h =>
    rw [Std.ExtTreeMap.mem_iff_isSome_getElem?, h.connections] at hlive
    rw [Std.ExtTreeMap.mem_iff_isSome_getElem?]
    split at hlive
    · next hsame => simp [← hsame, h.free]
    · exact .inl hlive
  | logout h => exact .inl (h.live hlive)
  | forget h =>
    rw [connections_forget] at hlive
    exact .inl hlive
  | failed => exact .inl hlive

/-- The two maps keep agreeing if a connection that is added is a new one. -/
theorem Performs.coherent (h : s.Performs call s' ok) (hnew : ∀ c ∈ call.added?, c ∉ s.connections)
    (hcoherent : s.Coherent) : s'.Coherent := by
  cases h with
  | connect c =>
    apply hcoherent.connect
    exact Std.ExtTreeMap.getElem?_eq_none (hnew c rfl)
  | login h => exact hcoherent.login h
  | logout h => exact hcoherent.logout h
  | forget h => exact hcoherent.forget _
  | failed => exact hcoherent

/-- A user is known after a login, and until the session is forgotten. -/
theorem Performs.isSome_session?_iff (h : s.Performs call s' ok) (user : User) :
    (s'.session? user).isSome ↔
      (ok = true ∧ ∃ c, call = .login c user) ∨
        ((s.session? user).isSome ∧ ¬ (ok = true ∧ call = .forget user)) := by
  cases h with
  | connect c => simp [Sessions.connect, session?]
  | @login c user' s' event h =>
    rw [h.session?]
    split
    · next hsame => simp [hsame]
    · next hother => simp [hother]
  | @logout c s' event h =>
    rw [h.session?]
    split <;> simp
  | @forget user' h =>
    rw [session?_forget]
    by_cases hsame : user' = user
    · subst hsame
      simp [h]
    · simp [hsame]
  | failed => simp

/-! ## Runs -/

theorem not_joined_nil (user : User) : ¬ Joined [] user := by
  rintro ⟨before, c, after, h, -⟩
  simp at h

/-- With one more call the user logs in, or had logged in and is not forgotten. -/
theorem joined_snoc : Joined (calls ++ [call]) user ↔
    (call.succeeds (empty.run calls) = true ∧ ∃ c, call = .login c user) ∨
      (Joined calls user ∧ ¬ (call.succeeds (empty.run calls) = true ∧ call = .forget user)) := by
  constructor
  · rintro ⟨before, c, after, hcalls, hlogin, hkept⟩
    rcases List.eq_nil_or_concat after with rfl | ⟨earlier, last, rfl⟩
    · obtain ⟨rfl, hlast⟩ := List.append_inj' hcalls rfl
      obtain rfl := (List.cons.inj hlast).1
      exact .inl ⟨hlogin, c, rfl⟩
    · rw [List.concat_eq_append, ← List.cons_append, ← List.append_assoc] at hcalls
      obtain ⟨rfl, hlast⟩ := List.append_inj' hcalls rfl
      obtain rfl := (List.cons.inj hlast).1
      refine .inr ⟨⟨before, c, earlier, rfl, hlogin, fun between later h => ?_⟩, ?_⟩
      · exact hkept between (later ++ [call]) (by simp [h])
      · rintro ⟨hforgotten, rfl⟩
        rw [hkept earlier [] (by simp)] at hforgotten
        contradiction
  · rintro (⟨hlogin, c, rfl⟩ | ⟨⟨before, c, after, rfl, hlogin, hkept⟩, hlast⟩)
    · exact ⟨calls, c, [], rfl, hlogin, by simp⟩
    · refine ⟨before, c, after ++ [call], by simp, hlogin, fun between later h => ?_⟩
      rcases List.eq_nil_or_concat later with rfl | ⟨earlier, last, rfl⟩
      · obtain ⟨rfl, hcall⟩ := List.append_inj' h rfl
        obtain rfl := (List.cons.inj hcall).1
        simpa using hlast
      · rw [List.concat_eq_append, ← List.cons_append, ← List.append_assoc] at h
        obtain ⟨rfl, -⟩ := List.append_inj' h rfl
        exact hkept between earlier rfl

/-- The known users are those who logged in and were not forgotten since. -/
theorem isSome_session?_run_iff (calls : List SessionCall) (user : User) :
    ((empty.run calls).session? user).isSome ↔ Joined calls user := by
  induction calls using List.reverseRecOn with
  | nil => exact iff_of_false (by simp [run, empty, session?]) (not_joined_nil user)
  | append_singleton calls call ih =>
    have hperforms := (empty.run calls).performs_perform call
    rw [run_snoc, hperforms.isSome_session?_iff, joined_snoc, ih]

/-- A live connection was added in the course of the run. -/
theorem mem_added_of_live (calls : List SessionCall) (hlive : c ∈ (empty.run calls).connections) :
    c ∈ calls.filterMap SessionCall.added? := by
  induction calls using List.reverseRecOn with
  | nil => simp [run, empty] at hlive
  | append_singleton calls call ih =>
    rw [run_snoc] at hlive
    rw [List.filterMap_append, List.mem_append]
    rcases ((empty.run calls).performs_perform call).live hlive with hbefore | hadded
    · exact .inl (ih hbefore)
    · exact .inr (List.mem_filterMap.2 ⟨call, List.mem_singleton_self call, hadded⟩)

theorem coherent_of_fresh (calls : List SessionCall)
    (hfresh : (calls.filterMap SessionCall.added?).Nodup) : (empty.run calls).Coherent := by
  induction calls using List.reverseRecOn with
  | nil => exact coherent_empty
  | append_singleton calls call ih =>
    rw [List.filterMap_append, List.nodup_append] at hfresh
    obtain ⟨hbefore, -, hdisjoint⟩ := hfresh
    rw [run_snoc]
    refine ((empty.run calls).performs_perform call).coherent (fun c hc hlive => ?_) (ih hbefore)
    -- the connection would have been added twice
    have hadded : c ∈ [call].filterMap SessionCall.added? :=
      List.mem_filterMap.2 ⟨call, List.mem_singleton_self call, hc⟩
    exact hdisjoint c (mem_added_of_live calls hlive) c hadded rfl

/-- The live connections and the records of the users are one relation, seen from both sides, and
every call does what is right by it. -/
structure Paired (calls : List SessionCall) (s : Sessions) : Prop where
  /-- A record names a connection just when the connection is live and has the user. -/
  agree : ∀ user (c : ConnectionId),
    s.session? user = some (some c) ↔ s.connections[c]? = some (some user)
  /-- No two connections have the same user. -/
  sole : ∀ user (c c' : ConnectionId), s.connections[c]? = some (some user) →
    s.connections[c']? = some (some user) → c = c'
  /-- Who is known without being on a connection had logged in and was not forgotten since. -/
  away : ∀ user, s.session? user = some none ↔
    Joined calls user ∧ ∀ c : ConnectionId, s.connections[c]? ≠ some (some user)
  /-- A login needs a live connection without a user, and a name that no live connection has. -/
  login : ∀ (c : ConnectionId) user, (s.login c user).isOk = true ↔
    s.connections[c]? = some none ∧ ∀ c' : ConnectionId, s.connections[c']? ≠ some (some user)
  /-- It puts the user on the connection, and tells who came back from who is new. -/
  welcome : ∀ c user s' event, s.login c user = .ok (s', event) → s.LoggedIn c user s' event ∧
    (event.kind = .reconnected ↔ s.session? user = some none) ∧
    (event.kind = .reconnected ↔ Joined calls user) ∧
    (event.kind = .connected ↔ ¬ Joined calls user)
  logout : ∀ c, (s.logout c).isOk = true ↔ c ∈ s.connections
  /-- A logout reports the user of the connection, if it has one. -/
  report : ∀ (c : ConnectionId) s' event, s.logout c = .ok (s', event) →
    s.connections[c]? = some (event.map (·.user))
  /-- It drops the connection, and takes it out of the record of just this user. -/
  farewell : ∀ c s' event, s.logout c = .ok (s', some event) → s.LoggedOut c s' (some event) ∧
    s.session? event.user = some (some c) ∧ s'.session? event.user = some none
  /-- Only who is not on a connection is forgotten. -/
  forget : ∀ user, (s.forget user).2 = true ↔ s.session? user = some none
  forgotten : ∀ user user', (s.forget user).1.session? user' =
    if user = user' ∧ s.session? user = some none then none else s.session? user'
  live : ∀ user, (s.forget user).1.connections = s.connections
  failed : ∀ call : SessionCall, call.succeeds s = false → call.perform s = s

/-- If no connection is added twice, users and connections correspond after every run of calls. -/
theorem paired_run (calls : List SessionCall)
    (hfresh : (calls.filterMap SessionCall.added?).Nodup) : Paired calls (empty.run calls) := by
  have hcoherent := coherent_of_fresh calls hfresh
  have hknown := isSome_session?_run_iff calls
  generalize empty.run calls = s at hcoherent hknown
  have hagree : ∀ user (c : ConnectionId),
      s.session? user = some (some c) ↔ s.connections[c]? = some (some user) :=
    fun user c => (hcoherent c user).symm
  have haway : ∀ user, s.session? user = some none ↔
      Joined calls user ∧ ∀ c : ConnectionId, s.connections[c]? ≠ some (some user) := by
    intro user
    simp only [← hknown, ← hagree, ne_eq]
    rcases s.session? user with _ | _ | c <;> simp
  refine ⟨hagree, ?_, haway, ?_, ?_, fun c => isOk_logout_iff, ?_, ?_, s.snd_forget_iff, ?_, ?_, ?_⟩
  · intro user c c' hc hc'
    have hsame := ((hagree user c).2 hc).symm.trans ((hagree user c').2 hc')
    exact Option.some.inj (Option.some.inj hsame)
  · intro c user
    rw [isOk_login_iff]
    simp only [ne_eq, hagree]
  · intro c user s' event h
    have hlogin := loggedIn_of_login h
    refine ⟨hlogin, ?_⟩
    rw [← hknown]
    rcases hlogin.kind with ⟨hkind, hsession⟩ | ⟨hkind, hsession⟩ <;> simp [hkind, hsession]
  · exact fun c s' event h => (loggedOut_of_logout h).found
  · intro c s' event h
    have hlogout := loggedOut_of_logout h
    have hsession := (hagree event.user c).2 hlogout.found
    refine ⟨hlogout, hsession, ?_⟩
    rw [hlogout.session?_eq, if_pos rfl, hsession]
    rfl
  · exact fun user user' => s.session?_forget user user'
  · exact s.connections_forget
  · intro call hfailed
    have hperforms := s.performs_perform call
    rw [hfailed] at hperforms
    exact hperforms.eq_of_failed

/-- Alice's connection breaks and she comes back on another one, is forgotten after she left
again, and comes back once more. -/
def comesAndGoes : List SessionCall :=
  [.connect ⟨"desk", 0⟩, .login ⟨"desk", 0⟩ "alice", .logout ⟨"desk", 0⟩, .connect ⟨"tablet", 1⟩,
    .forget "bob", .login ⟨"tablet", 1⟩ "alice", .forget "alice", .logout ⟨"tablet", 1⟩,
    .forget "alice", .connect ⟨"desk", 2⟩]

/-- So she is greeted as somebody new. -/
theorem paired_run_comesAndGoes :
    (comesAndGoes.filterMap SessionCall.added?).Nodup ∧
    ∃ s' event, (empty.run comesAndGoes).login ⟨"desk", 2⟩ "alice" = .ok (s', event) ∧
      event.kind = .connected ∧ ¬ Joined comesAndGoes "alice" ∧
      s'.session? "alice" = some (some ⟨"desk", 2⟩) := by
  have hfresh : (comesAndGoes.filterMap SessionCall.added?).Nodup := by decide +kernel
  have hpaired := paired_run comesAndGoes hfresh
  have hunknown : (empty.run comesAndGoes).session? "alice" = none := by decide +kernel
  have hok : ((empty.run comesAndGoes).login ⟨"desk", 2⟩ "alice").isOk = true := by decide +kernel
  refine ⟨hfresh, ?_⟩
  cases hlogin : (empty.run comesAndGoes).login ⟨"desk", 2⟩ "alice" with
  | error e =>
    rw [hlogin] at hok
    contradiction
  | ok result =>
    obtain ⟨s', event⟩ := result
    obtain ⟨hdone, hback, hjoined, hnew⟩ := hpaired.welcome _ _ s' event hlogin
    have hstranger : ¬ Joined comesAndGoes "alice" := by
      rw [← hjoined, hback, hunknown]
      exact nofun
    refine ⟨s', event, rfl, hnew.2 hstranger, hstranger, ?_⟩
    rw [hdone.session?, if_pos rfl]

end Sessions

end SceneLocks
