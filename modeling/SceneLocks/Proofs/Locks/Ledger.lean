import SceneLocks.Proofs.Locks.Exclusion

/-!
# The ledger of grants

A ledger that knows nothing of the table: it books every request that was granted, every
grant that was given back, and every owner whose grants were all taken back. The table agrees
with it after every run without faults: a resource has an entry as long as its balance is
positive for somebody, and the owners of the entry are those users, each with the balance.
-/

namespace SceneLocks

/-! ## Bookings -/

/-- What is counted of a granted request. -/
structure Grant where
  resource : Resource
  owner : User
  mode : Mode
deriving DecidableEq

/-- The grant that a request asks for. -/
def Request.grant (r : Request) : Grant := ⟨r.resource, r.owner, r.mode⟩

/-- An entry of the ledger. -/
inductive Booking where
  | granted (g : Grant)
  | returned (resource : Resource) (owner : User)
  | cleared (owner : User)

/-- What a call is booked as, judged by its reply. A lock that was held already is not granted
again; a plain handle leaves its lock behind. -/
def Call.booking? (l : Locks) (c : Call) : Option Booking :=
  if (c.perform l).2.isSuccess then
    match c with
    | .attempt _ a _ => some (.granted a.request.grant)
    | .acquireOnce _ _ _ r => some (.granted r.grant)
    | .lock _ _ resource owner tree =>
      if Locks.alreadyHeld l.table resource owner tree then none
      else some (.granted (Locks.editorRequest resource owner tree).grant)
    | .unlock resource owner => some (.returned resource owner)
    | .release h | .drop (.scoped h) => some (.returned h.resource h.owner)
    | .releaseAll owner => some (.cleared owner)
    | .drop (.plain _) | .updateLock .. | .replay .. => none
  else none

/-- The bookings of a run, in order. -/
def Locks.bookings (l : Locks) : List Call → List Booking
  | [] => []
  | c :: calls => (c.booking? l).toList ++ (c.perform l).1.bookings calls

/-! ## Balances -/

/-- The balances after a booking. -/
def Booking.settle (balance : Resource → User → Int) : Booking → Resource → User → Int
  | .granted g, resource, user =>
    if g.resource = resource ∧ g.owner = user then balance resource user + 1
    else balance resource user
  | .returned r owner, resource, user =>
    if r = resource ∧ owner = user then balance resource user - 1 else balance resource user
  | .cleared owner, resource, user => if owner = user then 0 else balance resource user

/-- For each resource and each user the grants less those given back. -/
def balance (bookings : List Booking) : Resource → User → Int :=
  bookings.foldl Booking.settle fun _ _ => 0

/-- How often a user is among some grants of a resource. -/
def countOf (grants : List Grant) (resource : Resource) (user : User) : Nat :=
  grants.countP fun g => g.resource = resource ∧ g.owner = user

/-- The grants that may be outstanding after a booking. Which of several grants of an owner is
given back does not show, so each of them may be. -/
def Booking.Leaves (before : List Grant) : Booking → List Grant → Prop
  | .granted g, after => after = g :: before
  | .returned resource owner, after =>
    ∃ g, before.Perm (g :: after) ∧ g.resource = resource ∧ g.owner = owner
  | .cleared owner, after => after = before.filter (·.owner ≠ owner)

/-- The grants that may be outstanding after some bookings. -/
inductive Outstanding : List Grant → List Booking → List Grant → Prop where
  | nil (grants : List Grant) : Outstanding grants [] grants
  | cons {b : Booking} {bookings : List Booking} {before between after : List Grant} :
    b.Leaves before between → Outstanding between bookings after →
      Outstanding before (b :: bookings) after

theorem countOf_cons (g : Grant) (grants : List Grant) (resource : Resource) (user : User) :
    countOf (g :: grants) resource user =
      countOf grants resource user + if g.resource = resource ∧ g.owner = user then 1 else 0 := by
  simp [countOf, List.countP_cons]

theorem countOf_pos_iff {grants : List Grant} {resource : Resource} {user : User} :
    0 < countOf grants resource user ↔ ∃ g ∈ grants, g.resource = resource ∧ g.owner = user := by
  simp [countOf, List.countP_pos_iff]

theorem Outstanding.append {before between after : List Grant} {bookings more : List Booking}
    (h : Outstanding before bookings between) (hmore : Outstanding between more after) :
    Outstanding before (bookings ++ more) after := by
  induction h with
  | nil => exact hmore
  | cons hleaves _ ih => exact .cons hleaves (ih hmore)

theorem outstanding_append {before after : List Grant} {bookings more : List Booking}
    (h : Outstanding before (bookings ++ more) after) :
    ∃ between, Outstanding before bookings between ∧ Outstanding between more after := by
  induction bookings generalizing before with
  | nil => exact ⟨before, .nil before, h⟩
  | cons b bookings ih =>
    cases h with
    | cons hleaves h =>
      obtain ⟨between, hfirst, hmore⟩ := ih h
      exact ⟨between, .cons hleaves hfirst, hmore⟩

theorem countOf_filter (grants : List Grant) (owner : User) (resource : Resource) (user : User) :
    countOf (grants.filter (·.owner ≠ owner)) resource user =
      if owner = user then 0 else countOf grants resource user := by
  induction grants with
  | nil => simp [countOf]
  | cons g grants ih =>
    rw [List.filter_cons]
    by_cases howner : g.owner = owner
    · -- the grant is taken back, and counts only where nothing is left
      rw [if_neg (by simpa using howner), ih, countOf_cons, ← howner]
      split
      · rfl
      · next huser => simp [huser]
    · rw [if_pos (by simpa using howner), countOf_cons, countOf_cons, ih]
      split
      · next huser => simp [← huser, howner]
      · rfl

/-- The count of what is outstanding after a booking is the count settled. -/
theorem Booking.Leaves.settle {b : Booking} {before after : List Grant}
    (h : b.Leaves before after) :
    (fun resource user => (countOf after resource user : Int)) =
      b.settle fun resource user => countOf before resource user := by
  funext resource user
  cases b with
  | granted g =>
    obtain rfl := h
    rw [countOf_cons, Booking.settle]
    split <;> omega
  | returned r owner =>
    obtain ⟨g, hperm, rfl, rfl⟩ := h
    have hcount : countOf before resource user = countOf (g :: after) resource user :=
      hperm.countP_eq _
    rw [Booking.settle, hcount, countOf_cons]
    split <;> omega
  | cleared owner =>
    obtain rfl := h
    rw [countOf_filter, Booking.settle]
    split <;> rfl

/-- The count of what is outstanding is the balance, however the grants were given back. -/
theorem Outstanding.settle {bookings : List Booking} {before after : List Grant}
    (h : Outstanding before bookings after) :
    (fun resource user => (countOf after resource user : Int)) =
      bookings.foldl Booking.settle fun resource user => countOf before resource user := by
  induction h with
  | nil => rfl
  | cons hleaves _ ih => rw [ih, hleaves.settle, List.foldl_cons]

/-! ## Grants in the table -/

namespace Table

/-- How often a user was granted a resource, as far as the table goes. -/
def grants (t : Table) (resource : Resource) (user : User) : Nat :=
  (t.lookup? resource).elim 0 (·.grants user)

variable {t : Table} {s : Section}

theorem grants_of_lookup? {resource : Resource} {e : Entry} (he : t.lookup? resource = some e)
    (user : User) : t.grants resource user = e.grants user := by
  rw [grants, he]
  rfl

theorem grants_granted {whole : Bool} {scope : Scope} {r : Request}
    (hs : Granted t whole scope r s) (x : Resource) (u : User) :
    (s.result t).grants x u =
      t.grants x u + if r.resource = x ∧ r.owner = u then 1 else 0 := by
  unfold grants
  rw [hs.lookup?]
  by_cases hx : r.resource = x
  · cases t.lookup? x with
    | none => simp [hx, Entry.grants_first]
    | some e =>
      by_cases hu : r.owner = u
      · simp [hx, hu, Entry.grants_add]
      · simp [hx, hu, Entry.grants_add]
  · simp [hx]

theorem grants_released {resource : Resource} {owner : User} {e : Entry}
    (hs : Released t resource owner e s) (x : Resource) (u : User) :
    (s.result t).grants x u =
      t.grants x u - if resource = x ∧ owner = u then 1 else 0 := by
  unfold grants
  rw [hs.lookup?]
  by_cases hx : resource = x
  · subst hx
    rw [if_pos rfl, Entry.elim_keepOwned, Entry.grants_remove, hs.found]
    by_cases hu : owner = u
    · simp [hu]
    · simp [hu]
  · simp [hx]

theorem grants_reclaimed {owner : User} (hs : Reclaimed t owner s) (x : Resource) (u : User) :
    (s.result t).grants x u = if owner = u then 0 else t.grants x u := by
  unfold grants
  rw [hs.lookup?]
  cases t.lookup? x with
  | none => simp
  | some e =>
    rw [Option.bind_some]
    split
    · rw [Entry.elim_keepOwned, Entry.grants_removeAll]
      rfl
    · next hother =>
      split
      · next hu =>
        subst hu
        have hnone : e.owners[owner]? = none := by
          rw [Option.eq_none_iff_forall_ne_some]
          exact fun n hn => hother (Entry.isOwnedBy_iff.2 ⟨n, hn⟩)
        simp [Entry.grants_eq_getD, hnone]
      · rfl

theorem grants_resized {resource : Resource} {owner : User} {e : Entry} {tree : Bool}
    {covered : Std.ExtTreeSet Resource} (hs : Resized t resource owner e tree covered s)
    (x : Resource) (u : User) : (s.result t).grants x u = t.grants x u := by
  unfold grants
  rw [hs.lookup?]
  split
  · next hx =>
    subst hx
    rw [hs.found]
    rfl
  · rfl

end Table

/-- Who lost all locks has no grants. -/
theorem Locks.grants_releaseAll {l : Locks} {owner : User}
    (hok : (l.releaseAll owner).2.isOk = true) (resource : Resource) :
    (l.releaseAll owner).1.table.grants resource owner = 0 := by
  rcases (enters_releaseAll l owner).cases with ⟨-, s, hs, htable⟩ | ⟨hfailed, -⟩
  · rw [htable, Table.grants_reclaimed (Plan.done_of_edits hs), if_pos rfl]
  · rw [hfailed] at hok
    contradiction

/-! ## Accounts -/

/-- The grants account for the table: it counts what they count, in their mode. -/
structure Table.Accounts (t : Table) (grants : List Grant) : Prop where
  counts : ∀ resource user, t.grants resource user = countOf grants resource user
  mode : ∀ g ∈ grants, ∀ e, t.lookup? g.resource = some e → e.mode = g.mode

namespace Table

variable {t t' : Table} {s : Section} {grants : List Grant}

theorem accounts_empty : Table.empty.Accounts [] where
  counts resource user := by simp [Table.grants, countOf]
  mode := by simp

/-- Where a grant is counted there is an entry. -/
theorem Accounts.lookup? (h : t.Accounts grants) {g : Grant} (hg : g ∈ grants) :
    ∃ e, t.lookup? g.resource = some e ∧ e.mode = g.mode := by
  have hpos : 0 < t.grants g.resource g.owner := by
    rw [h.counts]
    exact countOf_pos_iff.2 ⟨g, hg, rfl, rfl⟩
  cases he : t.lookup? g.resource with
  | none => simp [Table.grants, he] at hpos
  | some e => exact ⟨e, rfl, h.mode g hg e he⟩

/-- No section changes the mode of an entry. -/
theorem Accounts.mode_of_subset (h : t.Accounts grants) {after : List Grant}
    (hsubset : after ⊆ grants)
    (hkept : ∀ x e', t'.lookup? x = some e' → ∃ e, t.lookup? x = some e ∧ e'.mode = e.mode) :
    ∀ g ∈ after, ∀ e, t'.lookup? g.resource = some e → e.mode = g.mode := by
  intro g hg e' he'
  obtain ⟨e, he, hmode⟩ := hkept g.resource e' he'
  exact hmode.trans (h.mode g (hsubset hg) e he)

theorem Accounts.granted {whole : Bool} {scope : Scope} {r : Request} (h : t.Accounts grants)
    (hscope : scope.resource = r.resource) (hs : Granted t whole scope r s) :
    (s.result t).Accounts (r.grant :: grants) where
  counts x u := by
    rw [grants_granted hs, h.counts, countOf_cons]
    rfl
  mode g hg e he := by
    obtain ⟨hown, -⟩ := conflict?_eq_none_iff.1 hs.free
    rw [hscope] at hown
    rw [hs.lookup?] at he
    split at he
    · next hx =>
      rw [← hx] at he
      -- a second grant needs both to be shared, so the mode of the entry fits either way
      cases hfound : t.lookup? r.resource with
      | none =>
        simp only [hfound, Option.elim, Option.some.injEq] at he
        rcases List.mem_cons.1 hg with rfl | hg
        · exact he ▸ rfl
        · obtain ⟨e', he', -⟩ := h.lookup? hg
          rw [← hx, hfound] at he'
          exact absurd he' nofun
      | some found =>
        simp only [hfound, Option.elim, Option.some.injEq] at he
        obtain ⟨hshared, hrequest, -, -⟩ := hown found hfound
        have hmode : e.mode = found.mode := he ▸ rfl
        rcases List.mem_cons.1 hg with rfl | hg
        · exact hmode.trans (hshared.trans hrequest.symm)
        · exact hmode.trans (h.mode g hg found (hx ▸ hfound))
    · next hx =>
      rcases List.mem_cons.1 hg with rfl | hg
      · exact absurd rfl hx
      · exact h.mode g hg e he

theorem Accounts.released {resource : Resource} {owner : User} {found : Entry}
    (h : t.Accounts grants) (hs : Released t resource owner found s) {after : List Grant}
    (hleaves : (Booking.returned resource owner).Leaves grants after) :
    (s.result t).Accounts after := by
  obtain ⟨g, hperm, rfl, rfl⟩ := hleaves
  refine ⟨fun x u => ?_, h.mode_of_subset ?_ fun x e' he' => ?_⟩
  · have hcount : countOf grants x u = countOf (g :: after) x u := hperm.countP_eq _
    rw [grants_released hs, h.counts, hcount, countOf_cons]
    omega
  · exact fun g' hg' => hperm.symm.subset (List.mem_cons_of_mem g hg')
  · obtain ⟨e, he, hmode, -⟩ := hs.before he'
    exact ⟨e, he, hmode⟩

/-- A grant of the owner is there to be given back. -/
theorem Accounts.exists_leaves {resource : Resource} {owner : User} {found : Entry}
    (hcoherent : t.Coherent) (h : t.Accounts grants) (hs : Released t resource owner found s) :
    ∃ after, (Booking.returned resource owner).Leaves grants after := by
  have hpos : 0 < countOf grants resource owner := by
    rw [← h.counts, Table.grants_of_lookup? hs.found]
    exact (hcoherent resource found hs.found).isOwnedBy_iff.1 hs.owned
  obtain ⟨g, hg, hresource, howner⟩ := countOf_pos_iff.1 hpos
  exact ⟨grants.erase g, g, List.perm_cons_erase hg, hresource, howner⟩

theorem Accounts.reclaimed {owner : User} (h : t.Accounts grants) (hs : Reclaimed t owner s)
    {after : List Grant} (hleaves : (Booking.cleared owner).Leaves grants after) :
    (s.result t).Accounts after := by
  refine ⟨fun x u => ?_, h.mode_of_subset ?_ fun x e' he' => ?_⟩
  · obtain rfl := hleaves
    rw [grants_reclaimed hs, h.counts, countOf_filter]
  · obtain rfl := hleaves
    exact List.filter_subset_self _
  · obtain ⟨e, he, hmode, -⟩ := hs.before he'
    exact ⟨e, he, hmode⟩

theorem Accounts.resized {resource : Resource} {owner : User} {found : Entry} {tree : Bool}
    {covered : Std.ExtTreeSet Resource} (h : t.Accounts grants)
    (hs : Resized t resource owner found tree covered s) : (s.result t).Accounts grants := by
  refine ⟨fun x u => (grants_resized hs x u).trans (h.counts x u),
    h.mode_of_subset (List.Subset.refl grants) fun x e' he' => ?_⟩
  rw [hs.lookup?] at he'
  split at he'
  · next hx => exact ⟨found, hx ▸ hs.found, Option.some.inj he' ▸ rfl⟩
  · exact ⟨e', he', rfl⟩

end Table

/-! ## Runs -/

/-- What the section of a plan is booked as. -/
def Plan.booking? : Plan → Option Booking
  | .grant _ _ r => some (.granted r.grant)
  | .release resource owner => some (.returned resource owner)
  | .reclaim owner => some (.cleared owner)
  | .update .. => none

namespace Call

variable {c : Call} {l : Locks} {p : Plan}

theorem booking?_of_not_isSuccess (h : (c.perform l).2.isSuccess = false) :
    c.booking? l = none := by
  simp [booking?, h]

/-- A call that succeeds is booked as its plan. -/
theorem booking?_of_isSuccess (hplan : c.plan? l.table = some p)
    (h : (c.perform l).2.isSuccess = true) : c.booking? l = p.booking? := by
  unfold booking?
  rw [if_pos h]
  cases plans_of_plan? hplan with
  | lock now hheld hscope => simp [hheld, Plan.booking?]
  | _ => rfl

/-- A call that enters no section is not booked: it fails, or it grants and takes nothing. -/
theorem booking?_of_plan?_eq_none (hplan : c.plan? l.table = none) : c.booking? l = none := by
  cases c with
  | acquireOnce g now whole r =>
    refine booking?_of_not_isSuccess ?_
    have hscope := Option.map_eq_none_iff.1 hplan
    simp [perform, Locks.acquireOnce_of_scope?_eq_none hscope, Reply.ofExcept, Reply.isSuccess]
  | lock g now resource owner tree =>
    by_cases hheld : Locks.alreadyHeld l.table resource owner tree = true
    · simp [booking?, hheld]
    · refine booking?_of_not_isSuccess ?_
      simp only [plan?, if_neg hheld, Option.map_eq_none_iff] at hplan
      simp [perform, Locks.lock, Locks.read, hheld, Except.map, Reply.ofExcept, Reply.isSuccess,
        Locks.acquireOnce_of_scope?_eq_none (r := Locks.editorRequest resource owner tree) hplan]
  | drop holding =>
    rcases holding with handle | handle
    · simp [booking?]
    · simp [plan?] at hplan
  | updateLock | replay => simp [booking?]
  | attempt | unlock | release | releaseAll => simp [plan?] at hplan

end Call

/-- After a section some grants account for the table, namely all that its booking may leave. -/
theorem Plan.accounts_result {t : Table} {s : Section} {p : Plan} {grants : List Grant}
    (hp : p.Resolved) (hcoherent : t.Coherent) (h : t.Accounts grants)
    (hs : p.edits t = .ok s) :
    (∃ after, Outstanding grants p.booking?.toList after) ∧
      ∀ after, Outstanding grants p.booking?.toList after → (s.result t).Accounts after := by
  -- a plan with one booking: what the booking may leave is what may be outstanding
  have hsingle : ∀ (b : Booking), (∃ after, b.Leaves grants after) →
      (∀ after, b.Leaves grants after → (s.result t).Accounts after) →
      (∃ after, Outstanding grants [b] after) ∧
        ∀ after, Outstanding grants [b] after → (s.result t).Accounts after := by
    intro b hexists hall
    obtain ⟨after, hafter⟩ := hexists
    refine ⟨⟨after, .cons hafter (.nil after)⟩, fun after hafter => ?_⟩
    cases hafter with
    | cons hleaves hnil =>
      cases hnil with
      | nil => exact hall after hleaves
  have hdone := Plan.done_of_edits hs
  cases p with
  | grant whole scope r =>
    refine hsingle (.granted r.grant) ⟨_, rfl⟩ ?_
    rintro after rfl
    exact h.granted hp hdone
  | release resource owner =>
    obtain ⟨e, hreleased⟩ := hdone
    refine hsingle (.returned resource owner) (h.exists_leaves hcoherent hreleased) ?_
    exact fun after hleaves => h.released hreleased hleaves
  | reclaim owner =>
    refine hsingle (.cleared owner) ⟨_, rfl⟩ ?_
    exact fun after hleaves => h.reclaimed hdone hleaves
  | update scope owner kind =>
    have haccounts : (s.result t).Accounts grants := by
      obtain ⟨e, hupdated⟩ := hdone
      obtain ⟨tree, covered, hresized, -, -⟩ := hupdated.resized
      exact h.resized hresized
    refine ⟨⟨grants, .nil grants⟩, fun after hafter => ?_⟩
    cases hafter with
    | nil => exact haccounts

namespace Locks

/-- The table of a run without faults is coherent, and some grants account for it. -/
structure Accounted (l : Locks) (grants : List Grant) : Prop where
  quiet : l.Quiet
  coherent : l.table.Coherent
  accounts : l.table.Accounts grants

theorem accounted_fresh (settings : LockSettings) : (fresh settings).Accounted [] :=
  ⟨quiet_fresh settings, Table.coherent_empty, Table.accounts_empty⟩

theorem Accounted.perform {l : Locks} {grants : List Grant} (h : l.Accounted grants) (c : Call) :
    (∃ after, Outstanding grants (c.booking? l).toList after) ∧
      ∀ after, Outstanding grants (c.booking? l).toList after →
        (c.perform l).1.Accounted after := by
  rcases Call.performed_cases h.quiet c with
    ⟨p, s, hplan, hs, hperformed, hsuccess⟩ | ⟨hfailed, hperformed⟩
  · have hp := Call.resolved_of_plan? hplan
    obtain ⟨hexists, hall⟩ := p.accounts_result hp h.coherent h.accounts hs
    rw [Call.booking?_of_isSuccess hplan hsuccess]
    refine ⟨hexists, fun after hafter => ⟨hperformed.quiet, ?_, ?_⟩⟩
    · rw [hperformed.table]
      exact h.coherent.result hp hs
    · rw [hperformed.table]
      exact hall after hafter
  · have hnone : c.booking? l = none := by
      cases hplan : c.plan? l.table with
      | none => exact Call.booking?_of_plan?_eq_none hplan
      | some p => exact Call.booking?_of_not_isSuccess (hfailed p hplan).2
    rw [hnone]
    refine ⟨⟨grants, .nil grants⟩, fun after hafter => ?_⟩
    cases hafter with
    | nil =>
      refine ⟨hperformed.quiet, ?_, ?_⟩
      · rw [hperformed.table]
        exact h.coherent
      · rw [hperformed.table]
        exact h.accounts

/-- The grants that may be outstanding after a run are those that account for its table. -/
theorem Accounted.serve {l : Locks} {grants : List Grant} (h : l.Accounted grants)
    (calls : List Call) :
    (∃ after, Outstanding grants (l.bookings calls) after) ∧
      ∀ after, Outstanding grants (l.bookings calls) after → (l.serve calls).Accounted after := by
  induction calls generalizing l grants with
  | nil =>
    refine ⟨⟨grants, .nil grants⟩, fun after hafter => ?_⟩
    cases hafter with
    | nil => exact h
  | cons c calls ih =>
    obtain ⟨⟨between, hbetween⟩, hstep⟩ := h.perform c
    constructor
    · obtain ⟨after, hafter⟩ := (ih (hstep between hbetween)).1
      exact ⟨after, hbetween.append hafter⟩
    · intro after hafter
      obtain ⟨between, hbetween, hafter⟩ := outstanding_append hafter
      exact (ih (hstep between hbetween)).2 after hafter

end Locks

/-- The table is what the bookings say. -/
structure Table.KeptBy (t : Table) (bookings : List Booking) : Prop where
  nonneg : ∀ resource user, 0 ≤ balance bookings resource user
  /-- A resource has an entry while somebody's balance on it is positive. -/
  locked : ∀ resource, (t.lookup? resource).isSome ↔ ∃ user, 0 < balance bookings resource user
  /-- The owners are the users with a positive balance, each with the balance. -/
  owners : ∀ resource e, t.lookup? resource = some e → ∀ (user : User) (n : Nat),
    e.owners[user]? = some n ↔
      0 < balance bookings resource user ∧ balance bookings resource user = n
  outstanding : ∃ grants, Outstanding [] bookings grants
  /-- However the grants were given back, the balance counts those that are outstanding. -/
  counted : ∀ grants, Outstanding [] bookings grants → ∀ resource user,
    balance bookings resource user = countOf grants resource user
  /-- The mode of an entry is that of every grant counted in it. -/
  mode : ∀ grants, Outstanding [] bookings grants → ∀ g ∈ grants,
    ∃ e, t.lookup? g.resource = some e ∧ e.mode = g.mode
  /-- Nothing is left when everything has been given back. -/
  settled : (∀ resource user, balance bookings resource user = 0) → t.entries = ∅

theorem Outstanding.balance {bookings : List Booking} {grants : List Grant}
    (h : Outstanding [] bookings grants) (resource : Resource) (user : User) :
    SceneLocks.balance bookings resource user = countOf grants resource user :=
  (congrFun (congrFun h.settle resource) user).symm

theorem Table.Accounts.isSome_lookup?_iff {t : Table} {grants : List Grant}
    (hcoherent : t.Coherent) (h : t.Accounts grants) (resource : Resource) :
    (t.lookup? resource).isSome ↔ ∃ user, 0 < countOf grants resource user := by
  simp only [← h.counts, Table.grants]
  cases he : t.lookup? resource with
  | none => simp
  | some e =>
    obtain ⟨owner, howner⟩ := (hcoherent resource e he).owned
    have hpos := (hcoherent resource e he).isOwnedBy_iff.1 howner
    exact iff_of_true rfl ⟨owner, hpos⟩

theorem Table.Accounts.owners_iff {t : Table} {grants : List Grant} (hcoherent : t.Coherent)
    (h : t.Accounts grants) {resource : Resource} {e : Entry} (he : t.lookup? resource = some e)
    (user : User) (n : Nat) :
    e.owners[user]? = some n ↔
      0 < countOf grants resource user ∧ countOf grants resource user = n := by
  have hgrants : countOf grants resource user = e.owners[user]?.getD 0 := by
    rw [← h.counts, Table.grants_of_lookup? he, Entry.grants_eq_getD]
  rw [hgrants]
  cases hn : e.owners[user]? with
  | none => simp
  | some m =>
    have hpos : 0 < m := (hcoherent resource e he).positive user m hn
    simp [hpos]

/-- No grant is lost and none is orphaned: after every run the table is what the bookings of
the run say. -/
theorem Locks.keptBy_serve (settings : LockSettings) (calls : List Call) :
    ((fresh settings).serve calls).table.KeptBy ((fresh settings).bookings calls) := by
  -- one list of outstanding grants settles the balances; the modes need all such lists
  obtain ⟨hexists, hall⟩ := (accounted_fresh settings).serve calls
  obtain ⟨grants, hgrants⟩ := hexists
  have hbalance := hgrants.balance
  obtain ⟨-, hcoherent, haccounts⟩ := hall grants hgrants
  refine ⟨?_, ?_, ?_, ⟨grants, hgrants⟩, ?_, ?_, ?_⟩
  · intro resource user
    rw [hbalance]
    exact Int.natCast_nonneg _
  · intro resource
    simp only [hbalance, Int.natCast_pos]
    exact haccounts.isSome_lookup?_iff hcoherent resource
  · intro resource e he user n
    rw [hbalance, Int.natCast_pos, Int.natCast_inj]
    exact haccounts.owners_iff hcoherent he user n
  · exact fun grants hgrants => hgrants.balance
  · exact fun grants hgrants g hg => (hall grants hgrants).accounts.lookup? hg
  · intro hzero
    refine Std.ExtTreeMap.ext_getElem? fun resource => ?_
    have hnone : ¬ (((fresh settings).serve calls).table.lookup? resource).isSome := by
      rw [haccounts.isSome_lookup?_iff hcoherent]
      rintro ⟨user, hpos⟩
      have hcount := hbalance resource user
      rw [hzero] at hcount
      omega
    simpa [Table.lookup?] using hnone

end SceneLocks
