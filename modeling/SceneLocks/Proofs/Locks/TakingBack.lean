import SceneLocks.Proofs.Locks.Custody
import SceneLocks.Proofs.Locks.GivingBack

/-!
# Grants that are taken back

A request that is granted and given back at once leaves the entries as they were. The record of the
editor locks goes by resources and not by grants: if the editors are told of a resource that its
owner had a part in already, without their knowing, the record stays until the owner's last grant
goes (`Unveils`). Else it is as it was, too (`takenBack_run`).
-/

namespace SceneLocks

/-! ## Entries -/

namespace Entry

variable {e : Entry} {owner : User}

/-- A grant that is taken back makes no difference to an entry. -/
theorem remove_add (hpositive : ∀ (user : User) n, e.owners[user]? = some n → 0 < n) :
    (e.add owner).remove owner = e := by
  have howners : ((e.add owner).remove owner).owners = e.owners := by
    refine Std.ExtTreeMap.ext_getElem? fun user => ?_
    rw [getElem?_owners_remove, getElem?_owners_add]
    split
    · rw [Option.bind_some, grants_eq_getD]
      cases hn : e.owners[user]? with
      | none => simp
      | some n =>
        have hpos := hpositive user n hn
        simp [Nat.ne_of_gt hpos]
    · rfl
  calc (e.add owner).remove owner
      = { e with owners := ((e.add owner).remove owner).owners } := rfl
    _ = e := by rw [howners]

/-- Nothing is left of an entry without its only grant. -/
theorem keepOwned_remove_first (resource : Resource) (mode : Mode) (owner : User) (tree : Bool) :
    ((first resource mode owner tree).remove owner).keepOwned = none := by
  rw [keepOwned_eq_none_iff]
  intro user
  rw [getElem?_owners_remove, getElem?_owners_first]
  split <;> rfl

end Entry

/-! ## Tables -/

namespace Table

/-- The grant has the editors told of a resource that its owner had a part in already, without
their knowing. -/
def Unveils (t : Table) (h : Handle) : Prop :=
  h.visibility = .ui ∧ t.Owned h.owner h.resource ∧ t.coverage? h.owner h.resource = none

theorem owned_of_granted {t : Table} {whole : Bool} {scope : Scope} {r : Request} {s : Section}
    (hs : Granted t whole scope r s) : (s.result t).Owned r.owner r.resource := by
  unfold Owned
  rw [hs.lookup?, if_pos rfl]
  cases t.lookup? r.resource with
  | none => exact ⟨_, rfl, (Entry.isOwnedBy_first ..).2 rfl⟩
  | some e => exact ⟨_, rfl, Entry.isOwnedBy_add.2 (.inl rfl)⟩

end Table

/-- A request is granted, and the grant is taken back right after. -/
structure Retracted (t : Table) (whole : Bool) (scope : Scope) (r : Request) (s : Section)
    (e : Entry) (s' : Section) : Prop where
  consistent : t.Consistent
  resource : scope.resource = r.resource
  granted : Granted t whole scope r s
  released : Released (s.result t) r.resource r.owner e s'

namespace Retracted

open Table

variable {t : Table} {whole : Bool} {scope : Scope} {r : Request} {s s' : Section} {e : Entry}

/-- The grant taken back is the owner's last if the owner had none before. -/
theorem last_iff (h : Retracted t whole scope r s e s') :
    e.grants r.owner ≤ 1 ↔ ¬ t.Owned r.owner r.resource := by
  have hgrants : e.grants r.owner = t.grants r.resource r.owner + 1 := by
    have hafter := grants_granted h.granted r.resource r.owner
    rwa [grants_of_lookup? h.released.found, if_pos ⟨rfl, rfl⟩] at hafter
  rw [← h.consistent.coherent.grants_pos_iff, hgrants]
  omega

/-- Who had a part in the resource got a plain grant on a plain entry, so an editor lock of theirs
is of the resource alone, before and after. -/
theorem coverage_of_owned (h : Retracted t whole scope r s e s')
    (howned : t.Owned r.owner r.resource) :
    coverageOf scope r.resource r.tree = {r.resource} ∧
      ∀ covered, t.coverage? r.owner r.resource = some covered → covered = {r.resource} := by
  obtain ⟨found, hfound, -⟩ := howned
  obtain ⟨hown, -⟩ := conflict?_eq_none_iff.1 h.granted.free
  obtain ⟨-, -, hplain, htree⟩ := hown found (h.resource ▸ hfound)
  refine ⟨by simp [coverageOf, htree], fun covered hcoverage => ?_⟩
  exact h.consistent.covered.eq_singleton hcoverage hfound hplain

/-- The entries are the same again. -/
theorem lookup? (h : Retracted t whole scope r s e s') (x : Resource) :
    (s'.result (s.result t)).lookup? x = t.lookup? x := by
  have hfound := h.released.found
  rw [h.granted.lookup?, if_pos rfl] at hfound
  rw [h.released.lookup?]
  split
  · next hx =>
    subst hx
    obtain rfl := Option.some.inj hfound
    cases he : t.lookup? r.resource with
    | none => exact Entry.keepOwned_remove_first ..
    | some before =>
      have hbefore := h.consistent.coherent r.resource before he
      simp only [Option.elim]
      rw [Entry.remove_add hbefore.positive]
      exact Entry.keepOwned_eq_some_iff.2 ⟨rfl, hbefore.owned⟩
  · next hx => rw [h.granted.lookup?, if_neg hx]

theorem coverage?_of_ne (h : Retracted t whole scope r s e s') {user : User} {x : Resource}
    (hne : ¬ (r.owner = user ∧ r.resource = x)) :
    (s'.result (s.result t)).coverage? user x = t.coverage? user x := by
  rw [h.released.coverage?, if_neg fun hx => hne hx.2, h.granted.coverage?,
    if_neg fun hx => hne hx.2]

/-- The record is the same again, unless the grant unveiled a lock. -/
theorem coverage?_self (h : Retracted t whole scope r s e s')
    (hveiled : ¬ t.Unveils (.ofRequest r)) :
    (s'.result (s.result t)).coverage? r.owner r.resource = t.coverage? r.owner r.resource := by
  rw [h.released.coverage?]
  by_cases howned : t.Owned r.owner r.resource
  · obtain ⟨hnew, hold⟩ := h.coverage_of_owned howned
    rw [if_neg fun hx => h.last_iff.1 hx.1 howned, h.granted.coverage?]
    split
    · next hui =>
      -- the editors knew already, so the record was what it is now
      cases hcoverage : t.coverage? r.owner r.resource with
      | none => exact absurd ⟨hui.1, howned, hcoverage⟩ hveiled
      | some covered => rw [hnew, hold covered hcoverage]
    · rfl
  · rw [if_pos ⟨h.last_iff.2 howned, rfl, rfl⟩]
    exact (h.consistent.covered.coverage?_eq_none howned).symm

theorem coverage?_of_unveils (h : Retracted t whole scope r s e s')
    (hunveils : t.Unveils (.ofRequest r)) :
    (s'.result (s.result t)).coverage? r.owner r.resource = some {r.resource} := by
  obtain ⟨hui, howned, -⟩ := hunveils
  obtain ⟨hnew, -⟩ := h.coverage_of_owned howned
  rw [h.released.coverage?, if_neg fun hx => h.last_iff.1 hx.1 howned, h.granted.coverage?,
    if_pos ⟨hui, rfl, rfl⟩, hnew]

/-- What the grant newly shows is announced, and announced as free again when the grant is taken
back, unless the grant unveiled a lock. -/
theorem told_of_shows (h : Retracted t whole scope r s e s') {x : Resource}
    (hshows : (s.result t).Shows r.owner x) (hbefore : ¬ t.Shows r.owner x) :
    .locked x r.owner ∈ s.events ∧
      (¬ t.Unveils (.ofRequest r) → .unlocked x r.owner ∈ s'.events) := by
  obtain ⟨root, covered, hcovered, hmem⟩ := hshows
  rw [h.granted.coverage?] at hcovered
  split at hcovered
  · next hnew =>
    obtain ⟨hui, -, rfl⟩ := hnew
    obtain rfl := Option.some.inj hcovered
    constructor
    · rw [h.granted.events, if_pos hui]
      exact List.mem_map.2 ⟨x, Std.ExtTreeSet.mem_toList.2 hmem, rfl⟩
    · intro hveiled
      -- an owner whom the editors knew showed the resource before
      have howned : ¬ t.Owned r.owner r.resource := by
        intro howned
        obtain ⟨hsingle, hold⟩ := h.coverage_of_owned howned
        cases hcoverage : t.coverage? r.owner r.resource with
        | none => exact hveiled ⟨hui, howned, hcoverage⟩
        | some covered =>
          rw [hsingle, ← hold covered hcoverage] at hmem
          exact hbefore ⟨r.resource, covered, hcoverage, hmem⟩
      rw [h.released.events, if_pos (h.last_iff.2 howned), h.granted.coverage?,
        if_pos ⟨hui, rfl, rfl⟩]
      exact List.mem_map.2 ⟨x, Std.ExtTreeSet.mem_toList.2 hmem, rfl⟩
  · exact absurd ⟨root, covered, hcovered, hmem⟩ hbefore

/-- Where nothing was announced there is nothing to take back. -/
theorem events_eq_nil (h : Retracted t whole scope r s e s') (hsilent : s.events = []) :
    s'.events = [] := by
  have hinternal : r.visibility ≠ .ui := by
    intro hui
    rw [h.granted.events, if_pos hui, List.map_eq_nil_iff] at hsilent
    have hself := mem_coverageOf_self h.resource r.tree
    rw [← Std.ExtTreeSet.mem_toList, hsilent] at hself
    cases hself
  rw [h.released.events]
  split
  · next hlast =>
    rw [h.granted.coverage?, if_neg fun hx => hinternal hx.1,
      h.consistent.covered.coverage?_eq_none (h.last_iff.1 hlast)]
    rfl
  · rfl

/-- As long as the owner had a part in the resource before, nothing is announced as free. -/
theorem events_of_owned (h : Retracted t whole scope r s e s')
    (howned : t.Owned r.owner r.resource) : s'.events = [] := by
  rw [h.released.events, if_neg fun hlast => h.last_iff.1 hlast howned]

end Retracted

/-! ## Runs -/

namespace Locks

/-- A request was granted, which led from the first state to the second, and the handle was given
back, which led to the third. -/
structure TakenBack (l l₁ l₂ : Locks) (h : Handle) : Prop where
  entries : l₂.table.entries = l.table.entries
  table : ¬ l.table.Unveils h → l₂.table = l.table
  elsewhere : ∀ user x, ¬ (h.owner = user ∧ h.resource = x) →
    l₂.table.coverage? user x = l.table.coverage? user x
  /-- A lock that the grant unveiled stays in the record, and nothing is announced as free. -/
  unveiled : l.table.Unveils h →
    l₂.table.coverage? h.owner h.resource = some {h.resource} ∧ l₂.queue = l₁.queue
  told : ∃ locked unlocked : List Event,
    l₁.queue = l.queue.broadcast locked ∧ l₂.queue = l₁.queue.broadcast unlocked ∧
    ∀ x, l₁.table.Shows h.owner x → ¬ l.table.Shows h.owner x →
      .locked x h.owner ∈ locked ∧ (¬ l.table.Unveils h → .unlocked x h.owner ∈ unlocked)

variable {l l₁ l₂ : Locks} {whole : Bool} {scope : Scope} {r : Request} {s s' : Section} {e : Entry}

theorem takenBack_of_retracted (h : Retracted l.table whole scope r s e s')
    (hlisted : l.table.Listed) (htable₁ : l₁.table = s.result l.table)
    (htable₂ : l₂.table = s'.result (s.result l.table))
    (hqueue₁ : l₁.queue = l.queue.broadcast s.events)
    (hqueue₂ : l₂.queue = l₁.queue.broadcast s'.events) : l.TakenBack l₁ l₂ (.ofRequest r) where
  entries := by
    rw [htable₂]
    exact Std.ExtTreeMap.ext_getElem? h.lookup?
  table hveiled := by
    rw [htable₂]
    refine ((hlisted.result s).result s').eq_of_agreeAt hlisted fun x => ⟨h.lookup? x, ?_⟩
    intro user
    by_cases hself : r.owner = user ∧ r.resource = x
    · obtain ⟨rfl, rfl⟩ := hself
      exact h.coverage?_self hveiled
    · exact h.coverage?_of_ne hself
  elsewhere user x hne := by
    rw [htable₂]
    exact h.coverage?_of_ne hne
  unveiled hunveils := by
    rw [htable₂, hqueue₂, h.events_of_owned hunveils.2.1]
    exact ⟨h.coverage?_of_unveils hunveils, Queue.push_nil _⟩
  told := by
    refine ⟨s.events, s'.events, hqueue₁, hqueue₂, ?_⟩
    rw [htable₁]
    exact fun x => h.told_of_shows

/-- A request that was granted, given back at once, leaves the table as it was, unless it unveiled
a lock of its owner: the record then keeps that. Every resource that the request has the editors
show is announced, and without such a lock it is announced as free by the release. -/
theorem takenBack_run (settings : LockSettings) (steps : List Step) {c c' : Call} {h : Handle}
    (hgranted : (c.perform ((fresh settings).run steps)).2 = .granted h)
    (hback : c'.GivesBack h) :
    let l := (fresh settings).run steps
    let l₁ := (c.perform l).1
    (c'.perform l₁).2 = .done ∧ l.TakenBack l₁ (c'.perform l₁).1 h := by
  intro l l₁
  have hconsistent : l.table.Consistent := consistent_run settings steps
  obtain ⟨whole, scope, r, hplan, rfl⟩ := Call.of_granted hgranted
  have hp : scope.resource = r.resource := Call.resolved_of_plan? hplan
  obtain ⟨s, hs, hgoes⟩ := (Call.isSuccess_iff hplan).1 (by rw [hgranted]; rfl)
  have hcomes := Call.comesTo_of_ok hplan hs hgoes
  have htable₁ : l₁.table = s.result l.table := hcomes.table
  have hqueue₁ : l₁.queue = l.queue.broadcast s.events := hcomes.queue
  have hdone : Granted l.table whole scope r s := Plan.done_of_edits hs
  -- the owner has a part in the resource now, so the release can be worked out
  have hplan' : c'.plan? l₁.table = some (.release r.resource r.owner) := hback.plan? l₁.table
  obtain ⟨s', hs'⟩ := Table.releasing_of_owned (Table.owned_of_granted hdone)
  rw [← htable₁] at hs'
  obtain ⟨e, hreleased⟩ := released_of_releasing hs'
  rw [htable₁] at hreleased
  have hretracted : Retracted l.table whole scope r s e s' := ⟨hconsistent, hp, hdone, hreleased⟩
  -- a fault that the grant did not spring has nothing to spring it now
  have hgoes' : l₁.Unhindered s'.events := by
    refine hgoes.imp (fun htrap => ?_) hretracted.events_eq_nil
    rw [hqueue₁]
    exact (Queue.trap?_push ..).trans htrap
  have hcomes' := Call.comesTo_of_ok hplan' hs' hgoes'
  refine ⟨?_, ?_⟩
  · rw [hcomes'.reply]
    cases hback <;> rfl
  · have htable₂ : (c'.perform l₁).1.table = s'.result (s.result l.table) :=
      htable₁ ▸ hcomes'.table
    exact takenBack_of_retracted hretracted (listed_run settings steps) htable₁ htable₂ hqueue₁
      hcomes'.queue

/-- Alice shares the cup, and the editors are told or not. -/
def sharesCup (visibility : Visibility) : Call :=
  .acquireOnce cupOnTable 0 false
    { resource := "cup", owner := "alice", mode := .shared, visibility }

/-- Alice shares the cup without the editors knowing, and then again, with the editors told. With
the second handle given back the entries are as before, but the cup is still shown for her, and
nobody is told that it is free. -/
theorem unveils_sharesCup :
    let l := (fresh {}).run [.call (sharesCup .internal)]
    let asked := (sharesCup .ui).perform l
    let h : Handle :=
      { resource := "cup", owner := "alice", mode := .shared, tree := false, visibility := .ui }
    let back := (Call.release h).perform asked.1
    asked.2 = .granted h ∧ back.2 = .done ∧ back.1.table.entries = l.table.entries ∧
      l.table.shownLocks["alice"]? = none ∧
      back.1.table.shownLocks["alice"]? = some {"cup"} ∧
      l.queue.pending = [] ∧ back.1.queue.pending = [⟨.all, .locked "cup" "alice"⟩] := by
  decide +kernel

/-- Alice's editor gets the tree around the cup, and gives it back. -/
theorem takenBack_run_cupTree :
    let c : Call := .acquireOnce cupOnTable 0 false
      { resource := "cup", owner := "alice", tree := true, visibility := .ui }
    let h : Handle :=
      { resource := "cup", owner := "alice", mode := .exclusive, tree := true, visibility := .ui }
    let l := (fresh {}).run []
    let l₁ := (c.perform l).1
    let l₂ := ((Call.release h).perform l₁).1
    l₁.table.shownLocks["alice"]? = some {"cup", "table"} ∧ l₂.table = l.table ∧
      ∃ locked unlocked, l₂.queue = (l.queue.broadcast locked).broadcast unlocked ∧
        .locked "table" "alice" ∈ locked ∧ .unlocked "table" "alice" ∈ unlocked := by
  intro c h l l₁ l₂
  have hgranted : (c.perform l).2 = .granted h := by decide +kernel
  have hveiled : ¬ l.table.Unveils h := by
    rintro ⟨-, ⟨e, he, -⟩, -⟩
    cases he
  have htaken : l.TakenBack l₁ l₂ h := (takenBack_run {} [] hgranted .release).2
  obtain ⟨locked, unlocked, hqueue₁, hqueue₂, htold⟩ := htaken.told
  have hshows : l₁.table.Shows "alice" "table" :=
    ⟨"cup", {"cup", "table"}, by decide +kernel, by decide +kernel⟩
  have hbefore : ¬ l.table.Shows "alice" "table" := by
    rintro ⟨root, covered, hcovered, -⟩
    cases hcovered
  obtain ⟨hlocked, hunlocked⟩ := htold "table" hshows hbefore
  refine ⟨by decide +kernel, htaken.table hveiled, locked, unlocked, ?_, hlocked, hunlocked hveiled⟩
  rw [← hqueue₁]
  exact hqueue₂

end Locks

end SceneLocks
