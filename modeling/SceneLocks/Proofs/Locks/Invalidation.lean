import Mathlib.Data.List.Induction
import SceneLocks.Proofs.Locks.Custody
import SceneLocks.Proofs.Locks.StaleHandles

/-!
# Cached data of changed resources

Whoever changes a resource marks the handle, and giving the handle back drops the cached data of
the resource. That is done only after the table took the grant back: a handle whose grant was
taken away in the meantime is refused, and the cached data stays (`invalidated_run`).
-/

namespace SceneLocks

namespace Custody

/-! ## What a deed invalidates -/

/-- The resource whose cached data a deed drops. -/
def invalidation? (c : Custody) : Deed → Option Resource
  | .step .. => none
  | .use n use => (c.held? n).bind fun holding =>
    if use.givesBack holding && ((c.locks.release holding.handle).2.isOk &&
      holding.handle.invalidates) then some holding.handle.resource else none
  | .invalidate resource => some resource

/-- The resource was invalidated since the earlier state. -/
def InvalidatedSince (c earlier : Custody) (resource : Resource) : Prop :=
  resource ∈ c.locks.invalidated.drop earlier.locks.invalidated.length

instance (c earlier : Custody) (resource : Resource) :
    Decidable (c.InvalidatedSince earlier resource) :=
  inferInstanceAs (Decidable (_ ∈ _))

/-- After the earlier deeds the holder of the handle said that the resource was changed. -/
def MarkedAfter (c : Custody) (earlier deeds : List Deed) (n : Nat) : Prop :=
  earlier ++ [.use n .mark] <+: deeds ∧ ((c.run earlier).held? n).isSome = true

end Custody

/-- Only handles that are given back change more than the table and the queue. -/
theorem Call.sameRest_perform {c : Call} (h : (Step.call c).Handleless) (l : Locks) :
    (c.perform l).1.SameRest l := by
  cases c with
  | attempt now a resolved => exact Locks.sameRest_attempt l now a
  | acquireOnce g now whole r => exact Locks.sameRest_acquireOnce l g now whole r
  | lock g now resource owner tree => exact Locks.sameRest_lock l g now resource owner tree
  | unlock resource owner => exact Locks.sameRest_transact l (·.releasing resource owner)
  | updateLock g resource owner kind => exact Locks.sameRest_updateLock l g resource owner kind
  | releaseAll owner => exact Locks.sameRest_releaseAll l owner
  | replay c user => exact Locks.sameRest_replay l c user
  | release handle => exact h.elim
  | drop holding => exact h.elim

namespace Call

/-- The cached data that is dropped when a call comes to this reply. -/
def invalidation (reply : Reply) : Call → List Resource
  | .release h | .drop (.scoped h) =>
    if reply.isSuccess && h.invalidates then [h.resource] else []
  | _ => []

theorem invalidation_failed (c : Call) (error : LockError) :
    c.invalidation (.failed error) = [] := by
  cases c with
  | drop holding => cases holding <;> rfl
  | _ => rfl

theorem invalidation_of_handleless {c : Call} (h : (Step.call c).Handleless) (reply : Reply) :
    c.invalidation reply = [] := by
  cases c with
  | release handle => exact h.elim
  | drop holding => exact h.elim
  | _ => rfl

theorem invalidated_perform (c : Call) (l : Locks) :
    (c.perform l).1.invalidated = l.invalidated ++ c.invalidation (c.perform l).2 := by
  have hrelease : ∀ h : Handle, (l.release h).1.invalidated = l.invalidated ++
      if (Reply.ofExcept (fun _ => .done) (l.release h).2).isSuccess && h.invalidates
      then [h.resource] else [] := by
    intro h
    rw [Locks.invalidated_release]
    cases (l.release h).2 <;> rfl
  by_cases hless : (Step.call c).Handleless
  · rw [invalidation_of_handleless hless, List.append_nil]
    exact (sameRest_perform hless l).2
  · cases c with
    | release h => exact hrelease h
    | drop holding =>
      rcases holding with h | h
      · exact (List.append_nil _).symm
      · exact hrelease h
    | _ => exact absurd True.intro hless

theorem settings_perform (c : Call) (l : Locks) : (c.perform l).1.settings = l.settings := by
  by_cases hless : (Step.call c).Handleless
  · exact (sameRest_perform hless l).1
  · cases c with
    | release h => exact Locks.settings_release l h
    | drop holding =>
      have hdrop := Locks.settings_drop l holding
      rcases holding with h | h <;> exact hdrop
    | _ => exact absurd True.intro hless

end Call

theorem Step.invalidated_perform {step : Step} (h : step.Handleless) (l : Locks) :
    (step.perform l).invalidated = l.invalidated := by
  cases step with
  | call c => exact (Call.sameRest_perform h l).2
  | breakOff p n fault =>
    have henter := (Locks.sameRest_enter l).2
    simp only [perform]
    split <;> exact henter
  | requeue queue => rfl

theorem Use.invalidated_perform (use : Use) (l : Locks) (holding : Holding) :
    (use.perform l holding).invalidated = l.invalidated ++
      if use.givesBack holding && ((l.release holding.handle).2.isOk && holding.handle.invalidates)
      then [holding.handle.resource] else [] := by
  have hrelease := Locks.invalidated_release l holding.handle
  cases use with
  | release => exact hrelease
  | drop =>
    rcases holding with handle | handle
    · simp [Use.perform, Use.call?, Call.perform, Locks.drop, Locks.record, givesBack]
    · exact hrelease
  | mark | keepAlive | detach => simp [Use.perform, Use.call?, givesBack]

namespace Custody

variable {c : Custody} {n : Nat} {use : Use} {holding : Holding} {resource : Resource}

theorem invalidated_perform (c : Custody) (deed : Deed) :
    (c.perform deed).locks.invalidated =
      c.locks.invalidated ++ (c.invalidation? deed).toList := by
  cases deed with
  | step guarded step handleless =>
    rw [invalidation?, Option.toList_none, List.append_nil]
    exact step.invalidated_perform handleless c.locks
  | use n use =>
    cases hheld : c.held? n with
    | none => simp [perform_use_of_not_held hheld, invalidation?, hheld]
    | some holding =>
      rw [perform_use_of_held hheld, invalidation?, hheld, Option.bind_some]
      refine (use.invalidated_perform c.locks holding).trans ?_
      split <;> rfl
  | invalidate resource => rfl

theorem invalidated_prefix_run (c : Custody) (deeds : List Deed) :
    c.locks.invalidated <+: (c.run deeds).locks.invalidated := by
  induction deeds generalizing c with
  | nil => exact List.prefix_rfl
  | cons deed deeds ih =>
    refine List.IsPrefix.trans ?_ (ih (c.perform deed))
    rw [invalidated_perform]
    exact List.prefix_append _ _

/-- What was invalidated since an earlier state grows by what the deed invalidates. -/
theorem invalidatedSince_perform (earlier : Custody) (deeds : List Deed) (deed : Deed) :
    ((earlier.run deeds).perform deed).InvalidatedSince earlier resource ↔
      (earlier.run deeds).InvalidatedSince earlier resource ∨
        (earlier.run deeds).invalidation? deed = some resource := by
  have hlength := (earlier.invalidated_prefix_run deeds).length_le
  unfold InvalidatedSince
  rw [invalidated_perform, List.drop_append_of_le_length hlength, List.mem_append,
    Option.mem_toList]

/-! ## Marks -/

theorem markedAfter_concat {c : Custody} {earlier deeds : List Deed} {deed : Deed} :
    c.MarkedAfter earlier (deeds ++ [deed]) n ↔ c.MarkedAfter earlier deeds n ∨
      (earlier = deeds ∧ deed = .use n .mark ∧ ((c.run deeds).held? n).isSome = true) := by
  unfold MarkedAfter
  rw [List.prefix_concat_iff, List.append_singleton_inj, or_and_right, or_comm, and_assoc]
  refine or_congr_right (and_congr_right ?_)
  rintro rfl
  rw [eq_comm]

/-- A handle that was marked was given out before. -/
theorem MarkedAfter.lt {c : Custody} {earlier deeds : List Deed}
    (h : c.MarkedAfter earlier deeds n) : n < (c.run deeds).handles.length := by
  obtain ⟨⟨later, rfl⟩, hheld⟩ := h
  obtain ⟨holding, hholding⟩ := Option.isSome_iff_exists.1 hheld
  rw [List.append_assoc, run_append]
  exact Nat.lt_of_lt_of_le (lt_of_held? hholding) (length_run_le _ _)

/-- A handle says that its resource was changed just if its holder said so in the course of the
run. -/
theorem modified_iff {c : Custody} (hnew : c.handles = []) (deeds : List Deed)
    (hheld : (c.run deeds).held? n = some holding) :
    holding.handle.modified = true ↔ ∃ earlier, c.MarkedAfter earlier deeds n := by
  induction deeds using List.reverseRecOn generalizing holding with
  | nil => simp [run, held?, hnew] at hheld
  | append_singleton deeds deed ih =>
    simp only [markedAfter_concat, exists_or, exists_eq_left]
    rw [run_append] at hheld
    cases stems_perform hheld with
    | kept hbefore hsame hother =>
      rw [hsame, ih hbefore]
      exact (or_iff_left fun hmark => hother hmark.1).symm
    | marked hbefore hmarked =>
      rw [hmarked]
      exact iff_of_true rfl (.inr ⟨rfl, Option.isSome_of_eq_some hbefore⟩)
    | new hlast hgranted =>
      obtain ⟨_, _, _, _, -, -, -, hhandle⟩ := Step.handle?_eq_some hgranted
      rw [hhandle]
      refine iff_of_false Bool.false_ne_true ?_
      rintro (⟨earlier, hmarked⟩ | hmark)
      · exact Nat.ne_of_lt hmarked.lt hlast
      · cases hmark.1

/-! ## Runs -/

theorem Returns.invalidation?_iff (h : c.Returns n use holding)
    (hexclusive : holding.handle.mode = .exclusive) (hmodified : holding.handle.modified = true) :
    c.invalidation? (.use n use) = some holding.handle.resource ↔
      (c.locks.release holding.handle).2.isOk = true := by
  rw [invalidation?, h.held, Option.bind_some]
  simp [h.back, Handle.invalidates, hexclusive, hmodified]

/-- An exclusive handle that is given back after its resource was changed: the resource is
invalidated since then just if somebody else saw to that in the meantime, or if the table takes the
grant back, which it does as long as the owner has a grant left and no fault is in the making.
Nothing else is invalidated but what others invalidate. -/
theorem invalidated_run (settings : LockSettings) (deeds : List Deed) (deed : Deed) :
    let c := (start settings).run deeds
    (∀ n use holding earlier, deed = .use n use → c.Returns n use holding →
      holding.handle.mode = .exclusive → (start settings).MarkedAfter earlier deeds n →
      let marked := (start settings).run (earlier ++ [.use n .mark])
      ((c.perform deed).InvalidatedSince marked holding.handle.resource ↔
        c.InvalidatedSince marked holding.handle.resource ∨
          (c.locks.release holding.handle).2.isOk = true) ∧
      (c.locks.queue.trap? = none → ((c.locks.release holding.handle).2.isOk = true ↔
        c.locks.table.grants holding.handle.resource holding.handle.owner ≠ 0))) ∧
    ((c.perform deed).locks.invalidated = c.locks.invalidated ∨
      ∃ resource, (c.perform deed).locks.invalidated = c.locks.invalidated ++ [resource] ∧
        (deed = .invalidate resource ∨ ∃ n use holding earlier, deed = .use n use ∧
          c.Returns n use holding ∧ holding.handle.resource = resource ∧
          holding.handle.mode = .exclusive ∧ (start settings).MarkedAfter earlier deeds n)) := by
  intro c
  constructor
  · intro n use holding earlier hdeed hreturns hexclusive hmarked marked
    subst hdeed
    have hmodified := (modified_iff rfl deeds hreturns.held).2 ⟨earlier, hmarked⟩
    constructor
    · -- the run goes on from the state in which the handle was marked
      obtain ⟨⟨later, hlater⟩, -⟩ := hmarked
      have hc : c = marked.run later := by
        rw [← run_append, hlater]
      rw [← hreturns.invalidation?_iff hexclusive hmodified, hc]
      exact invalidatedSince_perform marked later (.use n use)
    · intro htrap
      exact Locks.isOk_release_iff (coherent_deeds Table.coherent_empty deeds) htrap
  · -- a deed adds what it invalidates: nothing, or one resource
    rw [invalidated_perform]
    cases hinvalidation : c.invalidation? deed with
    | none => exact .inl (List.append_nil _)
    | some resource =>
      refine .inr ⟨resource, rfl, ?_⟩
      cases deed with
      | step guarded step handleless => cases hinvalidation
      | invalidate other =>
        obtain rfl := Option.some.inj hinvalidation
        exact .inl rfl
      | use n use =>
        right
        -- only a handle given back that was marked invalidates through `use`
        obtain ⟨holding, hheld, hreturned⟩ := Option.bind_eq_some_iff.1 hinvalidation
        obtain ⟨hback, hresource⟩ := Option.ite_none_right_eq_some.1 hreturned
        simp only [Bool.and_eq_true, Handle.invalidates, beq_iff_eq] at hback
        obtain ⟨hback, -, hexclusive, hmodified⟩ := hback
        obtain ⟨earlier, hmarked⟩ := (modified_iff rfl deeds hheld).1 hmodified
        exact ⟨n, use, holding, earlier, rfl, ⟨hheld, hback⟩, Option.some.inj hresource, hexclusive,
          hmarked⟩

/-- Alice acquires the action point. -/
def acquired : List Deed := [.step false Locks.aliceTries True.intro]

/-- She changes it, and her editor unlocks it before she gives her handle back. -/
def changedThenUnlocked : List Deed :=
  acquired ++ [.use 0 .mark, .step false (.call (.unlock "ap_1" "alice")) True.intro]

/-- Then giving it back is in vain, and what is cached of the action point stays. -/
theorem invalidated_run_changedThenUnlocked :
    let h := (Handle.ofRequest Locks.aliceAsks).markModified
    let c := (start {}).run changedThenUnlocked
    let marked := (start {}).run (acquired ++ [.use 0 .mark])
    c.Returns 0 .release (.plain h) ∧ (start {}).MarkedAfter acquired changedThenUnlocked 0 ∧
      ¬ (c.perform (.use 0 .release)).InvalidatedSince marked "ap_1" := by
  intro h c marked
  have hreturns : c.Returns 0 .release (.plain h) := ⟨by decide +kernel, rfl⟩
  have hmarked : (start {}).MarkedAfter acquired changedThenUnlocked 0 :=
    ⟨⟨[.step false (.call (.unlock "ap_1" "alice")) True.intro], rfl⟩, by decide +kernel⟩
  refine ⟨hreturns, hmarked, ?_⟩
  intro hinvalidated
  obtain ⟨hreturned, -⟩ := invalidated_run {} changedThenUnlocked (.use 0 .release)
  rcases (hreturned 0 .release (.plain h) acquired rfl hreturns rfl hmarked).1.1 hinvalidated with
    hbefore | hok
  · exact absurd hbefore (by decide +kernel)
  · exact absurd hok (by decide +kernel)

end Custody

end SceneLocks
