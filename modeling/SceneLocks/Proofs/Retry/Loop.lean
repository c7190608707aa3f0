import SceneLocks.Proofs.Retry.Waits

/-!
# Runs of attempts

Which attempt ends a run, how, and what the run does until then. The attempts before the last fail
in ways that waiting may mend; that and the outcome of the last attempt determine the end. Between
two attempts there is one wait. The attempts allowed are fewer than the counter can count, so the
counter never overflows, not even at the largest number of retries.
-/

namespace SceneLocks.RetryPolicy

open Number Time

variable {ε α : Type} {p : RetryPolicy} {mendable : ε → Bool} {outcome : Nat → Except ε α}
  {draw : Nat → Option Binary64} {wait : Nat → Duration}

/-! ## One attempt -/

/-- An attempt fails, in a way that waiting may mend. -/
def IsMendable (mendable : ε → Bool) (x : Except ε α) : Prop :=
  ∃ e, x = .error e ∧ mendable e = true

theorem ending?_eq_none_iff {n : Nat} {x : Except ε α} :
    p.ending? mendable n x = none ↔ IsMendable mendable x ∧ n < p.attempts := by
  cases x <;> grind [ending?, IsMendable]

theorem ending?_eq_done_iff {n m : Nat} {x : Except ε α} {value : α} :
    p.ending? mendable n x = some (.done value m) ↔ m = n ∧ x = .ok value := by
  cases x <;> grind [ending?]

theorem ending?_eq_permanent_iff {n m : Nat} {x : Except ε α} {e : ε} :
    p.ending? mendable n x = some (.permanent e m) ↔
      m = n ∧ x = .error e ∧ mendable e = false := by
  cases x <;> grind [ending?]

theorem ending?_eq_exhausted_iff {n m : Nat} {x : Except ε α} {e : ε} :
    p.ending? mendable n x = some (.exhausted e m) ↔
      m = n ∧ x = .error e ∧ mendable e = true ∧ p.attempts ≤ n := by
  cases x <;> grind [ending?]

theorem attempts_of_ending? {n : Nat} {x : Except ε α} {r : Attempted ε α}
    (h : p.ending? mendable n x = some r) : r.attempts = n := by
  cases r with
  | done value m => exact (ending?_eq_done_iff.1 h).1
  | permanent e m => exact (ending?_eq_permanent_iff.1 h).1
  | exhausted e m => exact (ending?_eq_exhausted_iff.1 h).1

/-! ## The attempt that ends a run -/

/-- A run gets as far as attempt `n`, if it is allowed that many: waiting may mend every failure
before. -/
def Reaches (mendable : ε → Bool) (outcome : Nat → Except ε α) (n : Nat) : Prop :=
  ∀ k, 0 < k → k < n → IsMendable mendable (outcome k)

theorem reaches_one : Reaches mendable outcome 1 := fun _ hpos hlt => absurd hpos (by omega)

theorem Reaches.succ {n : Nat} (h : Reaches mendable outcome n)
    (hn : IsMendable mendable (outcome n)) : Reaches mendable outcome (n + 1) := by
  intro k hpos hlt
  rcases Nat.lt_succ_iff_lt_or_eq.1 hlt with hlt | rfl
  · exact h k hpos hlt
  · exact hn

/-- How a run ends: with an attempt that it gets to, and by the outcome of that attempt. -/
structure Ends (p : RetryPolicy) (mendable : ε → Bool) (outcome : Nat → Except ε α)
    (r : Attempted ε α) : Prop where
  pos : 0 < r.attempts
  le : r.attempts ≤ p.attempts
  reaches : Reaches mendable outcome r.attempts
  ending : p.ending? mendable r.attempts (outcome r.attempts) = some r

/-- A run that ends at one attempt does not get as far as a later one. -/
theorem Ends.not_lt {r : Attempted ε α} (h : p.Ends mendable outcome r) {n : Nat}
    (hreaches : Reaches mendable outcome n) (hle : n ≤ p.attempts) : ¬r.attempts < n := by
  intro hlt
  have hnone : p.ending? mendable r.attempts (outcome r.attempts) = none :=
    ending?_eq_none_iff.2 ⟨hreaches _ h.pos hlt, Nat.lt_of_lt_of_le hlt hle⟩
  cases h.ending.symm.trans hnone

/-- A run ends in one way only. -/
theorem Ends.unique {r r' : Attempted ε α} (h : p.Ends mendable outcome r)
    (h' : p.Ends mendable outcome r') : r = r' := by
  have hattempts : r.attempts = r'.attempts :=
    Nat.le_antisymm (Nat.le_of_not_lt (h'.not_lt h.reaches h.le))
      (Nat.le_of_not_lt (h.not_lt h'.reaches h'.le))
  exact Option.some.inj (h.ending.symm.trans (hattempts ▸ h'.ending))

theorem ends_of_ending? {n : Nat} {r : Attempted ε α} (hpos : 0 < n) (hle : n ≤ p.attempts)
    (hreaches : Reaches mendable outcome n)
    (hending : p.ending? mendable n (outcome n) = some r) : p.Ends mendable outcome r := by
  cases attempts_of_ending? hending
  exact ⟨hpos, hle, hreaches, hending⟩

/-- The last of the attempts that are left is the last one allowed. -/
theorem ends_runFrom {left n : Nat} (hpos : 0 < n) (hleft : n + left = p.attempts)
    (hreaches : Reaches mendable outcome n) :
    p.Ends mendable outcome (runFrom mendable outcome left n) := by
  induction left generalizing n with
  | zero =>
    refine ends_of_ending? hpos (Nat.le_of_eq hleft) hreaches ?_
    unfold runFrom
    split
    · next value h => exact ending?_eq_done_iff.2 ⟨rfl, h⟩
    · next e h =>
      split
      · next hpermanent => exact ending?_eq_permanent_iff.2 ⟨rfl, h, by simpa using hpermanent⟩
      · next hmendable =>
        exact ending?_eq_exhausted_iff.2
          ⟨rfl, h, by simpa using hmendable, Nat.le_of_eq hleft.symm⟩
  | succ left ih =>
    have hle : n ≤ p.attempts := Nat.le.intro hleft
    unfold runFrom
    split
    · next value h => exact ends_of_ending? hpos hle hreaches (ending?_eq_done_iff.2 ⟨rfl, h⟩)
    · next e h =>
      split
      · next hpermanent =>
        exact ends_of_ending? hpos hle hreaches
          (ending?_eq_permanent_iff.2 ⟨rfl, h, by simpa using hpermanent⟩)
      · next hmendable =>
        exact ih (Nat.succ_pos n) ((Nat.succ_add_eq_add_succ n left).trans hleft)
          (hreaches.succ ⟨e, h, by simpa using hmendable⟩)

theorem ends_run (p : RetryPolicy) (mendable : ε → Bool) (outcome : Nat → Except ε α) :
    p.Ends mendable outcome (p.run mendable outcome) :=
  ends_runFrom Nat.one_pos (Nat.add_sub_cancel' p.attempts_pos) reaches_one

theorem run_eq_iff {r : Attempted ε α} :
    p.run mendable outcome = r ↔ p.Ends mendable outcome r :=
  ⟨fun h => h ▸ ends_run p mendable outcome, (ends_run p mendable outcome).unique⟩

/-! ## The loop -/

/-- After attempt `n` the loop asks for a wait. -/
structure AsksToWait (p : RetryPolicy) (mendable : ε → Bool) (outcome : Nat → Except ε α)
    (n : Nat) : Prop where
  pos : 0 < n
  lt : n < p.attempts
  reaches : Reaches mendable outcome (n + 1)

/-- The attempts from `first` to `last`, and in between the sleeps for the waits. -/
def rounds (wait : Nat → Duration) (first last : Nat) : List Act :=
  (List.range' first (last - first)).flatMap (fun n => .call :: pause (wait n)) ++ [.call]

theorem rounds_self (n : Nat) : rounds wait n n = [.call] := by
  rw [rounds, Nat.sub_self]
  rfl

theorem rounds_of_lt {first last : Nat} (h : first < last) :
    rounds wait first last = .call :: pause (wait first) ++ rounds wait (first + 1) last := by
  obtain ⟨n, rfl⟩ : ∃ n, last = first + n + 1 := ⟨last - first - 1, by omega⟩
  have hlength : first + n + 1 - first = n + 1 := by omega
  have hrest : first + n + 1 - (first + 1) = n := by omega
  simp only [rounds, hlength, hrest, List.range'_succ, List.flatMap_cons, List.append_assoc]

theorem count_call_round (d : Duration) (acts : List Act) :
    (.call :: pause d ++ acts).count .call = acts.count .call + 1 := by
  unfold pause
  split <;> simp

theorem count_call_rounds {first last : Nat} (h : first ≤ last) :
    (rounds wait first last).count .call = last - first + 1 := by
  obtain ⟨n, rfl⟩ := Nat.exists_eq_add_of_le h
  induction n generalizing first with
  | zero =>
    rw [Nat.add_zero, rounds_self, Nat.sub_self]
    rfl
  | succ n ih =>
    have hlast : first + (n + 1) = first + 1 + n := by omega
    rw [hlast, rounds_of_lt (by omega), count_call_round, ih (Nat.le_add_right _ n)]
    omega

/-- As long as attempts are left there is room in the counter. -/
theorem exists_count? {made : UInt32} (h : made.toNat < p.attempts) :
    ∃ n, count? made = some n ∧ n.toNat = made.toNat + 1 := by
  have hcount : count? made = some (made + 1) := by
    have := p.attempts_lt
    exact if_pos (by omega)
  exact ⟨made + 1, hcount, toNat_of_count? hcount⟩

/-- The loop calls once at least, and no more often than the policy allows. Its counter does not
overflow, whatever is drawn. -/
theorem loopFrom_bounded (p : RetryPolicy) (mendable : ε → Bool) (outcome : Nat → Except ε α)
    (draw : Nat → Option Binary64) {made : UInt32} (hmade : made.toNat < p.attempts) :
    0 < (p.loopFrom mendable outcome draw made).1.count .call ∧
      made.toNat + (p.loopFrom mendable outcome draw made).1.count .call ≤ p.attempts ∧
      (p.loopFrom mendable outcome draw made).2 ≠ .error .overflow := by
  fun_induction loopFrom p mendable outcome draw made with
  | case1 made hfull =>
    obtain ⟨n, hcount, -⟩ := exists_count? hmade
    cases hfull.symm.trans hcount
  | case2 made n hcount r hended => simpa using Nat.succ_le_of_lt hmade
  | case3 made n hcount hnone hwait => simpa using Nat.succ_le_of_lt hmade
  | case4 made n hcount hnone d hwait acts ended hrest ih =>
    have hn := toNat_of_count? hcount
    simp only [hrest] at ih
    obtain ⟨-, hle, hcounted⟩ := ih (ending?_eq_none_iff.1 hnone).2
    dsimp only
    rw [count_call_round]
    exact ⟨Nat.succ_pos _, by omega, hcounted⟩

/-- As long as there is a wait whenever the loop asks for one, it gets to the attempt that ends the
run, and sleeps for the waits on the way. -/
theorem loopFrom_ends
    (hwaits : ∀ n, p.AsksToWait mendable outcome n → p.delay? (draw n) = some (wait n))
    {made : UInt32} (hmade : made.toNat < p.attempts)
    (hreaches : Reaches mendable outcome (made.toNat + 1)) :
    ∃ r, p.Ends mendable outcome r ∧ made.toNat < r.attempts ∧
      p.loopFrom mendable outcome draw made =
        (rounds wait (made.toNat + 1) r.attempts, .ok r) := by
  fun_induction loopFrom p mendable outcome draw made with
  | case1 made hfull =>
    obtain ⟨n, hcount, -⟩ := exists_count? hmade
    cases hfull.symm.trans hcount
  | case2 made n hcount r hended =>
    have hn := toNat_of_count? hcount
    rw [← hn] at hreaches ⊢
    have hattempts := attempts_of_ending? hended
    refine ⟨r, ends_of_ending? (by omega) (by omega) hreaches hended, by omega, ?_⟩
    rw [hattempts, rounds_self]
  | case3 made n hcount hnone hwait =>
    have hn := toNat_of_count? hcount
    obtain ⟨hmendable, hlt⟩ := ending?_eq_none_iff.1 hnone
    cases hwait.symm.trans (hwaits n.toNat ⟨by omega, hlt, (hn ▸ hreaches).succ hmendable⟩)
  | case4 made n hcount hnone d hwait acts ended hrest ih =>
    have hn := toNat_of_count? hcount
    rw [← hn] at hreaches ⊢
    obtain ⟨hmendable, hlt⟩ := ending?_eq_none_iff.1 hnone
    have hlater := hreaches.succ hmendable
    obtain ⟨r, hends, hle, hloop⟩ := ih hlt hlater
    cases hwait.symm.trans (hwaits n.toNat ⟨by omega, hlt, hlater⟩)
    cases hrest.symm.trans hloop
    exact ⟨r, hends, by omega, by rw [rounds_of_lt hle]⟩

theorem loop_bounded (p : RetryPolicy) (mendable : ε → Bool) (outcome : Nat → Except ε α)
    (draw : Nat → Option Binary64) :
    0 < (p.loop mendable outcome draw).1.count .call ∧
      (p.loop mendable outcome draw).1.count .call ≤ p.attempts ∧
      (p.loop mendable outcome draw).2 ≠ .error .overflow := by
  have hmade : (0 : UInt32).toNat < p.attempts := p.attempts_pos
  have hbounded := loopFrom_bounded p mendable outcome draw hmade
  rwa [show (0 : UInt32).toNat = 0 from rfl, Nat.zero_add] at hbounded

/-- The loop ends like the run, with the waits in between. -/
theorem loop_eq_run
    (hwaits : ∀ n, p.AsksToWait mendable outcome n → p.delay? (draw n) = some (wait n)) :
    p.loop mendable outcome draw =
      (rounds wait 1 (p.run mendable outcome).attempts, .ok (p.run mendable outcome)) := by
  have hmade : (0 : UInt32).toNat < p.attempts := p.attempts_pos
  obtain ⟨r, hends, -, hloop⟩ := loopFrom_ends hwaits hmade reaches_one
  rw [run_eq_iff.2 hends]
  exact hloop

/-! ## What callers can rely on -/

theorem delay?_of_isSteady (h : p.isSteady = true) (sample : Option Binary64) :
    p.delay? sample = some p.wait :=
  if_pos h

/-- Which attempt ends a run and how, and what the run does until then, when `wait n` is the wait
after attempt `n`. -/
structure EndsExactly (p : RetryPolicy) (mendable : ε → Bool) (outcome : Nat → Except ε α)
    (draw : Nat → Option Binary64) (wait : Nat → Duration) : Prop where
  returns : ∃ r, (p.loop mendable outcome draw).2 = .ok r
  done (value : α) (n : Nat) :
    (p.loop mendable outcome draw).2 = .ok (.done value n) ↔
      0 < n ∧ n ≤ p.attempts ∧ Reaches mendable outcome n ∧ outcome n = .ok value
  permanent (e : ε) (n : Nat) :
    (p.loop mendable outcome draw).2 = .ok (.permanent e n) ↔
      0 < n ∧ n ≤ p.attempts ∧ Reaches mendable outcome n ∧ outcome n = .error e ∧
        mendable e = false
  exhausted (e : ε) (n : Nat) :
    (p.loop mendable outcome draw).2 = .ok (.exhausted e n) ↔
      n = p.attempts ∧ Reaches mendable outcome (p.attempts + 1) ∧
        outcome p.attempts = .error e
  acts (r : Attempted ε α) (h : (p.loop mendable outcome draw).2 = .ok r) :
    (p.loop mendable outcome draw).1 = rounds wait 1 r.attempts ∧
      (p.loop mendable outcome draw).1.count .call = r.attempts

theorem endsExactly
    (hwaits : ∀ n, p.AsksToWait mendable outcome n → p.delay? (draw n) = some (wait n)) :
    p.EndsExactly mendable outcome draw wait := by
  have hloop := loop_eq_run hwaits
  have hiff : ∀ r, (p.loop mendable outcome draw).2 = .ok r ↔ p.Ends mendable outcome r := by
    intro r
    rw [hloop, Except.ok.injEq, run_eq_iff]
  refine ⟨⟨p.run mendable outcome, by rw [hloop]⟩, fun value n => (hiff _).trans ?_,
    fun e n => (hiff _).trans ?_, fun e n => (hiff _).trans ?_, fun r hr => ?_⟩
  · constructor
    · exact fun h => ⟨h.pos, h.le, h.reaches, (ending?_eq_done_iff.1 h.ending).2⟩
    · rintro ⟨hpos, hle, hreaches, hvalue⟩
      exact ends_of_ending? hpos hle hreaches (ending?_eq_done_iff.2 ⟨rfl, hvalue⟩)
  · constructor
    · exact fun h => ⟨h.pos, h.le, h.reaches, (ending?_eq_permanent_iff.1 h.ending).2⟩
    · rintro ⟨hpos, hle, hreaches, herror⟩
      exact ends_of_ending? hpos hle hreaches (ending?_eq_permanent_iff.2 ⟨rfl, herror⟩)
  · constructor
    · intro h
      -- exhausted means mendable at the last attempt, so none before it ended the loop
      obtain ⟨-, herror, hmendable, hle⟩ := ending?_eq_exhausted_iff.1 h.ending
      obtain rfl : n = p.attempts := Nat.le_antisymm h.le hle
      exact ⟨rfl, h.reaches.succ ⟨e, herror, hmendable⟩, herror⟩
    · rintro ⟨rfl, hreaches, herror⟩
      obtain ⟨e', herror', hmendable⟩ := hreaches p.attempts p.attempts_pos (Nat.lt_succ_self _)
      cases herror.symm.trans herror'
      refine ends_of_ending? p.attempts_pos (Nat.le_refl _)
        (fun k hpos hlt => hreaches k hpos (Nat.lt_succ_of_lt hlt)) ?_
      exact ending?_eq_exhausted_iff.2 ⟨rfl, herror, hmendable, Nat.le_refl _⟩
  · have hpos := ((hiff r).1 hr).pos
    have hacts : (p.loop mendable outcome draw).1 = rounds wait 1 r.attempts := by
      rw [hloop] at hr ⊢
      cases hr
      rfl
    rw [hacts, count_call_rounds hpos]
    exact ⟨rfl, Nat.sub_add_cancel hpos⟩

/-- What callers can rely on: the number of attempts always, and the end of the run as long as there
is a wait whenever the loop asks for one. -/
structure Promised (p : RetryPolicy) (mendable : ε → Bool) (outcome : Nat → Except ε α)
    (draw : Nat → Option Binary64) : Prop where
  attempts : p.attempts = min (p.retries.toNat + 1) 4294967295
  called : 0 < (p.loop mendable outcome draw).1.count .call
  bounded : (p.loop mendable outcome draw).1.count .call ≤ p.attempts
  counted : (p.loop mendable outcome draw).2 ≠ .error .overflow
  /-- Steady waits are always there. -/
  steady (h : p.isSteady = true) (sample : Option Binary64) : p.delay? sample = some p.wait
  /-- Other waits are there below `2 ^ 57` seconds, for a spread in `[0, 1]`. -/
  stretched (h : p.wait.nanos < twoPow 57 * second) {x : Binary64} (hx : x.IsSample) :
    (p.delay? (some x)).isSome
  ends (wait : Nat → Duration)
    (hwaits : ∀ n, p.AsksToWait mendable outcome n → p.delay? (draw n) = some (wait n)) :
    p.EndsExactly mendable outcome draw wait

theorem promised (p : RetryPolicy) (mendable : ε → Bool) (outcome : Nat → Except ε α)
    (draw : Nat → Option Binary64) : p.Promised mendable outcome draw where
  attempts := rfl
  called := (loop_bounded p mendable outcome draw).1
  bounded := (loop_bounded p mendable outcome draw).2.1
  counted := (loop_bounded p mendable outcome draw).2.2
  steady h sample := delay?_of_isSteady h sample
  stretched h _ hx := isSome_delay? hx h
  ends _ hwaits := endsExactly hwaits

end SceneLocks.RetryPolicy
