import SceneLocks.Proofs.Number.Accuracy
import SceneLocks.Proofs.Settings.Validity
import SceneLocks.Session.Grace

/-!
# Times

What valid settings make of the clock. Their numbers of seconds are durations, to the nearest
nanosecond. But a wait that is stretched need not be one any more, and the clock does not reach as
far as durations do: both limits are stated to the nanosecond.
-/

namespace SceneLocks

open Number Time

/-! ## Durations in seconds -/

theorem Time.cast_second : ((second : ℕ) : ℚ) = 1000000000 := by norm_num

namespace Time.Duration

open Binary64

/-- The seconds of a duration are exact up to three roundings. -/
theorem exists_seconds (d : Duration) :
    ∃ s, d.seconds.Is s ∧ 0 ≤ s ∧
      |s - d.nanos / second| ≤ d.nanos / second * (4 / 2 ^ 53) + 8 * underflow := by
  have hη := underflow_nonneg
  have hη' := underflow_le
  have hwhole : d.nanos / second < twoPow 64 :=
    Nat.div_lt_of_lt_mul (Nat.mul_comm _ second ▸ d.nanos_lt)
  have hrest : d.nanos % second < second := Nat.mod_lt _ (by decide)
  have hexact : (d.nanos / second : ℚ) =
      (d.nanos / second : ℕ) + (d.nanos % second : ℕ) / 1000000000 := by
    rw [cast_second, div_eq_iff (by norm_num), add_mul, div_mul_cancel₀ _ (by norm_num),
      ← cast_second]
    exact_mod_cast (Nat.div_add_mod' d.nanos second).symm
  have hseconds : d.seconds = (ofInt (d.nanos / second : ℕ)).add
      ((ofInt (d.nanos % second : ℕ)).div (ofInt second)) := rfl
  rw [hexact, hseconds]
  -- four roundings: the whole seconds, the rest, the quotient of the rest and the sum
  obtain ⟨a, ha, hra⟩ := ofInt_rounds (hwhole.trans (by decide +kernel))
  obtain ⟨b, hb, hrb⟩ := ofInt_rounds (hrest.trans (by decide +kernel))
  generalize d.nanos / second = whole at *
  generalize d.nanos % second = rest at *
  have hwhole' : (whole : ℚ) ≤ 2 ^ 64 := by exact_mod_cast hwhole.le
  have hrest' : (rest : ℚ) ≤ 1000000000 := by exact_mod_cast hrest.le
  have ha₀ := hra.nonneg whole.cast_nonneg
  have ha₁ := hra.le whole.cast_nonneg
  have hb₀ := hrb.nonneg rest.cast_nonneg
  have hb₁ := hrb.le rest.cast_nonneg
  have hquotient : 0 ≤ b / 1000000000 := by positivity
  have hdivisor : (ofInt second).Is 1000000000 := cast_second ▸ ofInt_second_is
  obtain ⟨c, hc, hrc⟩ := hb.div hdivisor (k := 4) (by norm_num) (by decide +kernel)
    (by rw [abs_of_nonneg hquotient]; push_cast; linarith)
  have hc₀ := hrc.nonneg hquotient
  have hc₁ := hrc.le hquotient
  have hsum : 0 ≤ a + c := by positivity
  obtain ⟨s, hs, hrs⟩ := ha.add hc (k := 2 ^ 66) (by decide +kernel)
    (by rw [abs_of_nonneg hsum]; push_cast; linarith)
  -- each errs by a 2^-53 part of what it rounds and by the underflow
  have ha₂ := hra.ge whole.cast_nonneg
  have hb₂ := hrb.ge rest.cast_nonneg
  have hc₂ := hrc.ge hquotient
  refine ⟨s, hs, hrs.nonneg hsum, abs_le.2 ⟨?_, ?_⟩⟩
  · have := hrs.ge hsum
    linarith
  · have := hrs.le hsum
    linarith

/-- The product of a rounded factor and a rounded number of seconds is exact up to five roundings,
and what an underflow does to it is next to nothing. -/
theorem abs_product_sub_le {f F s S : ℚ} (hf : Rounds F f)
    (hs : |s - S| ≤ S * (4 / 2 ^ 53) + 8 * underflow) (hF : 0 ≤ F) (hF' : F ≤ 2) (hS : 0 ≤ S)
    (hS' : S ≤ 2 ^ 64) : |f * s - F * S| ≤ F * S * (6 / 2 ^ 53) + 2 ^ 66 * underflow := by
  have hη := underflow_nonneg
  have hη' := underflow_le
  have herror := abs_mul_sub_mul_le hf.error hs hF hS
  rw [abs_of_nonneg hF] at herror
  have hexact : 0 ≤ F * S := by positivity
  have hFη : F * underflow ≤ 2 * underflow := by gcongr
  have hSη : S * underflow ≤ 2 ^ 64 * underflow := by gcongr
  have hηη : underflow * underflow ≤ 1 * underflow := by gcongr; linarith
  linarith

/-- A duration that is stretched by one and a sample becomes the nearest duration to a number close
to the exact product. -/
theorem scale?_eq_some_iff (d : Duration) {x : Binary64} {v : ℚ} (hx : x.Is v) (hv : |v| ≤ 1) :
    ∃ q, |q - d.nanos * (1 + v)| ≤ (d.nanos * (1 + v) + 1) / 2 ^ 50 ∧
      ∀ d', d.scale? ((one.add x).larger nought) = some d' ↔ IsNearest d'.nanos q := by
  have hη := underflow_nonneg
  have hη' := underflow_le
  obtain ⟨hge, hle⟩ := abs_le.1 hv
  have hF : 0 ≤ 1 + v := by linarith
  have hF' : 1 + v ≤ 2 := by linarith
  obtain ⟨f, hf, hrf⟩ := one_is.add hx (k := 2) (by decide +kernel)
    (by rw [abs_of_nonneg hF]; exact_mod_cast hF')
  have hf₀ := hrf.nonneg hF
  have hfactor : ((one.add x).larger nought).Is f := max_eq_left hf₀ ▸ hf.larger
  obtain ⟨s, hs, hs₀, hserror⟩ := d.exists_seconds
  have hnanos : (d.nanos : ℚ) = d.nanos / second * 1000000000 := by
    rw [cast_second, div_mul_cancel₀ _ (by norm_num)]
  have hS : (0 : ℚ) ≤ d.nanos / second := by positivity
  have hS' : (d.nanos / second : ℚ) ≤ 2 ^ 64 := by
    rw [div_le_iff₀ (by norm_num)]
    exact_mod_cast d.nanos_lt.le
  rw [hnanos]
  generalize (d.nanos / second : ℚ) = S at hserror hS hS'
  have hexact : (1 + v) * S ≤ 2 * 2 ^ 64 := mul_le_mul hF' hS' hS (by norm_num)
  obtain ⟨hproduct, hproduct'⟩ := abs_le.1 (abs_product_sub_le hrf hserror hF hF' hS hS')
  have hcomputed : 0 ≤ f * s := mul_nonneg hf₀ hs₀
  obtain ⟨p, hp, hrp⟩ := hfactor.mul hs (k := 2 ^ 70) (by decide +kernel)
    (by rw [abs_of_nonneg hcomputed]; push_cast; linarith)
  refine ⟨p * second, ?_, fun d' => ofSeconds?_eq_some_iff hp.value (hrp.nonneg hcomputed) d'⟩
  have hexact₀ : 0 ≤ (1 + v) * S := by positivity
  have hle := hrp.le hcomputed
  have hge := hrp.ge hcomputed
  rw [cast_second, abs_le]
  constructor <;> linarith

/-- A number of seconds that is a duration is the nearest one. -/
theorem ofSeconds_isNearest {x : Binary64} (h : (ofSeconds? x).isSome) :
    ∃ v, x.value? = some v ∧ IsNearest (ofSeconds x).nanos (v * second) := by
  obtain ⟨v, hv, hnonneg⟩ := exists_value_of_isSome h
  obtain ⟨d, hd⟩ := Option.isSome_iff_exists.1 h
  refine ⟨v, hv, ?_⟩
  rw [ofSeconds, hd, Option.getD_some]
  exact (ofSeconds?_eq_some_iff hv hnonneg d).1 hd

/-- The nearest duration exists up to half a nanosecond before the range ends. -/
theorem exists_isNearest_iff {q : ℚ} (hq : 0 ≤ q) :
    (∃ d : Duration, IsNearest d.nanos q) ↔ q < durationRange - 1 / 2 := by
  rw [← exists_isNearest_lt_iff (by decide) hq]
  exact ⟨fun ⟨d, h⟩ => ⟨d.nanos, d.nanos_lt, h⟩, fun ⟨n, hlt, h⟩ => ⟨⟨n, hlt⟩, h⟩⟩

theorem eq_iff_isNearest (d d' : Duration) : d = d' ↔ IsNearest d'.nanos d.nanos := by
  constructor
  · rintro rfl
    exact isNearest_self _
  · intro h
    have hnanos := (isNearest_self d.nanos).unique h
    cases d
    cases d'
    congr

end Time.Duration

/-! ## Waits -/

namespace RetryPolicy

/-- The exact wait for what was drawn from the spread, in nanoseconds. -/
def stretched (p : RetryPolicy) (x : ℚ) : ℚ := p.wait.nanos * max 0 (1 + x)

variable {p : RetryPolicy} {x j : ℚ}

theorem stretched_nonneg (p : RetryPolicy) (x : ℚ) : 0 ≤ p.stretched x := by
  unfold stretched
  positivity

theorem stretched_eq (p : RetryPolicy) (hx : |x| ≤ 1) : p.stretched x = p.wait.nanos * (1 + x) := by
  rw [stretched, max_eq_right (by linarith [(abs_le.1 hx).1])]

/-- If every wait is the same, nothing but zero is drawn, or stretching changes nothing. -/
theorem stretched_of_isSteady (hsteady : p.isSteady) (hj : p.jitter.value? = some j)
    (hx : |x| ≤ j) : p.stretched x = p.wait.nanos := by
  rw [isSteady, Bool.or_eq_true, Bool.or_eq_true, Binary64.lt_nought_iff hj,
    Binary64.eqv_nought_iff hj, ← le_iff_lt_or_eq] at hsteady
  rcases hsteady with hj₀ | hzero
  · obtain rfl : x = 0 := abs_nonpos_iff.1 (hx.trans hj₀)
    simp [stretched]
  · have hnanos : p.wait.nanos = 0 := beq_iff_eq.1 hzero
    simp [stretched, hnanos]

theorem delay?_eq_some_iff {sample : Binary64} {v : ℚ} (hj : p.jitter.value? = some j) (hj₁ : j ≤ 1)
    (hsample : sample.Is v) (hv : |v| ≤ j) :
    ∃ q, |q - p.stretched v| ≤ (p.stretched v + 1) / 2 ^ 50 ∧
      ∀ d, p.delay? (some sample) = some d ↔ IsNearest d.nanos q := by
  unfold delay?
  split
  · next hsteady =>
    refine ⟨p.stretched v, ?_, fun d => ?_⟩
    · have := p.stretched_nonneg v
      rw [sub_self, abs_zero]
      positivity
    · rw [stretched_of_isSteady hsteady hj hv, Option.some.injEq]
      exact Duration.eq_iff_isNearest _ _
  · rw [stretched_eq p (hv.trans hj₁)]
    exact p.wait.scale?_eq_some_iff hsample (hv.trans hj₁)

end RetryPolicy

/-! ## Deadlines -/

/-- A disconnect starts a timer as long as the clock reaches its deadline. -/
theorem Grace.isSome_onDisconnect_iff (g : Grace) (now : Instant) (user : User) :
    (g.onDisconnect now user).2.isSome ↔ now + g.timeout.nanos < clockRange := by
  unfold onDisconnect Instant.after?
  by_cases h : now + g.timeout.nanos < clockRange
  · simp [h]
  · simp [h]

/-! ## Valid settings -/

namespace LockSettings

variable {s : LockSettings}

/-- What settings come to in time, where `t` and `w` are their numbers of seconds and `j` is their
spread. -/
structure Timing (s : LockSettings) (t w j : ℚ) : Prop where
  timeout : s.timeout.value? = some t
  wait : s.wait.value? = some w
  jitter : s.jitter.value? = some j
  /-- The durations are the numbers of seconds, to the nearest nanosecond. -/
  gracePeriod : IsNearest s.gracePeriod.nanos (t * second)
  retryWait : IsNearest s.retryWait.nanos (w * second)
  policy : s.policy = { retries := s.retries, wait := s.retryWait, jitter := s.jitter }
  /-- The exact waits lie within the spread, before they are rounded and after. -/
  within : ∀ x, |x| ≤ j →
    s.retryWait.nanos * (1 - j) ≤ s.policy.stretched x ∧
      s.policy.stretched x ≤ s.retryWait.nanos * (1 + j)
  roundedWithin : ∀ x n low high, |x| ≤ j → IsNearest n (s.policy.stretched x) →
    IsNearest low (s.retryWait.nanos * (1 - j)) → IsNearest high (s.retryWait.nanos * (1 + j)) →
      low ≤ n ∧ n ≤ high
  /-- They all are durations just if the longest one is. -/
  exists_wait : (∀ x, |x| ≤ j → ∃ d : Duration, IsNearest d.nanos (s.policy.stretched x)) ↔
    s.retryWait.nanos * (1 + j) < (durationRange : ℚ) - 1 / 2
  /-- The wait for a sample is the nearest duration to a number close to the exact wait; without
  such a duration there is none. -/
  delay? : ∀ sample v, sample.Is v → |v| ≤ j →
    ∃ q, |q - s.policy.stretched v| ≤ (s.policy.stretched v + 1) / 2 ^ 50 ∧
      ∀ d, s.policy.delay? (some sample) = some d ↔ IsNearest d.nanos q
  /-- The timer for a disconnect exists just if the clock reaches the deadline; without it the
  disconnect breaks off. -/
  deadline : ∀ (g : Grace) (now : Instant) (user : User), g.timeout = s.gracePeriod →
    ((g.onDisconnect now user).2.isSome ↔ now + s.gracePeriod.nanos < clockRange)

/-- Valid settings have durations and a spread, and the waits keep to it. But there is no wait that
is too long for a duration, nor a deadline after the end of the clock. -/
theorem exists_timing (hvalid : s.validate = .ok ()) : ∃ t w j, s.Timing t w j := by
  obtain ⟨htimeout, hwait, -, hjitter⟩ := validate_eq_ok_iff.1 hvalid
  obtain ⟨t, ht, hgrace⟩ := Duration.ofSeconds_isNearest htimeout
  obtain ⟨w, hw, hretry⟩ := Duration.ofSeconds_isNearest hwait
  obtain ⟨j, hj, hj₀, hj₁, hclamp⟩ := Binary64.of_isFraction hjitter
  have hpolicy : s.policy = { retries := s.retries, wait := s.retryWait, jitter := s.jitter } := by
    rw [policy, RetryPolicy.withJitter, hclamp]
  have hwithin : ∀ x, |x| ≤ j → s.retryWait.nanos * (1 - j) ≤ s.policy.stretched x ∧
      s.policy.stretched x ≤ s.retryWait.nanos * (1 + j) := by
    intro x hx
    obtain ⟨hlow, hhigh⟩ := abs_le.1 hx
    rw [RetryPolicy.stretched_eq _ (hx.trans hj₁), hpolicy]
    constructor <;> gcongr
    linarith
  refine ⟨t, w, j, ht, hw, hj, hgrace, hretry, hpolicy, hwithin, ?_, ?_, ?_, ?_⟩
  · intro x n low high hx hn hlow hhigh
    exact ⟨hlow.mono hn (hwithin x hx).1, hn.mono hhigh (hwithin x hx).2⟩
  · constructor
    · intro hall
      have hj' : |j| ≤ j := (abs_of_nonneg hj₀).le
      have hlongest : s.policy.stretched j = s.retryWait.nanos * (1 + j) :=
        s.policy.stretched_eq (hj'.trans hj₁)
      rw [← hlongest]
      exact (Duration.exists_isNearest_iff (s.policy.stretched_nonneg j)).1 (hall j hj')
    · intro hlt x hx
      exact (Duration.exists_isNearest_iff (s.policy.stretched_nonneg x)).2
        ((hwithin x hx).2.trans_lt hlt)
  · intro sample v hsample hv
    exact RetryPolicy.delay?_eq_some_iff (by rw [hpolicy]; exact hj) hj₁ hsample hv
  · rintro g now user hg
    rw [g.isSome_onDisconnect_iff, hg]

/-- Settings near the limits of durations. -/
def extreme : LockSettings where
  timeout := .ofDecimal false 1 19
  wait := .ofDecimal false 18 18
  jitter := .one

/-- Valid settings for which neither a disconnect nor a retry has a time. -/
theorem exists_timing_extreme :
    extreme.validate = .ok () ∧
      (∀ user, (({ timeout := extreme.gracePeriod } : Grace).onDisconnect 0 user).2 = none) ∧
      extreme.policy.delay? (some .one) = none := by
  have hvalid : extreme.validate = .ok () :=
    validate_eq_ok_iff.2 (by constructor <;> decide +kernel)
  obtain ⟨t, w, j, h⟩ := exists_timing hvalid
  refine ⟨hvalid, fun user => ?_, ?_⟩
  · have hdeadline := h.deadline { timeout := extreme.gracePeriod } 0 user rfl
    rw [← Option.not_isSome_iff_eq_none, hdeadline]
    decide +kernel
  · have hj : j = 1 := Option.some.inj (h.jitter.symm.trans Binary64.one_is.value)
    obtain ⟨q, hq, hdelay⟩ := h.delay? .one 1 Binary64.one_is (by rw [hj, abs_one])
    have hexact : extreme.policy.stretched 1 = 36000000000000000000000000000 := by
      rw [extreme.policy.stretched_eq abs_one.le]
      have hwait : extreme.policy.wait.nanos = 18000000000000000000000000000 := by decide +kernel
      rw [hwait]
      norm_num
    rw [hexact] at hq
    rw [Option.eq_none_iff_forall_ne_some]
    intro d hd
    have hnear := (abs_le.1 ((hdelay d).1 hd).near).1
    have hrange : (d.nanos : ℚ) < 18446744073709551616000000000 := by exact_mod_cast d.nanos_lt
    have hlow := (abs_le.1 hq).1
    linarith

end LockSettings

end SceneLocks
