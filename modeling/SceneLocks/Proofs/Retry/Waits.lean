import Mathlib.Tactic.Ring
import SceneLocks.Retry

/-!
# Waits that exist

A wait below `2 ^ 57` seconds can be stretched by whatever is drawn from a spread in `[0, 1]`. Each
operation on doubles rounds its exact result to at most twice as much, and there is room for that:
the bounds are kept in whole numbers, so nothing has to be said about where exactly a rounding goes.
-/

namespace SceneLocks

open Time

namespace Number

theorem twoPow_pos (n : Nat) : 0 < twoPow n := Nat.two_pow_pos n

theorem twoPow_add (n m : Nat) : twoPow (n + m) = twoPow n * twoPow m := Nat.pow_add 2 n m

/-- Rounding gives at most twice the quotient. -/
theorem roundQuotient_mul_le (num den : Nat) : roundQuotient num den * den ≤ 2 * num := by
  have hdivision : num / den * den + num % den = num := Nat.div_add_mod' num den
  unfold roundQuotient
  dsimp only
  split
  · omega
  · next hlow =>
    -- rounding up adds the denominator, which is at most twice the rest then
    have hup : (num / den + 1) * den ≤ 2 * num := by
      rw [Nat.add_mul, Nat.one_mul]
      omega
    split
    · exact hup
    · exact Nat.le_trans (Nat.mul_le_mul_right den (by omega)) hup

namespace Binary64

/-- A number is not negative, and at most `k`: it is a whole number of smallest steps, of which
`2 ^ 1074` make one. -/
def AtMost (x : Binary64) (k : Nat) : Prop :=
  ∃ m i : Nat, x = .finite false m (minExponent + i) ∧ m * twoPow i ≤ k * twoPow 1074

theorem AtMost.mono {x : Binary64} {k k' : Nat} (h : x.AtMost k) (hle : k ≤ k') : x.AtMost k' := by
  obtain ⟨m, i, hx, hm⟩ := h
  exact ⟨m, i, hx, Nat.le_trans hm (Nat.mul_le_mul_right _ hle)⟩

theorem atMost_zero (k : Nat) : (zero false).AtMost k :=
  ⟨0, 0, rfl, Nat.le_trans (Nat.le_of_eq (Nat.zero_mul _)) (Nat.zero_le _)⟩

theorem steps_mul_le (num den i : Nat) :
    steps num den (minExponent + i) * twoPow i * den ≤ 2 * num * twoPow 1074 := by
  unfold steps minExponent
  split
  · obtain ⟨j, rfl⟩ : ∃ j, i = 1074 + j := Nat.exists_eq_add_of_le (by omega)
    rw [show (-1074 + ((1074 + j : Nat) : Int)).toNat = j by omega]
    calc roundQuotient num (den * twoPow j) * twoPow (1074 + j) * den
        = roundQuotient num (den * twoPow j) * (den * twoPow j) * twoPow 1074 := by
          rw [twoPow_add]
          ring
      _ ≤ 2 * num * twoPow 1074 := Nat.mul_le_mul_right _ (roundQuotient_mul_le num _)
  · obtain ⟨j, hj⟩ : ∃ j, 1074 = i + j := Nat.exists_eq_add_of_le (by omega)
    rw [show (-(-1074 + (i : Int))).toNat = j by omega]
    calc roundQuotient (num * twoPow j) den * twoPow i * den
        = roundQuotient (num * twoPow j) den * den * twoPow i := by ring
      _ ≤ 2 * (num * twoPow j) * twoPow i := Nat.mul_le_mul_right _ (roundQuotient_mul_le _ den)
      _ = 2 * num * twoPow 1074 := by
          rw [hj, twoPow_add]
          ring

/-- The magnitude of a quotient that is not too large is small, and so is its exponent. -/
theorem binaryMagnitude_le {num den k : Nat} (hnum : num ≠ 0) (hk : k < twoPow 100)
    (h : num ≤ k * den) : binaryMagnitude num den ≤ 100 := by
  have hden : den < twoPow (den.log2 + 1) := Nat.lt_log2_self
  have hlt : num < twoPow (den.log2 + 101) := by
    calc num ≤ k * den := h
      _ < twoPow 100 * twoPow (den.log2 + 1) := Nat.mul_lt_mul'' hk hden
      _ = twoPow (den.log2 + 101) := by
          rw [← twoPow_add]
          congr 1
          omega
  have hlog : num.log2 < den.log2 + 101 := (Nat.log2_lt hnum).2 hlt
  unfold binaryMagnitude
  dsimp only
  split <;> omega

theorem atMost_ofQuotient {num den k : Nat} (hden : 0 < den) (hk : k < twoPow 100)
    (h : num ≤ k * den) : (ofQuotient false num den).AtMost (2 * k) := by
  unfold ofQuotient
  split
  · exact atMost_zero _
  · next hnum =>
    have hmagnitude := binaryMagnitude_le hnum hk h
    obtain ⟨i, hi⟩ : ∃ i : Nat, max (binaryMagnitude num den - 52) minExponent = minExponent + i :=
      (Int.le.dest (Int.le_max_right _ _)).imp fun _ h => h.symm
    have hrange : minExponent + i + 1 ≤ maxExponent := by
      have : max (binaryMagnitude num den - 52) minExponent ≤ 48 :=
        Int.max_le.2 ⟨by omega, by decide⟩
      have : maxExponent = 971 := rfl
      omega
    have hsteps : steps num den (minExponent + i) * twoPow i ≤ 2 * k * twoPow 1074 := by
      refine Nat.le_of_mul_le_mul_right ?_ hden
      calc steps num den (minExponent + i) * twoPow i * den
          ≤ 2 * num * twoPow 1074 := steps_mul_le num den i
        _ ≤ 2 * (k * den) * twoPow 1074 :=
            Nat.mul_le_mul_right _ (Nat.mul_le_mul_left 2 h)
        _ = 2 * k * twoPow 1074 * den := by ring
    dsimp only
    rw [hi]
    split
    · next hfull =>
      -- a full mantissa is halved, and the exponent makes up for it
      rw [if_neg (by omega)]
      refine ⟨twoPow 52, i + 1, by rw [Int.add_assoc]; rfl, ?_⟩
      rw [hfull] at hsteps
      calc twoPow 52 * twoPow (i + 1) = twoPow 53 * twoPow i := by
            rw [← twoPow_add, ← twoPow_add]
            congr 1
            omega
        _ ≤ 2 * k * twoPow 1074 := hsteps
    · rw [if_neg (by omega)]
      exact ⟨_, i, rfl, hsteps⟩

theorem atMost_ofScaled {num den k p q : Nat} {e : Int} (he : e = p - q) (hden : 0 < den)
    (hk : k < twoPow 100) (h : num * twoPow p ≤ k * den * twoPow q) :
    (ofScaled false num den e).AtMost (2 * k) := by
  unfold ofScaled
  split
  · obtain ⟨j, rfl⟩ : ∃ j, p = q + j := Nat.exists_eq_add_of_le (by omega)
    rw [show e.toNat = j by omega]
    refine atMost_ofQuotient hden hk (Nat.le_of_mul_le_mul_right ?_ (twoPow_pos q))
    calc num * twoPow j * twoPow q = num * twoPow (q + j) := by
          rw [twoPow_add]
          ring
      _ ≤ k * den * twoPow q := h
  · obtain ⟨j, rfl⟩ : ∃ j, q = p + j := Nat.exists_eq_add_of_le (by omega)
    rw [show (-e).toNat = j by omega]
    refine atMost_ofQuotient (Nat.mul_pos hden (twoPow_pos j)) hk
      (Nat.le_of_mul_le_mul_right ?_ (twoPow_pos p))
    calc num * twoPow p ≤ k * den * twoPow (p + j) := h
      _ = k * (den * twoPow j) * twoPow p := by
          rw [twoPow_add]
          ring

theorem AtMost.mul {x y : Binary64} {k k' : Nat} (hx : x.AtMost k) (hy : y.AtMost k')
    (hk : k * k' < twoPow 100) : (x.mul y).AtMost (2 * (k * k')) := by
  obtain ⟨m, i, rfl, hm⟩ := hx
  obtain ⟨m', i', rfl, hm'⟩ := hy
  refine atMost_ofScaled (p := i + i') (q := 1074 + 1074) ?_ Nat.one_pos hk ?_
  · unfold minExponent
    omega
  · calc m * m' * twoPow (i + i') = m * twoPow i * (m' * twoPow i') := by
          rw [twoPow_add]
          ring
      _ ≤ k * twoPow 1074 * (k' * twoPow 1074) := Nat.mul_le_mul hm hm'
      _ = k * k' * 1 * twoPow (1074 + 1074) := by
          rw [twoPow_add]
          ring

theorem atMost_add_finite {n n' : Bool} {m m' k : Nat} {e e' : Int} (hn : (n && n') = false)
    (hpos : 0 ≤ units n m e + units n' m' e') (hk : k < twoPow 100)
    (h : units n m e + units n' m' e' ≤ (k * twoPow 1074 : Nat)) :
    ((finite n m e).add (finite n' m' e')).AtMost (2 * k) := by
  unfold add
  dsimp only
  obtain ⟨sum, hsum⟩ := Int.eq_ofNat_of_zero_le hpos
  rw [hsum] at h ⊢
  split
  · rw [hn]
    exact atMost_zero _
  · rw [show decide ((sum : Int) < 0) = false by simp]
    refine atMost_ofScaled (p := 0) (q := 1074) rfl Nat.one_pos hk ?_
    calc (sum : Int).natAbs * twoPow 0 = sum := Nat.mul_one sum
      _ ≤ k * twoPow 1074 := Int.ofNat_le.1 h
      _ = k * 1 * twoPow 1074 := by rw [Nat.mul_one]

theorem AtMost.add {x y : Binary64} {k k' : Nat} (hx : x.AtMost k) (hy : y.AtMost k')
    (hk : k + k' < twoPow 100) : (x.add y).AtMost (2 * (k + k')) := by
  obtain ⟨m, i, rfl, hm⟩ := hx
  obtain ⟨m', i', rfl, hm'⟩ := hy
  have hunits : ∀ m i : Nat, units false m (minExponent + i) = (m * twoPow i : Nat) := by
    intro m i
    unfold units
    rw [show (minExponent + (i : Int) - minExponent).toNat = i by omega]
    rfl
  refine atMost_add_finite rfl ?_ hk ?_
  · rw [hunits, hunits]
    omega
  · rw [hunits, hunits, Nat.add_mul]
    omega

theorem AtMost.larger {x : Binary64} {k : Nat} (hx : x.AtMost k) : (x.larger nought).AtMost k := by
  obtain ⟨m, i, rfl, hm⟩ := hx
  have hlarger : (finite false m (minExponent + i)).larger nought =
      if (finite false m (minExponent + i)).lt nought then nought
      else finite false m (minExponent + i) := rfl
  rw [hlarger]
  split
  · exact atMost_zero k
  · exact ⟨m, i, rfl, hm⟩

theorem atMost_ofInt {n : Nat} (hn : n < twoPow 100) : (ofInt n).AtMost (2 * n) := by
  unfold ofInt
  rw [show decide ((n : Int) < 0) = false by simp]
  exact atMost_ofQuotient Nat.one_pos hn (Nat.le_of_eq (Nat.mul_one n).symm)

theorem ofInt_second : ofInt second = .finite false (second * twoPow 23) (minExponent + 1051) := by
  decide +kernel

theorem AtMost.div_second {x : Binary64} {k : Nat} (hx : x.AtMost (k * second))
    (hk : k < twoPow 100) : (x.div (ofInt second)).AtMost (2 * k) := by
  obtain ⟨m, i, rfl, hm⟩ := hx
  rw [ofInt_second]
  unfold div
  dsimp only
  rw [if_pos (by decide +kernel)]
  refine atMost_ofScaled (p := i) (q := 1051) ?_ (by decide +kernel) hk ?_
  · omega
  · calc m * twoPow i ≤ k * second * twoPow (23 + 1051) := hm
      _ = k * (second * twoPow 23) * twoPow 1051 := by
          rw [twoPow_add]
          ring

/-- A number between minus one and one. -/
structure IsSample (x : Binary64) : Prop where
  ne_nan : x ≠ .nan
  ge : x.lt (ofInt (-1)) = false
  le : one.lt x = false

theorem one_eq : one = .finite false (twoPow 52) (-52) := by decide +kernel

theorem ofInt_neg_one : ofInt (-1) = .finite true (twoPow 52) (-52) := by decide +kernel

theorem IsSample.add_one {x : Binary64} (h : x.IsSample) : (one.add x).AtMost 4 := by
  have hge := h.ge
  have hle := h.le
  rw [ofInt_neg_one] at hge
  rw [one_eq] at hle ⊢
  cases x with
  | nan => exact absurd rfl h.ne_nan
  | infinite n => cases n <;> simp [lt] at hge hle
  | finite n m e =>
    simp only [lt, decide_eq_false_iff_not, Int.not_lt] at hge hle
    have hone : units false (twoPow 52) (-52) = (twoPow 1074 : Nat) := by decide +kernel
    have hminus : units true (twoPow 52) (-52) = -(twoPow 1074 : Nat) := by decide +kernel
    rw [hminus] at hge
    rw [hone] at hle
    refine atMost_add_finite (k := 2) rfl ?_ (by decide +kernel) ?_
    · rw [hone]
      omega
    · rw [hone, Nat.two_mul]
      omega

end Binary64

end Number

namespace Time.Duration

open Number

theorem isSome_ofSeconds? {x : Binary64} {k : Nat} (hx : x.AtMost k)
    (hk : 2 * k * second < durationRange) : (ofSeconds? x).isSome := by
  obtain ⟨m, i, rfl, hm⟩ := hx
  have hnanos : ∀ nanos : Nat, nanos ≤ 2 * k * second →
      (if h : nanos < durationRange then some (⟨nanos, h⟩ : Duration) else none).isSome := by
    intro nanos hle
    rw [dif_pos (Nat.lt_of_le_of_lt hle hk)]
    rfl
  unfold ofSeconds?
  dsimp only
  rw [if_neg (by simp)]
  apply hnanos
  unfold Binary64.minExponent
  -- the number is `m * 2 ^ (i - 1074)`: a whole number, or one that is rounded
  split
  · obtain ⟨j, rfl⟩ : ∃ j, i = 1074 + j := Nat.exists_eq_add_of_le (by omega)
    rw [show (-1074 + ((1074 + j : Nat) : Int)).toNat = j by omega]
    have hle : m * twoPow j ≤ k := by
      refine Nat.le_of_mul_le_mul_right ?_ (twoPow_pos 1074)
      calc m * twoPow j * twoPow 1074 = m * twoPow (1074 + j) := by
            rw [twoPow_add]
            ring
        _ ≤ k * twoPow 1074 := hm
    exact Nat.mul_le_mul_right second (Nat.le_trans hle (Nat.le_mul_of_pos_left k Nat.two_pos))
  · obtain ⟨j, hj⟩ : ∃ j, 1074 = i + j := Nat.exists_eq_add_of_le (by omega)
    rw [show (-(-1074 + (i : Int))).toNat = j by omega]
    have hle : m ≤ k * twoPow j := by
      refine Nat.le_of_mul_le_mul_right ?_ (twoPow_pos i)
      calc m * twoPow i ≤ k * twoPow 1074 := hm
        _ = k * twoPow j * twoPow i := by
          rw [hj, twoPow_add]
          ring
    refine Nat.le_of_mul_le_mul_right ?_ (twoPow_pos j)
    calc roundQuotient (m * second) (twoPow j) * twoPow j
        ≤ 2 * (m * second) := roundQuotient_mul_le _ _
      _ ≤ 2 * (k * twoPow j * second) :=
          Nat.mul_le_mul_left 2 (Nat.mul_le_mul_right second hle)
      _ = 2 * k * second * twoPow j := by ring

theorem atMost_seconds (d : Duration) : d.seconds.AtMost (4 * (d.nanos / second) + 8) := by
  have hwhole : d.nanos / second < twoPow 64 :=
    Nat.div_lt_of_lt_mul (Nat.mul_comm _ second ▸ d.nanos_lt)
  have hrest : d.nanos % second < second := Nat.mod_lt _ (by decide)
  have hsecond : second < twoPow 64 := by decide +kernel
  have hroom : twoPow 64 * 4 + 4 < twoPow 100 := by decide +kernel
  have hle : 2 * (d.nanos % second) ≤ 2 * second := by omega
  have hfraction := ((Binary64.atMost_ofInt (n := d.nanos % second) (by omega)).mono
    hle).div_second (by decide +kernel)
  have hsum := (Binary64.atMost_ofInt (n := d.nanos / second) (by omega)).add hfraction (by omega)
  exact hsum.mono (by omega)

end Time.Duration

namespace RetryPolicy

open Number

/-- Whatever is drawn from a spread in `[0, 1]`, a wait below `2 ^ 57` seconds can be stretched. -/
theorem isSome_delay? {p : RetryPolicy} {x : Binary64} (hx : x.IsSample)
    (hwait : p.wait.nanos < twoPow 57 * second) : (p.delay? (some x)).isSome := by
  unfold delay?
  split
  · rfl
  · have hseconds : p.wait.nanos / second < twoPow 57 :=
      Nat.div_lt_of_lt_mul (Nat.mul_comm _ second ▸ hwait)
    have hroom : 4 * (4 * twoPow 57 + 8) < twoPow 100 := by decide +kernel
    have hproduct := hx.add_one.larger.mul p.wait.atMost_seconds (by omega)
    apply Duration.isSome_ofSeconds? hproduct
    have hrange : durationRange = twoPow 64 * second := rfl
    rw [hrange]
    refine Nat.mul_lt_mul_of_pos_right ?_ (by decide)
    have htwice : 64 * twoPow 57 + 128 ≤ twoPow 64 := by decide +kernel
    omega

end RetryPolicy

end SceneLocks
