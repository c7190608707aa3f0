import Mathlib.Algebra.Order.Field.Power
import SceneLocks.Proofs.Number.Nearest
import SceneLocks.Proofs.Retry.Waits

/-!
# Accuracy

The doubles as rational numbers, and how far each operation is from the exact one: by a relative
error of `2 ^ -53`, or, next to zero, by half a smallest step.
-/

namespace SceneLocks

namespace Number

/-! ## Powers of two -/

theorem cast_twoPow (k : ℕ) : (twoPow k : ℚ) = 2 ^ (k : ℤ) := by
  unfold twoPow
  rw [Nat.pow_eq, Nat.cast_pow, zpow_natCast]
  rfl

theorem twoPow_toNat {e : ℤ} (h : 0 ≤ e) : (twoPow e.toNat : ℚ) = 2 ^ e := by
  rw [cast_twoPow, Int.toNat_of_nonneg h]

/-! ## Products of approximations -/

theorem abs_mul_sub_mul_le {f F s S α β : ℚ} (hf : |f - F| ≤ α) (hs : |s - S| ≤ β) (hF : 0 ≤ F)
    (hS : 0 ≤ S) : |f * s - F * S| ≤ F * β + α * S + α * β := by
  have hα : 0 ≤ α := (abs_nonneg _).trans hf
  calc |f * s - F * S| = |F * (s - S) + (f - F) * S + (f - F) * (s - S)| := by
        congr 1
        ring
    _ ≤ |F * (s - S)| + |(f - F) * S| + |(f - F) * (s - S)| := abs_add_three _ _ _
    _ = F * |s - S| + |f - F| * S + |f - F| * |s - S| := by
        rw [abs_mul, abs_mul, abs_mul, abs_of_nonneg hF, abs_of_nonneg hS]
    _ ≤ F * β + α * S + α * β := by gcongr

namespace Binary64

/-! ## Doubles as rational numbers -/

/-- The factor that makes a number negative. -/
def sign (negative : Bool) : ℚ := if negative then -1 else 1

/-- The rational number that a finite double is. -/
def value? : Binary64 → Option ℚ
  | .finite negative mantissa exponent => some (sign negative * (mantissa * 2 ^ exponent))
  | _ => none

/-- Whether a finite number is a whole number of smallest steps, as all doubles are. -/
def IsProper : Binary64 → Prop
  | .finite _ _ exponent => minExponent ≤ exponent
  | _ => True

/-- A double is a rational number. -/
structure Is (x : Binary64) (v : ℚ) : Prop where
  proper : x.IsProper
  value : x.value? = some v

variable {x y : Binary64} {v v' : ℚ} {n n' : Bool} {m m' : ℕ} {e e' : ℤ}

theorem sign_false : sign false = 1 := rfl

theorem sign_true : sign true = -1 := rfl

theorem sign_bne (n n' : Bool) : sign (n != n') = sign n * sign n' := by
  cases n <;> cases n' <;> norm_num [sign]

theorem abs_sign (n : Bool) : |sign n| = 1 := by
  cases n <;> norm_num [sign]

theorem Is.exists_finite (h : x.Is v) :
    ∃ n m e, x = .finite n m e ∧ minExponent ≤ e ∧ v = sign n * (m * 2 ^ e) := by
  obtain ⟨hproper, hvalue⟩ := h
  cases x with
  | nan => cases hvalue
  | infinite n => cases hvalue
  | finite n m e => exact ⟨n, m, e, rfl, hproper, (Option.some.inj hvalue).symm⟩

theorem is_finite (h : minExponent ≤ e) : (finite n m e).Is (sign n * (m * 2 ^ e)) := ⟨h, rfl⟩

theorem is_zero (n : Bool) : (zero n).Is 0 := ⟨le_rfl, by simp [zero, value?]⟩

/-! ## Rounding -/

/-- The largest error of a rounding next to zero: half a smallest step. -/
def underflow : ℚ := 2 ^ (-1075 : ℤ)

theorem underflow_nonneg : 0 ≤ underflow := by unfold underflow; positivity

theorem underflow_le : underflow ≤ 1 / 2 ^ 200 := by
  rw [underflow, one_div, ← zpow_natCast, ← zpow_neg]
  exact zpow_le_zpow_right₀ one_le_two (by norm_num)

/-- A number is another one, rounded: it does not become negative, and the error is small. -/
structure Rounds (q r : ℚ) : Prop where
  nonneg : 0 ≤ q → 0 ≤ r
  error : |r - q| ≤ |q| / 2 ^ 53 + underflow

theorem Rounds.le {q r : ℚ} (h : Rounds q r) (hq : 0 ≤ q) : r ≤ q + (q / 2 ^ 53 + underflow) := by
  have herror := (abs_le.1 h.error).2
  rw [abs_of_nonneg hq] at herror
  linarith

theorem Rounds.ge {q r : ℚ} (h : Rounds q r) (hq : 0 ≤ q) : q - (q / 2 ^ 53 + underflow) ≤ r := by
  have herror := (abs_le.1 h.error).1
  rw [abs_of_nonneg hq] at herror
  linarith

theorem zpow_binaryMagnitude_le {num den : ℕ} (hnum : num ≠ 0) (hden : 0 < den) :
    (2 : ℚ) ^ binaryMagnitude num den ≤ num / den := by
  have hpos : (0 : ℚ) < den := by exact_mod_cast hden
  have hnumLog : (2 : ℚ) ^ (num.log2 : ℤ) ≤ num := by
    rw [zpow_natCast]
    exact_mod_cast Nat.log2_self_le hnum
  have hdenLog : (den : ℚ) ≤ 2 ^ ((den.log2 : ℤ) + 1) := by
    rw [← Nat.cast_succ, zpow_natCast]
    exact_mod_cast Nat.lt_log2_self.le
  rw [le_div_iff₀ hpos]
  unfold binaryMagnitude
  dsimp only
  generalize hk : (num.log2 : ℤ) - den.log2 = k
  -- the difference of the two logarithms is the magnitude or one too much
  have hlower : (2 : ℚ) ^ (k - 1) * den ≤ num :=
    calc (2 : ℚ) ^ (k - 1) * den ≤ 2 ^ (k - 1) * 2 ^ ((den.log2 : ℤ) + 1) := by gcongr
      _ = 2 ^ (num.log2 : ℤ) := by
          rw [← zpow_add₀ two_ne_zero]
          congr 1
          omega
      _ ≤ num := hnumLog
  split
  · next hsign =>
    split
    · next hreached =>
      rw [← twoPow_toNat hsign, mul_comm]
      exact_mod_cast hreached
    · exact hlower
  · next hsign =>
    split
    · next hreached =>
      have hscaled : (den : ℚ) ≤ num * 2 ^ (-k) := by
        rw [← twoPow_toNat (by omega)]
        exact_mod_cast hreached
      calc (2 : ℚ) ^ k * den ≤ 2 ^ k * (num * 2 ^ (-k)) := by gcongr
        _ = num := by
          rw [mul_left_comm, ← zpow_add₀ two_ne_zero, add_neg_cancel, zpow_zero, mul_one]
    · exact hlower

theorem isNearest_steps (num : ℕ) {den : ℕ} (hden : 0 < den) (e : ℤ) :
    IsNearest (steps num den e) (num / den / 2 ^ e) := by
  unfold steps
  split
  · next hsign =>
    have hnearest := isNearest_roundQuotient num (Nat.mul_pos hden (twoPow_pos e.toNat))
    rwa [Nat.cast_mul, twoPow_toNat hsign, ← div_div] at hnearest
  · next hsign =>
    have hnearest := isNearest_roundQuotient (num * twoPow (-e).toNat) hden
    rwa [Nat.cast_mul, twoPow_toNat (by omega), zpow_neg, ← div_eq_mul_inv, div_right_comm]
      at hnearest

/-- A quotient becomes a whole number of steps of some size, the nearest one. -/
theorem exists_ofQuotient (n : Bool) {num den k : ℕ} (hnum : num ≠ 0) (hden : 0 < den)
    (hk : k < twoPow 100) (h : num ≤ k * den) :
    ∃ (m : ℕ) (e : ℤ), (ofQuotient n num den).Is (sign n * (m * 2 ^ e)) ∧
      IsNearest m (num / den / 2 ^ e) ∧ e = max (binaryMagnitude num den - 52) minExponent := by
  have hmagnitude := binaryMagnitude_le hnum hk h
  unfold ofQuotient
  rw [if_neg hnum]
  dsimp only
  generalize he : max (binaryMagnitude num den - 52) minExponent = e
  have hmin : minExponent ≤ e := he ▸ le_max_right _ _
  have hmax : e + 1 ≤ maxExponent := by
    have : e ≤ 48 := he ▸ max_le (by omega) (by decide)
    have : maxExponent = 971 := rfl
    omega
  refine ⟨_, e, ?_, isNearest_steps num hden e, rfl⟩
  split
  · next hfull =>
    rw [if_neg (by omega), hfull]
    have hvalue : ((twoPow 53 : ℕ) : ℚ) * 2 ^ e = (twoPow 52 : ℕ) * 2 ^ (e + 1) := by
      rw [zpow_add_one₀ two_ne_zero, show twoPow 53 = twoPow 52 * 2 from rfl]
      push_cast
      ring
    rw [hvalue]
    exact is_finite (by omega)
  · rw [if_neg (by omega)]
    exact is_finite hmin

/-- Half a step is small beside the quotient, unless it is half of the smallest one. -/
theorem half_step_le {num den : ℕ} (hnum : num ≠ 0) (hden : 0 < den) :
    (2 : ℚ) ^ max (binaryMagnitude num den - 52) minExponent / 2 ≤
      num / den / 2 ^ 53 + underflow := by
  rcases max_choice (binaryMagnitude num den - 52) minExponent with hmax | hmax
  · have hmagnitude := zpow_binaryMagnitude_le hnum hden
    have hpow : (2 : ℚ) ^ (binaryMagnitude num den - 52) / 2 =
        2 ^ binaryMagnitude num den / 2 ^ 53 := by
      rw [zpow_sub₀ (two_ne_zero' ℚ), div_div]
      norm_num
    rw [hmax, hpow]
    exact le_add_of_le_of_nonneg (by gcongr) underflow_nonneg
  · have hpow : (2 : ℚ) ^ minExponent / 2 = underflow := by
      rw [div_eq_mul_inv, ← zpow_sub_one₀ (two_ne_zero' ℚ)]
      rfl
    rw [hmax, hpow]
    exact le_add_of_nonneg_left (by positivity)

theorem ofQuotient_rounds (n : Bool) {num den k : ℕ} (hden : 0 < den) (hk : k < twoPow 100)
    (h : num ≤ k * den) :
    ∃ r, (ofQuotient n num den).Is r ∧ Rounds (sign n * (num / den)) r := by
  by_cases hnum : num = 0
  · refine ⟨0, ?_, fun _ => le_rfl, ?_⟩
    · rw [ofQuotient, if_pos hnum]
      exact is_zero n
    · simpa [hnum] using underflow_nonneg
  have hpos : (0 : ℚ) < num / den := by positivity
  obtain ⟨m, e, hvalue, hnearest, he⟩ := exists_ofQuotient n hnum hden hk h
  refine ⟨_, hvalue, ?_, ?_⟩
  · cases n with
    | false =>
      intro _
      rw [sign_false]
      positivity
    | true =>
      intro hneg
      rw [sign_true] at hneg
      linarith
  · rw [← mul_sub, abs_mul, abs_mul, abs_sign, one_mul, one_mul, abs_of_pos hpos]
    refine (hnearest.abs_mul_sub_le (by positivity)).trans ?_
    rw [he]
    exact half_step_le hnum hden

theorem ofScaled_rounds (n : Bool) {num den k : ℕ} {e : ℤ} (hden : 0 < den) (hk : k < twoPow 100)
    (h : (num / den * 2 ^ e : ℚ) ≤ k) :
    ∃ r, (ofScaled n num den e).Is r ∧ Rounds (sign n * (num / den * 2 ^ e)) r := by
  have hpos : (0 : ℚ) < den := by exact_mod_cast hden
  unfold ofScaled
  split
  · next hsign =>
    rw [← twoPow_toNat hsign, div_mul_eq_mul_div, ← Nat.cast_mul] at h ⊢
    refine ofQuotient_rounds n hden hk ?_
    rw [div_le_iff₀ hpos] at h
    exact_mod_cast h
  · next hsign =>
    have hpow : (2 : ℚ) ^ e = (twoPow (-e).toNat : ℚ)⁻¹ := by
      rw [twoPow_toNat (by omega), zpow_neg, inv_inv]
    have hscaled : (num / den * 2 ^ e : ℚ) = num / (den * twoPow (-e).toNat : ℕ) := by
      rw [hpow, ← div_eq_mul_inv, div_div, Nat.cast_mul]
    have hden' : 0 < den * twoPow (-e).toNat := Nat.mul_pos hden (twoPow_pos _)
    rw [hscaled] at h ⊢
    refine ofQuotient_rounds n hden' hk ?_
    rw [div_le_iff₀ (by exact_mod_cast hden')] at h
    exact_mod_cast h

/-! ## Operations -/

theorem Is.mul {k : ℕ} (hx : x.Is v) (hy : y.Is v') (hk : k < twoPow 100) (h : |v * v'| ≤ k) :
    ∃ r, (x.mul y).Is r ∧ Rounds (v * v') r := by
  obtain ⟨n, m, e, rfl, -, rfl⟩ := hx.exists_finite
  obtain ⟨n', m', e', rfl, -, rfl⟩ := hy.exists_finite
  have hvalue : sign n * (m * 2 ^ e) * (sign n' * (m' * 2 ^ e')) =
      sign (n != n') * ((m * m' : ℕ) / (1 : ℕ) * 2 ^ (e + e')) := by
    rw [sign_bne, zpow_add₀ two_ne_zero]
    push_cast
    ring
  rw [hvalue] at h ⊢
  rw [abs_mul, abs_sign, one_mul, abs_of_nonneg (by positivity)] at h
  exact ofScaled_rounds _ Nat.one_pos hk h

theorem Is.div {k : ℕ} (hx : x.Is v) (hy : y.Is v') (hne : v' ≠ 0) (hk : k < twoPow 100)
    (h : |v / v'| ≤ k) : ∃ r, (x.div y).Is r ∧ Rounds (v / v') r := by
  obtain ⟨n, m, e, rfl, -, rfl⟩ := hx.exists_finite
  obtain ⟨n', m', e', rfl, -, rfl⟩ := hy.exists_finite
  have hm' : m' ≠ 0 := by
    rintro rfl
    simp at hne
  have hvalue : sign n * (m * 2 ^ e) / (sign n' * (m' * 2 ^ e')) =
      sign (n != n') * (m / m' * 2 ^ (e - e')) := by
    have hinv : (sign n')⁻¹ = sign n' := by cases n' <;> norm_num [sign]
    rw [sign_bne, zpow_sub₀ two_ne_zero, div_eq_mul_inv, mul_inv, mul_inv, hinv]
    ring
  rw [hvalue] at h ⊢
  rw [abs_mul, abs_sign, one_mul, abs_of_nonneg (by positivity)] at h
  unfold div
  dsimp only
  rw [if_pos hm']
  exact ofScaled_rounds _ (Nat.pos_of_ne_zero hm') hk h

/-- The units in a number: `2 ^ 1074`, for whole numbers of smallest steps. -/
def unitScale (e : ℤ) : ℚ := twoPow (e - minExponent).toNat / 2 ^ e

theorem units_eq (n : Bool) (m : ℕ) (e : ℤ) :
    (units n m e : ℚ) = sign n * (m * 2 ^ e) * unitScale e := by
  have hpow : (2 : ℚ) ^ e * unitScale e = twoPow (e - minExponent).toNat :=
    mul_div_cancel₀ _ (by positivity)
  rw [mul_assoc, mul_assoc, hpow]
  cases n <;> simp [units, sign]

theorem unitScale_of_le (h : minExponent ≤ e) : unitScale e = 2 ^ (-minExponent) := by
  rw [unitScale, twoPow_toNat (by omega), ← zpow_sub₀ two_ne_zero]
  congr 1
  omega

theorem le_unitScale (e : ℤ) : 2 ^ (-minExponent) ≤ unitScale e := by
  rw [unitScale, cast_twoPow, ← zpow_sub₀ two_ne_zero]
  exact zpow_le_zpow_right₀ one_le_two (by omega)

theorem unitScale_pos (e : ℤ) : 0 < unitScale e :=
  lt_of_lt_of_le (by positivity) (le_unitScale e)

theorem Is.add {k : ℕ} (hx : x.Is v) (hy : y.Is v') (hk : k < twoPow 100) (h : |v + v'| ≤ k) :
    ∃ r, (x.add y).Is r ∧ Rounds (v + v') r := by
  obtain ⟨n, m, e, rfl, he, rfl⟩ := hx.exists_finite
  obtain ⟨n', m', e', rfl, he', rfl⟩ := hy.exists_finite
  generalize hsum : units n m e + units n' m' e' = sum
  have hvalue : sign n * (m * 2 ^ e) + sign n' * (m' * 2 ^ e') = sum * 2 ^ minExponent := by
    rw [← hsum, Int.cast_add, units_eq, units_eq, unitScale_of_le he, unitScale_of_le he',
      ← add_mul, mul_assoc, ← zpow_add₀ two_ne_zero, neg_add_cancel, zpow_zero, mul_one]
  rw [hvalue] at h ⊢
  unfold add
  dsimp only
  rw [hsum]
  split
  · next hzero =>
    refine ⟨0, is_zero _, fun _ => le_rfl, ?_⟩
    simpa [hzero] using underflow_nonneg
  · have hsign : (sum : ℚ) * 2 ^ minExponent =
        sign (sum < 0) * (sum.natAbs / (1 : ℕ) * 2 ^ minExponent) := by
      rw [Nat.cast_natAbs, Nat.cast_one, div_one, Int.cast_abs]
      rcases lt_or_ge sum 0 with hneg | hnonneg
      · rw [decide_eq_true hneg, sign_true, abs_of_neg (by exact_mod_cast hneg)]
        ring
      · rw [decide_eq_false (not_lt.2 hnonneg), sign_false, one_mul,
          abs_of_nonneg (by exact_mod_cast hnonneg)]
    rw [hsign] at h ⊢
    rw [abs_mul, abs_sign, one_mul, abs_of_nonneg (by positivity)] at h
    exact ofScaled_rounds _ Nat.one_pos hk h

theorem units_nought : units false 0 minExponent = 0 := by decide

theorem lt_nought_iff (hx : x.value? = some v) : x.lt nought ↔ v < 0 := by
  cases x with
  | nan => cases hx
  | infinite n => cases hx
  | finite n m e =>
    cases hx
    have hlt : (finite n m e).lt nought ↔ units n m e < 0 := by
      rw [← units_nought]
      exact decide_eq_true_iff
    rw [hlt, ← mul_lt_mul_iff_left₀ (unitScale_pos e), zero_mul, ← units_eq n m e]
    exact Int.cast_lt_zero.symm

theorem eqv_nought_iff (hx : x.value? = some v) : x.eqv nought ↔ v = 0 := by
  cases x with
  | nan => cases hx
  | infinite n => cases hx
  | finite n m e =>
    cases hx
    have heqv : (finite n m e).eqv nought ↔ units n m e = 0 := by
      rw [← units_nought]
      exact beq_iff_eq
    rw [heqv, ← mul_eq_zero_iff_right (unitScale_pos e).ne', ← units_eq n m e]
    exact Int.cast_eq_zero.symm

theorem Is.larger (hx : x.Is v) : (x.larger nought).Is (max v 0) := by
  have hlt := lt_nought_iff hx.value
  obtain ⟨n, m, e, rfl, -, -⟩ := hx.exists_finite
  have hlarger : (finite n m e).larger nought =
      if (finite n m e).lt nought then nought else finite n m e := rfl
  rw [hlarger]
  split
  · next h =>
    rw [max_eq_right (hlt.1 h).le]
    exact is_zero false
  · next h =>
    rw [max_eq_left (not_lt.1 (mt hlt.2 h))]
    exact hx

theorem one_is : one.Is 1 := by
  rw [one_eq]
  refine ⟨(by decide : minExponent ≤ -52), ?_⟩
  rw [value?, sign_false, one_mul, show twoPow 52 = 2 ^ 52 from rfl]
  norm_num

theorem ofInt_second_is : (ofInt Time.second).Is Time.second := by
  rw [ofInt_second]
  refine ⟨(by decide : minExponent ≤ minExponent + 1051), ?_⟩
  rw [value?, sign_false, one_mul, show twoPow 23 = 2 ^ 23 from rfl]
  norm_num [minExponent]

theorem value_nonneg_iff : 0 ≤ sign n * (m * 2 ^ e) ↔ ¬ (n ∧ m ≠ 0) := by
  have hpos : (0 : ℚ) < 2 ^ e := by positivity
  cases n with
  | false => simp [sign_false, hpos.le, mul_nonneg]
  | true => simp [sign_true, mul_nonpos_iff, hpos.le, hpos.not_ge]

theorem isFraction_finite_iff :
    (finite n m e).isFraction ↔
      (finite n m e).lt nought = false ∧ one.lt (finite n m e) = false := by
  unfold isFraction
  rw [one_eq]
  simp only [nought, zero, lt, eqv, Bool.and_eq_true, Bool.or_eq_true, decide_eq_true_eq,
    beq_iff_eq, decide_eq_false_iff_not]
  omega

/-- A number in `[0, 1]` stays in place when it is moved there. -/
theorem of_isFraction (h : x.isFraction) :
    ∃ v, x.value? = some v ∧ 0 ≤ v ∧ v ≤ 1 ∧ x.clamp nought one = x := by
  cases x with
  | nan => cases h
  | infinite n => cases n <;> cases h
  | finite n m e =>
    obtain ⟨hnonneg, hle⟩ := isFraction_finite_iff.1 h
    have hclamp : (finite n m e).clamp nought one = finite n m e := by
      rw [clamp, hnonneg, hle]
      rfl
    have hvalue : 0 ≤ sign n * (m * 2 ^ e) := by
      have hlt := lt_nought_iff (x := finite n m e) rfl
      rw [hnonneg] at hlt
      exact not_lt.1 (mt hlt.2 Bool.false_ne_true)
    have hunits : (units n m e : ℚ) ≤ units false (twoPow 52) (-52) := by
      rw [one_eq] at hle
      exact_mod_cast not_lt.1 (of_decide_eq_false hle)
    have hone : (finite false (twoPow 52) (-52)).value? = some 1 := by
      rw [← one_eq]
      exact one_is.value
    rw [units_eq, units_eq, Option.some.inj hone,
      unitScale_of_le (by decide : minExponent ≤ -52), one_mul] at hunits
    refine ⟨_, rfl, hvalue, ?_, hclamp⟩
    -- a number that is no whole number of steps has too many units, and is small all the more
    have hscale := le_unitScale e
    have hpos : (0 : ℚ) < 2 ^ (-minExponent) := by positivity
    generalize (2 : ℚ) ^ (-minExponent) = unit at *
    refine le_of_mul_le_mul_right ?_ hpos
    calc sign n * (m * 2 ^ e) * unit ≤ sign n * (m * 2 ^ e) * unitScale e := by gcongr
      _ ≤ unit := hunits
      _ = 1 * unit := (one_mul _).symm

theorem ofInt_rounds {k : ℕ} (hk : k < twoPow 100) : ∃ r, (ofInt k).Is r ∧ Rounds k r := by
  have h := ofQuotient_rounds false Nat.one_pos hk (Nat.mul_one k).ge
  rw [sign_false, one_mul, Nat.cast_one, div_one] at h
  unfold ofInt
  rwa [show decide ((k : ℤ) < 0) = false by simp]

end Binary64

end Number

/-! ## Durations -/

namespace Time.Duration

open Number

variable {x : Binary64} {v : ℚ}

/-- A number of seconds becomes the nearest number of nanoseconds, if there is such a duration. -/
theorem ofSeconds?_eq_some_iff (hx : x.value? = some v) (hv : 0 ≤ v) (d : Duration) :
    ofSeconds? x = some d ↔ IsNearest d.nanos (v * second) := by
  cases x with
  | nan => cases hx
  | infinite n => cases hx
  | finite n m e =>
    cases hx
    have hsign := Binary64.value_nonneg_iff.1 hv
    have habs : Binary64.sign n * (m * 2 ^ e) = m * 2 ^ e := by
      cases n with
      | false => rw [Binary64.sign_false, one_mul]
      | true => simp_all
    unfold ofSeconds?
    dsimp only
    rw [if_neg hsign, habs]
    generalize hnanos : (if 0 ≤ e then m * twoPow e.toNat * second
      else roundQuotient (m * second) (twoPow (-e).toNat)) = nanos
    -- what is computed is nearest, so it is the only number that is
    have hnearest : IsNearest nanos (m * 2 ^ e * second) := by
      rw [← hnanos]
      split
      · next he =>
        rw [← twoPow_toNat he]
        exact_mod_cast isNearest_self _
      · next he =>
        have h := isNearest_roundQuotient (m * second) (twoPow_pos (-e).toNat)
        rwa [twoPow_toNat (by omega), zpow_neg, div_inv_eq_mul, Nat.cast_mul, mul_right_comm] at h
    split
    · constructor
      · rintro ⟨⟩
        exact hnearest
      · intro h
        obtain rfl := hnearest.unique h
        rfl
    · next hrange =>
      refine iff_of_false nofun fun h => hrange ?_
      rw [hnearest.unique h]
      exact d.nanos_lt

theorem exists_value_of_isSome (h : (ofSeconds? x).isSome) : ∃ v, x.value? = some v ∧ 0 ≤ v := by
  cases x with
  | nan => cases h
  | infinite n => cases h
  | finite n m e =>
    refine ⟨_, rfl, Binary64.value_nonneg_iff.2 fun hsign => ?_⟩
    unfold ofSeconds? at h
    dsimp only at h
    rw [if_pos hsign] at h
    cases h

end Time.Duration

end SceneLocks
