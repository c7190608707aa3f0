import Mathlib.Algebra.Order.Field.Basic
import Mathlib.Algebra.Ring.Parity
import Mathlib.Data.Rat.Lemmas
import Mathlib.Tactic.Linarith
import Mathlib.Tactic.Ring
import SceneLocks.Number.Binary64

/-!
# Nearest numbers

What it takes for a natural number to be the nearest one to a rational: there is just one, it grows
with the rational, and rounding a quotient finds it.
-/

namespace SceneLocks.Number

variable {n n' : ℕ} {q q' : ℚ}

/-- A natural number is nearest to a rational one; where two are, it is the even one. -/
structure IsNearest (n : ℕ) (q : ℚ) : Prop where
  near : |(n : ℚ) - q| ≤ 1 / 2
  even_of_tie : |(n : ℚ) - q| = 1 / 2 → Even n

theorem IsNearest.mono (h : IsNearest n q) (h' : IsNearest n' q') (hle : q ≤ q') : n ≤ n' := by
  by_contra hlt
  have hsucc : (n' : ℚ) + 1 ≤ n := by exact_mod_cast not_le.1 hlt
  obtain ⟨-, habove⟩ := abs_le.1 h.near
  obtain ⟨hbelow, -⟩ := abs_le.1 h'.near
  -- there is room for that only between two ties, but just one of two neighbours is even
  have htie : (n : ℚ) - q = 1 / 2 := by linarith
  have htie' : (n' : ℚ) - q' = -(1 / 2) := by linarith
  have heq : n = n' + 1 := by
    have : (n : ℚ) = n' + 1 := by linarith
    exact_mod_cast this
  have heven : Even n := h.even_of_tie (by rw [htie]; norm_num)
  have heven' : Even n' := h'.even_of_tie (by rw [htie']; norm_num)
  rw [heq] at heven
  exact Nat.even_add_one.1 heven heven'

theorem IsNearest.unique (h : IsNearest n q) (h' : IsNearest n' q) : n = n' :=
  le_antisymm (h.mono h' le_rfl) (h'.mono h le_rfl)

theorem isNearest_self (n : ℕ) : IsNearest n n := by
  constructor <;> norm_num

theorem isNearest_of_lt (h : |(n : ℚ) - q| < 1 / 2) : IsNearest n q :=
  ⟨h.le, fun htie => absurd htie h.ne⟩

theorem isNearest_roundQuotient (num : ℕ) {den : ℕ} (hden : 0 < den) :
    IsNearest (roundQuotient num den) (num / den) := by
  have hpos : (0 : ℚ) < den := by exact_mod_cast hden
  have hquotient : (num : ℚ) / den = (num / den : ℕ) + (num % den : ℕ) / den := by
    rw [div_eq_iff hpos.ne', add_mul, div_mul_cancel₀ _ hpos.ne']
    exact_mod_cast (Nat.div_add_mod' num den).symm
  have hrest : ((num % den : ℕ) : ℚ) / den < 1 := by
    rw [div_lt_one hpos]
    exact_mod_cast Nat.mod_lt num hden
  have hnonneg : (0 : ℚ) ≤ (num % den : ℕ) / den := by positivity
  -- what is left of the quotient decides: below a half, above it, or the tie
  rw [hquotient]
  unfold roundQuotient
  dsimp only
  generalize num / den = low
  split
  · next hlow =>
    have hhalf : ((num % den : ℕ) : ℚ) / den < 1 / 2 := by
      rw [div_lt_div_iff₀ hpos two_pos]
      exact_mod_cast (by omega : num % den * 2 < 1 * den)
    exact isNearest_of_lt (abs_lt.2 ⟨by linarith, by linarith⟩)
  · next hlow =>
    split
    · next hhigh =>
      have hhalf : (1 : ℚ) / 2 < (num % den : ℕ) / den := by
        rw [div_lt_div_iff₀ two_pos hpos]
        exact_mod_cast (by omega : 1 * den < num % den * 2)
      exact isNearest_of_lt (abs_lt.2 ⟨by push_cast; linarith, by push_cast; linarith⟩)
    · next hhigh =>
      have hhalf : ((num % den : ℕ) : ℚ) / den = 1 / 2 := by
        rw [div_eq_div_iff hpos.ne' two_ne_zero]
        exact_mod_cast (by omega : num % den * 2 = 1 * den)
      rw [hhalf]
      rcases Nat.even_or_odd' low with ⟨k, rfl | rfl⟩
      · rw [show 2 * k + 2 * k % 2 = 2 * k by omega]
        exact ⟨by norm_num, fun _ => even_two_mul k⟩
      · rw [show 2 * k + 1 + (2 * k + 1) % 2 = 2 * (k + 1) by omega]
        refine ⟨abs_le.2 ⟨?_, ?_⟩, fun _ => even_two_mul _⟩ <;> push_cast <;> linarith

/-- A quotient in steps of some size is off by half a step at most. -/
theorem IsNearest.abs_mul_sub_le {step : ℚ} (h : IsNearest n (q / step)) (hstep : 0 < step) :
    |n * step - q| ≤ step / 2 := by
  have hscaled : n * step - q = (n - q / step) * step := by
    rw [sub_mul, div_mul_cancel₀ _ hstep.ne']
  rw [hscaled, abs_mul, abs_of_pos hstep]
  calc |(n : ℚ) - q / step| * step ≤ 1 / 2 * step := by
        gcongr
        exact h.near
    _ = step / 2 := by ring

theorem exists_isNearest (hq : 0 ≤ q) : ∃ n, IsNearest n q := by
  have hnum : ((q.num.toNat : ℕ) : ℚ) = q.num := by
    exact_mod_cast Int.toNat_of_nonneg (Rat.num_nonneg.2 hq)
  refine ⟨roundQuotient q.num.toNat q.den, ?_⟩
  have hnearest := isNearest_roundQuotient q.num.toNat q.den_pos
  rwa [hnum, Rat.num_div_den] at hnearest

theorem exists_isNearest_lt_iff {limit : ℕ} (hlimit : Even limit) (hq : 0 ≤ q) :
    (∃ n < limit, IsNearest n q) ↔ q < limit - 1 / 2 := by
  constructor
  · rintro ⟨n, hlt, hnearest⟩
    have hsucc : (n : ℚ) + 1 ≤ limit := by exact_mod_cast hlt
    obtain ⟨hbelow, -⟩ := abs_le.1 hnearest.near
    by_contra hge
    -- the tie at the limit goes to the limit, which is even
    have htie : (n : ℚ) - q = -(1 / 2) := by linarith
    have heq : limit = n + 1 := by
      have : (limit : ℚ) = n + 1 := by linarith
      exact_mod_cast this
    rw [heq] at hlimit
    exact Nat.even_add_one.1 hlimit (hnearest.even_of_tie (by rw [htie]; norm_num))
  · intro hlt
    obtain ⟨n, hnearest⟩ := exists_isNearest hq
    obtain ⟨-, habove⟩ := abs_le.1 hnearest.near
    refine ⟨n, ?_, hnearest⟩
    have : (n : ℚ) < limit := by linarith
    exact_mod_cast this

end SceneLocks.Number
