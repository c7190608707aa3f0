/-!
# Double-precision numbers

The values of the 64-bit binary floating-point format as exact numbers: a finite one is
`± mantissa · 2 ^ exponent`, a whole number of steps of `2 ^ -1074`. Comparison, rounding
into the format and conversion out of it are integer arithmetic. Every rounding of this library,
of seconds to nanoseconds as of decimals to binary, is that of a quotient of natural numbers to
the nearest one.
-/

namespace SceneLocks.Number

/-! ## Rounding quotients -/

/-- A power of two. -/
def twoPow (n : Nat) : Nat := Nat.pow 2 n

/-- A power of ten. -/
def tenPow (n : Nat) : Nat := Nat.pow 10 n

/-- The natural number nearest to `num / den`; a half goes to the even neighbour. -/
def roundQuotient (num den : Nat) : Nat :=
  let low := num / den
  let rest := 2 * (num % den)
  if rest < den then low
  else if den < rest then low + 1
  else low + low % 2

/-! ## The format -/

/-- A double-precision number. The two zeros are told apart, the NaNs are not. -/
inductive Binary64 where
  | nan
  | infinite (negative : Bool)
  /-- `± mantissa · 2 ^ exponent`. -/
  | finite (negative : Bool) (mantissa : Nat) (exponent : Int)
deriving DecidableEq, Repr, Inhabited

namespace Binary64

/-- The exponent of the smallest step. -/
def minExponent : Int := -1074

/-- The exponent of the largest binade. -/
def maxExponent : Int := 971

/-- Zero, with its sign. -/
def zero (negative : Bool) : Binary64 := .finite negative 0 minExponent

/-! ## Rounding into the format -/

/-- The largest `k` with `2 ^ k ≤ num / den`, for positive arguments. -/
def binaryMagnitude (num den : Nat) : Int :=
  let k : Int := num.log2 - den.log2
  let reached := if 0 ≤ k then den * twoPow k.toNat ≤ num else den ≤ num * twoPow (-k).toNat
  if reached then k else k - 1

/-- `num / den` in steps of `2 ^ exponent`, rounded to nearest even. -/
def steps (num den : Nat) (exponent : Int) : Nat :=
  if 0 ≤ exponent then roundQuotient num (den * twoPow exponent.toNat)
  else roundQuotient (num * twoPow (-exponent).toNat) den

/-- The double nearest to `± num / den`, ties to even; too large a quotient is infinite. -/
def ofQuotient (negative : Bool) (num den : Nat) : Binary64 :=
  if num = 0 then zero negative
  else
    let exponent := max (binaryMagnitude num den - 52) minExponent
    let mantissa := steps num den exponent
    let (mantissa, exponent) :=
      if mantissa = twoPow 53 then (twoPow 52, exponent + 1) else (mantissa, exponent)
    if maxExponent < exponent then .infinite negative
    else .finite negative mantissa exponent

/-- The double nearest to a whole number. -/
def ofInt (n : Int) : Binary64 := ofQuotient (n < 0) n.natAbs 1

/-- The double nearest to `± digits · 10 ^ exponent`. Beyond the format's range the answer
is known from the magnitude alone, which bounds the work for any exponent. -/
def ofDecimal (negative : Bool) (digits : Nat) (exponent : Int) : Binary64 :=
  if digits = 0 then zero negative
  else
    let magnitude := (Nat.toDigits 10 digits).length + exponent
    if 310 < magnitude then .infinite negative
    else if magnitude < -330 then zero negative
    else if 0 ≤ exponent then ofQuotient negative (digits * tenPow exponent.toNat) 1
    else ofQuotient negative digits (tenPow (-exponent).toNat)

/-! ## Products and quotients -/

/-- The double nearest to `± num / den · 2 ^ exponent`. -/
def ofScaled (negative : Bool) (num den : Nat) (exponent : Int) : Binary64 :=
  if 0 ≤ exponent then ofQuotient negative (num * twoPow exponent.toNat) den
  else ofQuotient negative num (den * twoPow (-exponent).toNat)

/-- The rounded product. -/
def mul : Binary64 → Binary64 → Binary64
  | .nan, _ | _, .nan => .nan
  | .infinite n, .infinite n' => .infinite (n != n')
  | .infinite n, .finite n' m _ | .finite n m _, .infinite n' =>
    if m = 0 then .nan else .infinite (n != n')
  | .finite n m e, .finite n' m' e' => ofScaled (n != n') (m * m') 1 (e + e')

/-- The rounded quotient. -/
def div : Binary64 → Binary64 → Binary64
  | .nan, _ | _, .nan | .infinite _, .infinite _ => .nan
  | .infinite n, .finite n' _ _ => .infinite (n != n')
  | .finite n _ _, .infinite n' => zero (n != n')
  | .finite n m e, .finite n' m' e' =>
    if m' ≠ 0 then ofScaled (n != n') m m' (e - e')
    else if m ≠ 0 then .infinite (n != n')
    else .nan

/-! ## Sums and comparison -/

/-- A finite number as a count of smallest steps. -/
def units (negative : Bool) (mantissa : Nat) (exponent : Int) : Int :=
  let n : Int := mantissa * twoPow (exponent - minExponent).toNat
  if negative then -n else n

/-- The rounded sum. -/
def add : Binary64 → Binary64 → Binary64
  | .nan, _ | _, .nan => .nan
  | .infinite n, .infinite n' => if n = n' then .infinite n else .nan
  | .infinite n, .finite .. | .finite .., .infinite n => .infinite n
  | .finite n m e, .finite n' m' e' =>
    let sum := units n m e + units n' m' e'
    if sum = 0 then zero (n && n') else ofScaled (sum < 0) sum.natAbs 1 minExponent

/-- Strictly less; false as soon as one side is NaN. -/
def lt : Binary64 → Binary64 → Bool
  | .nan, _ => false
  | _, .nan => false
  | .infinite n, .infinite m => n && !m
  | .infinite n, .finite .. => n
  | .finite .., .infinite m => !m
  | .finite n m e, .finite n' m' e' => units n m e < units n' m' e'

/-- Equal as numbers: the zeros are equal, NaN equals nothing. -/
def eqv : Binary64 → Binary64 → Bool
  | .infinite n, .infinite m => n == m
  | .finite n m e, .finite n' m' e' => units n m e == units n' m' e'
  | _, _ => false

/-- Moves a number into `[low, high]`; NaN stays. -/
def clamp (x low high : Binary64) : Binary64 :=
  if x.lt low then low else if high.lt x then high else x

/-- Positive zero. -/
def nought : Binary64 := zero false

/-- One. -/
def one : Binary64 := ofInt 1

/-- The larger of two numbers; NaN gives way to the other. -/
def larger : Binary64 → Binary64 → Binary64
  | .nan, y => y
  | x, .nan => x
  | x, y => if x.lt y then y else x

/-- Whether a number is one of the zeros. -/
def isZero (x : Binary64) : Bool := x.eqv nought

/-- Whether a number lies in `[0, 1]`; NaN does not. -/
def isFraction (x : Binary64) : Bool :=
  (nought.lt x || nought.eqv x) && (x.lt one || x.eqv one)

/-- Whether a finite number has no fractional part. -/
def isWhole : Binary64 → Bool
  | .finite _ m e => 0 ≤ e || m % twoPow (-e).toNat == 0
  | _ => false

end Binary64

end SceneLocks.Number
