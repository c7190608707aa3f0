import SceneLocks.Number.Binary64

/-!
# Shortest decimals

The decimal digits of a double: the fewest that read back as the same double and, among
those, the nearest to it. On the grid of `n`-digit decimals only the two neighbours of the
number matter, so `n` counts up until one of them falls into the interval of reals that
round to the number.
-/

namespace SceneLocks.Number

/-- The positive decimal `digits · 10 ^ exponent`. -/
structure Decimal where
  digits : Nat
  exponent : Int
deriving DecidableEq, Repr

namespace Decimal

/-- What becomes of a double that lies halfway between two shortest decimals. -/
inductive Tie where
  | up
  | even
deriving DecidableEq, Repr

/-- Strips trailing zeros from the digits. -/
def strip : Nat → Decimal → Decimal
  | 0, d => d
  | n + 1, d =>
    if d.digits % 10 = 0 ∧ d.digits ≠ 0 then strip n ⟨d.digits / 10, d.exponent + 1⟩ else d

/-- The largest `k` with `10 ^ k ≤ num / den`, for positive arguments. -/
def magnitude (num den : Nat) : Int :=
  if den ≤ num then
    ((Nat.toDigits 10 (num / den)).length : Int) - 1
  else
    let k := (Nat.toDigits 10 (den / num)).length
    if num * tenPow (k - 1) < den then -k else -(k - 1 : Int)

/-- The two neighbours of `num / den` on the grid of `n`-digit decimals that lie in the
interval from `low / den` to `high / den`, the nearer one first. -/
def candidate? (tie : Tie) (closed : Bool) (low num high den : Nat) (n : Nat) : Option Decimal :=
  let exponent := magnitude num den - n + 1
  -- the number, its interval and the grid over one common denominator
  let (scale, grid) :=
    if 0 ≤ exponent then (1, den * tenPow exponent.toNat) else (tenPow (-exponent).toNat, den)
  let value := num * scale
  let floor := value / grid
  let inside (c : Nat) : Bool :=
    if closed then low * scale ≤ c * grid ∧ c * grid ≤ high * scale
    else low * scale < c * grid ∧ c * grid < high * scale
  let below := value - floor * grid
  let above := (floor + 1) * grid - value
  let preferUp := above < below ∨ (above = below ∧ (tie = .up ∨ floor % 2 = 1))
  let (first, second) := if preferUp then (floor + 1, floor) else (floor, floor + 1)
  if inside first ∧ first ≠ 0 then some ⟨first, exponent⟩
  else if inside second ∧ second ≠ 0 then some ⟨second, exponent⟩
  else none

/-- The shortest decimal of `mantissa · 2 ^ exponent`, a positive double. -/
def shortest (tie : Tie) (mantissa : Nat) (exponent : Int) : Decimal :=
  -- quarter steps, so that both ends of the interval are whole
  let narrow := mantissa = twoPow 52 ∧ Binary64.minExponent < exponent
  let low := 4 * mantissa - (if narrow then 1 else 2)
  let high := 4 * mantissa + 2
  let (scale, den) :=
    if 2 ≤ exponent then (twoPow (exponent - 2).toNat, 1) else (1, twoPow (2 - exponent).toNat)
  let closed := mantissa % 2 == 0
  let found := (List.range 17).findSome? fun n =>
    candidate? tie closed (low * scale) (4 * mantissa * scale) (high * scale) den (n + 1)
  strip 20 (found.getD ⟨4 * mantissa * scale / den, 0⟩)

/-- The digits as text. -/
def text (d : Decimal) : List Char := Nat.toDigits 10 d.digits

/-- The power of ten just above the number: it is `0.digits · 10 ^ point`. -/
def point (d : Decimal) : Int := d.text.length + d.exponent

/-- Positional notation, without an exponent and without a fraction of zero. -/
def positional (d : Decimal) : String :=
  let ds := d.text
  let zeros (n : Int) := List.replicate n.toNat '0'
  if d.point ≤ 0 then String.ofList ('0' :: '.' :: zeros (-d.point) ++ ds)
  else if 0 ≤ d.exponent then String.ofList (ds ++ zeros d.exponent)
  else String.ofList (ds.take d.point.toNat ++ '.' :: ds.drop d.point.toNat)

/-- Scientific notation with at least one digit, its exponent signed either way. -/
def scientific (d : Decimal) : String :=
  let e := d.point - 1
  let mark := (if 0 ≤ e then "e+" else "e-") ++ toString e.natAbs
  match d.text with
  | [] => "0" ++ mark
  | [c] => c.toString ++ mark
  | c :: rest => c.toString ++ "." ++ String.ofList rest ++ mark

end Decimal

namespace Binary64

/-- The plain text of a double: shortest digits, never an exponent, no fraction of zero. -/
def text : Binary64 → String
  | .nan => "NaN"
  | .infinite negative => if negative then "-inf" else "inf"
  | .finite negative mantissa exponent =>
    let body := if mantissa = 0 then "0" else (Decimal.shortest .up mantissa exponent).positional
    if negative then "-" ++ body else body

end Binary64

end SceneLocks.Number
