import SceneLocks.Number.Reader

/-!
# Reading numbers in steps

A way to read a decimal fraction with word arithmetic alone: the digits are gathered into a
64-bit word, as many as it holds, and the word is then scaled by a power of ten. Both steps
round, so the outcome is not always the double nearest to what is spelled.
-/

namespace SceneLocks.Number

namespace Stepwise

/-- Takes digits into a word, up to the first one that does not fit; also the digits left. -/
def gather (word : Nat) : List Char → Nat × List Char
  | [] => (word, [])
  | d :: ds =>
    let next := 10 * word + digitsValue [d]
    if next < UInt64.size then gather next ds else (word, d :: ds)

/-- The double nearest to a power of ten. -/
def powerOfTen (n : Nat) : Binary64 := .ofQuotient false (tenPow n) 1

/-- The exponent of the largest power of ten that is finite. -/
def maxPower : Nat := 308

/-- Divides by the largest power of ten, some times over. -/
def divideDown : Nat → Binary64 → Binary64
  | 0, x => x
  | n + 1, x => if x.isZero then x else divideDown n (x.div (powerOfTen maxPower))

/-- A number times a power of ten; none if it gets too large. -/
def scale? (x : Binary64) (exponent : Int) : Option Binary64 :=
  if x.isZero then some x
  else if 0 ≤ exponent then
    if maxPower < exponent then none
    else
      match x.mul (powerOfTen exponent.toNat) with
      | .infinite _ => none
      | y => some y
  else
    let down := (-exponent).toNat
    -- the last division takes what the ones before it leave over
    let times := (down - 1) / maxPower
    let y := divideDown times x
    some (if y.isZero then y else y.div (powerOfTen (down - times * maxPower)))

end Stepwise

/-- The double that a spelling is read as, step by step; none if it gets too large. Every
digit before the point that the word cannot take counts as a zero, those after the point do
not count. -/
def Spelling.stepwise? (s : Spelling) : Option Binary64 :=
  let (word, dropped) := Stepwise.gather 0 s.whole
  let (word, ignored) := Stepwise.gather word s.fraction
  let taken := s.fraction.length - ignored.length
  Stepwise.scale? (.ofQuotient s.negative word 1) (s.exponent + dropped.length - taken)

end SceneLocks.Number
