import HackToolchain.Text

/-!
Decimal numbers rounded to 64-bit floating point: to the nearest value with a significand of 53 bits,
and of two nearest ones to that with an even significand.
-/

namespace HackToolchain.Yaml

/-- A floating-point value. A finite one is its significand times a power of two. -/
inductive Real
  | finite (negative : Bool) (significand : Nat) (exponent : Int)
  | infinite (negative : Bool)
  | undefined
deriving DecidableEq, Repr

namespace Real

/-- A quotient rounded to the nearest integer, a half to the even neighbour. -/
def roundDiv (n d : Nat) : Nat :=
  let q := n / d
  let r := n % d
  if d < 2 * r ∨ (2 * r = d ∧ q % 2 = 1) then q + 1 else q

/-- A power of two as a numerator and a denominator. -/
def power (exponent : Int) : Nat × Nat := (Nat.pow 2 exponent.toNat, Nat.pow 2 (-exponent).toNat)

/-- The significand and exponent nearest to a positive quotient. -/
def nearest (n d : Nat) : Nat × Int :=
  let guess : Int := (n.log2 : Int) - d.log2 - 52
  let (up, down) := power guess
  let exponent := max (if n * down < 0x10000000000000 * (d * up) then guess - 1 else guess) (-1074)
  let (up, down) := power exponent
  (roundDiv (n * down) (d * up), exponent)

/-- The value nearest to a number of tenths, hundredths and so on, if it is finite. -/
def ofDecimal? (negative : Bool) (digits : Nat) (scale : Int) : Option Real :=
  let position := (Text.ofNat digits).length + scale
  if digits = 0 ∨ position < -400 then some (.finite negative 0 0)
  else if 400 < position then none
  else
    let (significand, exponent) := nearest (digits * Nat.pow 10 scale.toNat) (Nat.pow 10 (-scale).toNat)
    if significand * (power exponent).1 < Nat.pow 2 1024 * (power exponent).2 then
      some (.finite negative significand exponent)
    else none

/-- The whole part as a 64-bit word. Values above 2^63 have none; the others beyond the words become the
least word. -/
def toWord? : Real → Option Int
  | .finite negative significand exponent =>
    let whole : Int := significand * (power exponent).1 / (power exponent).2
    let n := if negative then -whole else whole
    if 0x8000000000000000 < n then none else some (if Text.fitsWord n then n else Text.leastWord)
  | .infinite true => some Text.leastWord
  | .infinite false | .undefined => none

end Real

end HackToolchain.Yaml
