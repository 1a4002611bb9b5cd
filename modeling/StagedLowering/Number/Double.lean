/-!
Binary64 numbers as bit patterns. A finite magnitude is a whole number of `quantum`s, the least
positive one, so rounding, products and quotients are exact arithmetic on natural numbers. `nearest`
is the only place that rounds: to the closest magnitude, a tie going to the even significand.
-/
namespace StagedLowering

/-- A binary64 datum, told apart by its bits: `0.0` and `-0.0` differ here, and so do two NaNs. -/
structure Double where
  bits : UInt64
  deriving DecidableEq, Repr, Inhabited

namespace Double

/-- `quantum⁻¹`: the least positive magnitude is `1 / 2 ^ 1074`. -/
def unit : Nat := Nat.pow 2 1074

def infinityBits : Nat := 2047 * Nat.pow 2 52

def negative (d : Double) : Bool := Nat.pow 2 63 ≤ d.bits.toNat
def exponent (d : Double) : Nat := d.bits.toNat / Nat.pow 2 52 % Nat.pow 2 11
def fraction (d : Double) : Nat := d.bits.toNat % Nat.pow 2 52
def finite (d : Double) : Bool := d.exponent != 2047
def isNaN (d : Double) : Bool := d.exponent == 2047 && d.fraction != 0

/-- The significand, with its leading bit unless the number is subnormal. -/
def significand (d : Double) : Nat :=
  if d.exponent = 0 then d.fraction else Nat.pow 2 52 + d.fraction

/-- The significand counts steps of `2 ^ shift` quanta. -/
def shift (d : Double) : Nat := d.exponent - 1

/-- The magnitude of a finite number, in quanta. -/
def quanta (d : Double) : Nat := d.significand * Nat.pow 2 d.shift

/-- The same magnitude with the sign `negative`. -/
def withSign (d : Double) (negative : Bool) : Double :=
  ⟨UInt64.ofNat (d.bits.toNat % Nat.pow 2 63 + if negative then Nat.pow 2 63 else 0)⟩

def zero : Double := ⟨0⟩

/-- The non-negative number closest to `num / den`; a tie goes to the even significand, and what is
at least half a step beyond the largest finite number becomes infinite. A carry out of the
significand runs into the exponent bits, which is the next power of two. -/
def nearest (num den : Nat) : Double :=
  let total := num * unit
  let shift := (total / den).log2 - 52
  let step := den * Nat.pow 2 shift
  let whole := total / step
  let rest := total % step
  let rounded :=
    if step < 2 * rest || (2 * rest == step && whole % 2 == 1) then whole + 1 else whole
  ⟨UInt64.ofNat (min (shift * Nat.pow 2 52 + rounded) infinityBits)⟩

def ofNat (n : Nat) : Double := nearest n 1

def ofInt (i : Int) : Double := (ofNat i.natAbs).withSign (i < 0)

/-- The product of two finite magnitudes. -/
def scaleUp (a b : Double) : Double := nearest (a.quanta * b.quanta) (unit * unit)

/-- The quotient of two finite magnitudes. -/
def scaleDown (a b : Double) : Double := nearest a.quanta b.quanta

/-- Equality of values: the two zeros agree and a NaN equals nothing. -/
def sameValue (a b : Double) : Bool :=
  !a.isNaN && !b.isNaN &&
    (a == b || (a.bits.toNat % Nat.pow 2 63 == 0 && b.bits.toNat % Nat.pow 2 63 == 0))

end Double

end StagedLowering
