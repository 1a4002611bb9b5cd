import StagedLowering.Number.Double

/-!
The shortest decimal that reads back as a given binary64 magnitude. The reals that round to a
number form an interval around it; the ends belong to it exactly when the significand is even. For
one digit, two digits and so on up to seventeen, the number's two neighbours on that decimal grid
are tested; the first grid with a hit wins, the nearer of two hits, and an exact tie goes up.

All comparisons are made on whole numbers: a real `x` is measured as `x * 2 ^ 1076 * 10 ^ 340`,
which leaves room for half steps below the least number and for seventeen digits of it.
-/
namespace StagedLowering

/-- The decimal `0.d₁d₂… * 10 ^ point`, with `d₁ ≠ 0` and no trailing zero. -/
structure Decimal where
  digits : List Char
  point : Int
  deriving DecidableEq, Repr

namespace Double

/-- Decimal places below the point that the grids may need. -/
def places : Nat := 340

/-- The magnitude as measured. The factor four makes half of the narrower gap a whole number. -/
def measure (d : Double) : Nat := 4 * d.quanta * Nat.pow 10 places

/-- The interval of reals that round to `d`, as measured; below a power of two the gap is half. -/
def roundingInterval (d : Double) : Nat × Nat :=
  let half := 2 * Nat.pow 2 d.shift
  let below := if d.fraction = 0 && 1 < d.exponent then half / 2 else half
  ((4 * d.quanta - below) * Nat.pow 10 places, (4 * d.quanta + half) * Nat.pow 10 places)

/-- Whether the measured point `x` rounds to `d`. -/
def roundsHere (d : Double) (x : Nat) : Bool :=
  let (low, high) := d.roundingInterval
  if d.significand % 2 = 0 then low ≤ x && x ≤ high else low < x && x < high

/-- The measure of the decimal `10 ^ (place - places)`. -/
def gridStep (place : Nat) : Nat := Nat.pow 10 place * (4 * unit)

/-- The multiple of `10 ^ (place - places)` that reads back as `d`, if a neighbour of `d` does. -/
def gridHit (d : Double) (place : Nat) : Option Nat :=
  let step := gridStep place
  let low := d.measure / step
  let lowHit := d.roundsHere (low * step)
  let highHit := d.roundsHere ((low + 1) * step)
  if lowHit && highHit then
    some (if step ≤ 2 * (d.measure % step) then low + 1 else low)
  else if lowHit then some low
  else if highHit then some (low + 1)
  else none

/-- The first hit on the grids of `fuel` successive places, coarsest first. -/
def firstHit (d : Double) : Nat → Nat → Nat × Nat
  | place, 0 => (place, d.measure / gridStep place)
  | place, fuel + 1 =>
    match d.gridHit place with
    | some multiple => (place, multiple)
    | none => d.firstHit (place - 1) fuel

/-- The place of the leading digit of `d`. -/
def leadingPlace (d : Double) : Nat :=
  (Nat.toDigits 10 (d.measure / (4 * unit))).length - 1

/-- The shortest decimal that reads back as the finite, non-zero magnitude of `d`. -/
def shortest (d : Double) : Decimal :=
  let (place, multiple) := d.firstHit d.leadingPlace 17
  let written := Nat.toDigits 10 multiple
  ⟨(written.reverse.dropWhile (· == '0')).reverse, written.length + place - places⟩

end Double

end StagedLowering
