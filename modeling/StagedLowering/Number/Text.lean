import StagedLowering.Number.Shortest

/-!
How a number is written in target source. A float always shows that it is one: positional notation
keeps at least one digit after the point, and magnitudes below `10 ^ -4` or from `10 ^ 16` on are
written with an exponent.
-/
namespace StagedLowering

namespace Decimal

/-- The exponents of ten, of the leading digit, that are written positionally. -/
def positionalFrom : Int := -4
def positionalBelow : Int := 16

def zeros (n : Nat) : String := String.ofList (List.replicate n '0')

/-- `digits` with the point after the first `point` of them, zeros filling what is missing. -/
def positional (d : Decimal) : String :=
  let digits := String.ofList d.digits
  if d.point ≤ 0 then "0." ++ zeros (-d.point).toNat ++ digits
  else
    let whole := d.point.toNat
    if d.digits.length ≤ whole then digits ++ zeros (whole - d.digits.length) ++ ".0"
    else String.ofList (d.digits.take whole) ++ "." ++ String.ofList (d.digits.drop whole)

/-- One digit, the rest behind a point if there is a rest, and the exponent of the first digit. -/
def scientific (d : Decimal) : String :=
  let lead := String.ofList (d.digits.take 1)
  let rest := d.digits.drop 1
  lead ++ (if rest.isEmpty then "" else "." ++ String.ofList rest) ++ "e" ++ toString (d.point - 1)

def text (d : Decimal) : String :=
  if positionalFrom ≤ d.point - 1 && d.point - 1 < positionalBelow then d.positional
  else d.scientific

end Decimal

namespace Double

/-- The text of a float: `2.0`, `-0.0`, `1e16`, `1.5e-5`, `inf`, `NaN`. -/
def text (d : Double) : String :=
  if d.isNaN then "NaN"
  else
    (if d.negative then "-" else "") ++
      if !d.finite then "inf"
      else if d.quanta = 0 then "0.0"
      else d.shortest.text

end Double

end StagedLowering
