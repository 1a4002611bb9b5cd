import StagedLowering.Json.Value

/-!
Reading numerals. The significand is gathered in a 64-bit word. A whole digit that no longer fits
shifts the exponent instead, and so do the whole digits after it; fractional digits stop counting
at the first that does not fit. The significand is then rounded to a float and scaled by a rounded
power of ten, so the result may differ from the nearest float in its last place.
-/
namespace StagedLowering

/-- The parts of a numeral, digits as numbers; an exponent has a sign. -/
structure Numeral where
  negative : Bool
  whole : List Nat
  fraction : List Nat
  exponent : Option (Bool × List Nat)
  integral : Bool
  deriving DecidableEq, Repr

namespace Numeral

def isDigit (c : Char) : Bool := '0' ≤ c && c ≤ '9'

def digits (cs : List Char) : List Nat := (cs.takeWhile isDigit).map fun c => c.toNat - 48

def afterDigits (cs : List Char) : List Char := cs.dropWhile isDigit

def number (ds : List Nat) : Nat := ds.foldl (fun n d => n * 10 + d) 0

/-- The part from the exponent mark on, if it is well formed. -/
def exponentPart : List Char → Option (Option (Bool × List Nat))
  | [] => some none
  | mark :: cs =>
    if mark = 'e' || mark = 'E' then
      let (negative, cs) :=
        match cs with
        | '-' :: cs => (true, cs)
        | '+' :: cs => (false, cs)
        | cs => (false, cs)
      let ds := digits cs
      if ds.isEmpty || !(afterDigits cs).isEmpty then none else some (some (negative, ds))
    else none

/-- The part after the whole digits, if it is well formed. -/
def fractionPart : List Char → Option (List Nat × Option (Bool × List Nat) × Bool)
  | '.' :: cs =>
    let ds := digits cs
    if ds.isEmpty then none else (exponentPart (afterDigits cs)).map fun e => (ds, e, false)
  | cs => (exponentPart cs).map fun e => ([], e, cs.isEmpty)

/-- The numeral that a text spells: no sign but a minus, no superfluous leading zero, and at least
one digit wherever digits are due. -/
def ofChars (cs : List Char) : Option Numeral :=
  let (negative, cs) :=
    match cs with
    | '-' :: cs => (true, cs)
    | cs => (false, cs)
  let whole := digits cs
  if whole.isEmpty || (whole.head? == some 0 && whole.length != 1) then none
  else
    (fractionPart (afterDigits cs)).map fun (fraction, exponent, integral) =>
      ⟨negative, whole, fraction, exponent, integral⟩

def wordLimit : Nat := UInt64.size

/-- Gather digits onto a significand as long as they fit; the rest is left over. -/
def gather : Nat → List Nat → Nat × List Nat
  | s, [] => (s, [])
  | s, d :: ds => if s * 10 + d < wordLimit then gather (s * 10 + d) ds else (s, d :: ds)

/-- The powers of ten that a scaling step can use. -/
def largestPower : Nat := 308

def powerOfTen (n : Nat) : Double := .ofNat (Nat.pow 10 n)

/-- `f * 10 ^ e` in steps of at most `10 ^ 308`, rounded at each; `none` if it is too large. -/
def scale (f : Double) (e : Int) : Option Double :=
  if e.natAbs ≤ largestPower then
    if 0 ≤ e then
      let g := f.scaleUp (powerOfTen e.natAbs)
      if g.finite then some g else none
    else some (f.scaleDown (powerOfTen e.natAbs))
  else if f = .zero then some f
  else if 0 ≤ e then none
  else scale (f.scaleDown (powerOfTen largestPower)) (e + largestPower)
termination_by e.natAbs
decreasing_by simp only [largestPower] at *; omega

/-- The value of a numeral. -/
def value (n : Numeral) : JsonNumber :=
  let (s, overflow) := gather 0 n.whole
  if n.integral && overflow.isEmpty then
    if !n.negative then .int s
    else if s = 0 || Nat.pow 2 63 < s then .float ((Double.ofNat s).withSign true)
    else .int (-s)
  else
    let (s, ignored) := gather s n.fraction
    let shift : Int := overflow.length - (n.fraction.length - ignored.length : Nat)
    let exponent : Int :=
      match n.exponent with
      | none => 0
      | some (negative, ds) => if negative then -(number ds : Int) else number ds
    match scale (.ofNat s) (shift + exponent) with
    | some f => .float (f.withSign n.negative)
    | none => .huge

end Numeral

end StagedLowering
