import StagedLowering.Number.Double

/-!
JSON values as they are written: members keep their order and their repetitions, a number keeps
whether it was written as an integer, and what no decoder may accept but a reader has to pass over
(a number out of range, a text with an unpaired surrogate) has a value of its own.
-/
namespace StagedLowering

/-- A number as it was written. -/
inductive JsonNumber where
  /-- Without fraction and exponent, from `-2 ^ 63` to `2 ^ 64 - 1`; `-0` is not among them. -/
  | int (value : Int)
  | float (value : Double)
  /-- Too large for a float. -/
  | huge
  deriving DecidableEq, Repr

/-- A text; `none` if it has an unpaired surrogate escape. -/
abbrev JsonText := Option String

inductive Json where
  | null
  | bool (value : Bool)
  | number (value : JsonNumber)
  | string (value : JsonText)
  | array (values : List Json)
  | object (members : List (JsonText × Json))
  deriving Inhabited

namespace Json

def ofString (s : String) : Json := .string (some s)
def ofInt (i : Int) : Json := .number (.int i)
def ofNat (n : Nat) : Json := ofInt n
def ofDouble (d : Double) : Json := .number (.float d)
def ofOption {α : Type} (f : α → Json) : Option α → Json
  | none => .null
  | some a => f a
def ofMembers (members : List (String × Json)) : Json :=
  .object (members.map fun m => (some m.1, m.2))
def ofStrings (ss : List String) : Json := .array (ss.map ofString)

end Json

def JsonNumber.same : JsonNumber → JsonNumber → Bool
  | .int a, .int b => a == b
  | .float a, .float b => a.sameValue b
  | .huge, .huge => true
  | _, _ => false

namespace Json

mutual

/-- Equality of values: floats are compared as numbers, and members in their order. -/
def same : Json → Json → Bool
  | .null, .null => true
  | .bool a, .bool b => a == b
  | .number a, .number b => a.same b
  | .string a, .string b => a == b
  | .array as, .array bs => sameAll as bs
  | .object as, .object bs => sameMembers as bs
  | _, _ => false

def sameAll : List Json → List Json → Bool
  | [], [] => true
  | a :: as, b :: bs => a.same b && sameAll as bs
  | _, _ => false

def sameMembers : List (JsonText × Json) → List (JsonText × Json) → Bool
  | [], [] => true
  | (k, a) :: as, (l, b) :: bs => k == l && a.same b && sameMembers as bs
  | _, _ => false

end

end Json

end StagedLowering
