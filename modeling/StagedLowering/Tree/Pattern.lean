import StagedLowering.Number.Double
import StagedLowering.Tree.Type

/-!
Literals and the patterns of match arms.
-/
namespace StagedLowering

inductive Literal where
  | int (value : Int64)
  | float (value : Double)
  | str (value : String)
  | bool (value : Bool)
  | nil
  deriving DecidableEq, Repr, Inhabited

def Literal.ty : Literal → Ty
  | .int _ => .int
  | .float _ => .float
  | .str _ => .string
  | .bool _ => .bool
  | .nil => .nil

inductive Pattern where
  | wildcard
  | binding (name : String)
  | literal (value : Literal)
  | constructor (name : String) (fields : List Pattern)
  deriving Inhabited

namespace Pattern

mutual

/-- The names a match against the pattern binds, left to right, repeated names included. -/
def names : Pattern → List String
  | .wildcard => []
  | .binding name => [name]
  | .literal _ => []
  | .constructor _ fields => namesAll fields

def namesAll : List Pattern → List String
  | [] => []
  | p :: rest => p.names ++ namesAll rest

end

/-- Whether every value matches. -/
def irrefutable : Pattern → Bool
  | .wildcard => true
  | .binding _ => true
  | _ => false

end Pattern

end StagedLowering
