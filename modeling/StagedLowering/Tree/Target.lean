import StagedLowering.Text.Quoted

/-!
Target expressions and the source text they print as. Nothing is parenthesised: a binary expression
prints its operands as they are, with the padding recorded on the node around the operator.
-/
namespace StagedLowering

/-- Blanks before and after a binary operator. -/
structure Padding where
  before : UInt8
  after : UInt8
  deriving DecidableEq, Repr, Inhabited

def Padding.single : Padding := ⟨1, 1⟩
def Padding.none : Padding := ⟨0, 0⟩

/-- A number is kept as the text it prints as. -/
inductive Target where
  | identifier (name : String)
  | number (text : String)
  | string (value : String)
  | boolean (value : Bool)
  | nil
  | binary (left : Target) (operator : String) (right : Target) (padding : Padding)
  | call (callee : Target) (args : List Target)
  deriving Inhabited

namespace Target

def ofInt (value : Int64) : Target := .number (toString value.toInt)

def infixed (left : Target) (operator : String) (right : Target) : Target :=
  .binary left operator right .single

def callNamed (callee : String) (args : List Target) : Target := .call (.identifier callee) args

def blanks (n : UInt8) : String := String.ofList (List.replicate n.toNat ' ')

mutual

/-- The source text of an expression. -/
def print : Target → String
  | .identifier name => name
  | .number text => text
  | .string value => Text.quoted value
  | .boolean true => "true"
  | .boolean false => "false"
  | .nil => "nil"
  | .binary left operator right padding =>
    left.print ++ blanks padding.before ++ operator ++ blanks padding.after ++ right.print
  | .call callee args => callee.print ++ "(" ++ ", ".intercalate (printAll args) ++ ")"

def printAll : List Target → List String
  | [] => []
  | arg :: rest => arg.print :: printAll rest

end

theorem printAll_eq_map (args : List Target) : printAll args = args.map print := by
  induction args with
  | nil => rfl
  | cons a as ih => simp [printAll, ih]

end Target

end StagedLowering
