import StagedLowering.Tree.Type

/-!
Declarations of library functions.
-/
namespace StagedLowering

/-- A library function as a module declares it; only an exported one can be imported. -/
structure FunctionDecl where
  name : String
  module : String := ""
  params : List Ty := []
  returns : Ty
  exported : Bool := true
  deriving Inhabited

namespace FunctionDecl

/-- The declaration, hidden from imports. -/
def internal (d : FunctionDecl) : FunctionDecl := { d with exported := false }

def ty (d : FunctionDecl) : Ty := .function d.params d.returns

/-- `Module.name(A, B) -> C`. -/
def signature (d : FunctionDecl) : String :=
  d.module ++ "." ++ d.name ++ "(" ++ ", ".intercalate (d.params.map Ty.text) ++ ") -> " ++
    d.returns.text

end FunctionDecl

end StagedLowering
