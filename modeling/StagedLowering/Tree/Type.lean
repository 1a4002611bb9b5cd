/-!
Types of HighIR expressions and how they are shown.
-/
namespace StagedLowering

inductive Ty where
  | int
  | float
  | string
  | bool
  | nil
  | regex
  | named (name : String)
  | function (params : List Ty) (result : Ty)
  | unknown
  deriving Inhabited

namespace Ty

mutual

/-- The text of a type: its name, `fn(A, B) -> C` for a function and `?` for an unknown one. -/
def text : Ty → String
  | .int => "Int"
  | .float => "Float"
  | .string => "String"
  | .bool => "Bool"
  | .nil => "Nil"
  | .regex => "Regex"
  | .named name => name
  | .function params result => "fn(" ++ ", ".intercalate (texts params) ++ ") -> " ++ result.text
  | .unknown => "?"

def texts : List Ty → List String
  | [] => []
  | ty :: rest => ty.text :: texts rest

end

theorem texts_eq_map (tys : List Ty) : texts tys = tys.map text := by
  induction tys with
  | nil => rfl
  | cons ty tys ih => simp [texts, ih]

end Ty

end StagedLowering
