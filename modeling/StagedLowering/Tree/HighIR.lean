import StagedLowering.Tree.Pattern

/-!
HighIR, the typed middle representation: source matches and imports lower into it, and it lowers
into target expressions.
-/
namespace StagedLowering

/-- An arm of a HighIR match: what its pattern binds, each name with its type. -/
structure HighArm (ε : Type) where
  pattern : Pattern
  bindings : List (String × Ty)
  guard : Option ε
  body : ε
  deriving Inhabited

inductive HighIR where
  | literal (value : Literal)
  | identifier (name : String) (ty : Ty)
  | binary (left : HighIR) (op : String) (right : HighIR) (ty : Ty)
  | regex (pattern flags : String)
  | call (callee : String) (args : List HighIR) (ty : Ty)
  | matching (scrutinee : HighIR) (arms : List (HighArm HighIR)) (resultType : Ty)
  | importing (module : String) (functions : List String)
  deriving Inhabited

def HighIR.ty : HighIR → Ty
  | .literal value => value.ty
  | .identifier _ ty => ty
  | .binary _ _ _ ty => ty
  | .regex _ _ => .regex
  | .call _ _ ty => ty
  | .matching _ _ resultType => resultType
  | .importing _ _ => .nil

/-- An expression with the type the front end gave it. -/
structure TypedValue where
  node : HighIR
  ty : Ty
  deriving Inhabited

end StagedLowering
