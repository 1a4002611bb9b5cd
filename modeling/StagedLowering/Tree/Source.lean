import StagedLowering.Tree.Pattern

/-!
Expressions as the front end hands them over, match arms and import declarations among them.
-/
namespace StagedLowering

/-- One arm of a match; `ε` is the type of its guard and body. -/
structure MatchArm (ε : Type) where
  pattern : Pattern
  guard : Option ε
  body : ε
  deriving Inhabited

inductive ImportSelection where
  | items (names : List String)
  | all
  deriving DecidableEq, Repr, Inhabited

/-- An import of functions from a library module; `origin` names the file it stands in. -/
structure ImportDecl where
  path : String
  selection : ImportSelection
  origin : Option String
  deriving DecidableEq, Repr, Inhabited

inductive Source where
  | number (value : Int64)
  | string (value : String)
  | boolean (value : Bool)
  | identifier (name : String)
  | regex (pattern flags : String)
  | binary (left : Source) (op : String) (right : Source)
  | call (callee : Source) (args : List Source)
  | matching (scrutinee : Source) (arms : List (MatchArm Source))
  | importing (decl : ImportDecl)
  deriving Inhabited

namespace ImportDecl

def ofItems (path : String) (names : List String) : ImportDecl := ⟨path, .items names, none⟩

def ofAll (path : String) : ImportDecl := ⟨path, .all, none⟩

def withOrigin (d : ImportDecl) (origin : String) : ImportDecl := { d with origin := some origin }

end ImportDecl

end StagedLowering
