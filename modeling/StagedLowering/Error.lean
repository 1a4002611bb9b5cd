import StagedLowering.Tree.Kind

/-!
Why a lowering fails, and in what words it is reported.
-/
namespace StagedLowering

inductive LoweringError where
  /-- One collaborator that a rule needs is absent. -/
  | missingCollaborator (key : String)
  /-- Several are absent; each is named once. -/
  | missingCollaborators (keys : List String)
  /-- The delegate under `key` is not of the type its rule works with. -/
  | collaboratorType (key expected : String)
  /-- A rule was handed a node it does not lower. -/
  | unexpectedNode (rule expected : String) (found : NodeKind)
  /-- A stage ended with a node of the wrong family. -/
  | notLowered (stage : String) (found : NodeKind)
  | nonFiniteFloat (value : String)
  | depthExceeded (limit : UInt64)
  | unknownModule (path : String)
  | config (message : String)
  deriving DecidableEq, Repr

namespace LoweringError

def message : LoweringError → String
  | .missingCollaborator key =>
    "Configuration error: collaborator `" ++ key ++ "` is missing from the lowering context"
  | .missingCollaborators keys =>
    "Configuration error: collaborators missing from the lowering context: " ++
      ", ".intercalate keys
  | .collaboratorType key expected =>
    "Configuration error: collaborator `" ++ key ++ "` is not a " ++ expected
  | .unexpectedNode rule expected found =>
    "Rule " ++ rule ++ " cannot lower " ++ found.text ++ " (expected " ++ expected ++ ")"
  | .notLowered stage found => "Stage `" ++ stage ++ "` left " ++ found.text ++ " unlowered"
  | .nonFiniteFloat value => "Float literal `" ++ value ++ "` has no target representation"
  | .depthExceeded limit => "Lowering exceeded maximum depth (" ++ toString limit.toNat ++ ")"
  | .unknownModule path => "Unknown standard library module `" ++ path ++ "`"
  | .config message => "Configuration error: " ++ message

/-- Whether the set-up is at fault, and not the expression or the import. -/
def isConfiguration : LoweringError → Bool
  | .missingCollaborator _ | .missingCollaborators _ | .collaboratorType _ _ | .config _ => true
  | _ => false

end LoweringError

/-- What an action can end with: a lowering error, or whatever a collaborator raised itself. -/
inductive Failure where
  | lowering (error : LoweringError)
  | foreign (message : String)
  /-- A delivery of events was still running when its nesting bound was reached. -/
  | unfinished
  deriving DecidableEq, Repr

def Failure.message : Failure → String
  | .lowering error => error.message
  | .foreign message => message
  | .unfinished => "event delivery is nested too deeply"

end StagedLowering
