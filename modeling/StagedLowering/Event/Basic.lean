import StagedLowering.Library.Function

/-!
What an import announces: each function it brings in and each name it could not find.
-/
namespace StagedLowering

inductive EventKind where
  | functionImported | missingItem
  deriving DecidableEq, Repr

/-- The name of a kind, as subscribers and records of events spell it. -/
def EventKind.text : EventKind → String
  | .functionImported => "stdlib_function_imported"
  | .missingItem => "stdlib_missing_item"

def EventKind.ofText? (name : String) : Option EventKind :=
  [.functionImported, .missingItem].find? (·.text == name)

inductive Event where
  | functionImported (module : String) (function : FunctionDecl)
  | missingItem (module name : String) (origin : Option String)
  deriving Inhabited

def Event.kind : Event → EventKind
  | .functionImported _ _ => .functionImported
  | .missingItem _ _ _ => .missingItem

/-- The name of the function or of the missing item. -/
def Event.subject : Event → String
  | .functionImported _ function => function.name
  | .missingItem _ name _ => name

end StagedLowering
