import StagedLowering.Context

/-!
Rules: what they claim, what they need and what they do with a node they are applied to.
-/
namespace StagedLowering

/-- What applying a rule comes to. -/
inductive Outcome where
  | unchanged
  | replaced (node : Node)

namespace Outcome

def isReplaced : Outcome → Bool
  | .unchanged => false
  | .replaced _ => true

/-- The node to go on with. -/
def node (current : Node) : Outcome → Node
  | .unchanged => current
  | .replaced n => n

end Outcome

/-- A rule. `requires` lists the collaborators that `apply` looks up; an `inert` rule is one that
can never claim a node. -/
structure Rule (ω δ : Type) where
  name : String
  description : String := ""
  requires : List Key := []
  inert : Bool := false
  applies : Node → Context ω δ → Bool
  apply : Node → Context ω δ → Act ω Outcome

/-- What a rule built from a function claims: kinds of nodes, or nodes with a property. -/
inductive NodePattern where
  | kinds (claims : KindSet)
  | satisfying (holds : Node → Bool)

namespace NodePattern

def claims (n : Node) : NodePattern → Bool
  | .kinds s => s.claims n
  | .satisfying holds => holds n

/-- Whether the pattern plainly claims nothing; a property is never known to be empty. -/
def isEmpty : NodePattern → Bool
  | .kinds s => s.isEmpty
  | .satisfying _ => false

end NodePattern

namespace Rule

variable {ω δ : Type}

/-- The rule that applies `transform` to what the pattern claims. -/
def ofPattern (name description : String) (pattern : NodePattern)
    (transform : Node → Context ω δ → Act ω Outcome) : Rule ω δ where
  name := name
  description := description
  inert := pattern.isEmpty
  applies n _ := pattern.claims n
  apply := transform

/-- Fail because `rule` was handed a node that is not what it expects. -/
def refuse {α : Type} (rule expected : String) (n : Node) : Act ω α :=
  .fail (.unexpectedNode rule expected n.kind)

end Rule

end StagedLowering
