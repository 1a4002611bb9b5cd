import StagedLowering.Config
import StagedLowering.Engine
import StagedLowering.Number.Text
import StagedLowering.Rule.Delegating

/-!
The emitter lowers a HighIR expression by running the codegen stage on it, with itself as the
lowerer and as the delegate for leaves and calls. The session counts the lowerings under way, and
one too many fails; the count is what it was before, however a lowering ends.
-/
namespace StagedLowering

structure Emitter (ω δ : Type) where
  engine : Engine ω δ
  delegateKey : String
  maxDepth : UInt64

namespace Emitter

variable {ω δ : Type}

def ofConfig (engine : Engine ω δ) (config : Config) : Emitter ω δ :=
  ⟨engine, config.delegateKey, config.maxDepth⟩

/-- The target expression of a literal; a float has one only if it is finite. -/
def literalTarget : Literal → Except LoweringError Target
  | .int value => .ok (.ofInt value)
  | .float value =>
    if value.finite then .ok (.number value.text) else .error (.nonFiniteFloat value.text)
  | .str value => .ok (.string value)
  | .bool value => .ok (.boolean value)
  | .nil => .ok .nil

/-- Lower a literal or an identifier. -/
def leaf : Node → Act ω Node
  | .high (.literal value) => do
    let t ← Act.ofExcept (literalTarget value)
    pure (.target t)
  | .high (.identifier name _) => pure (.target (.identifier name))
  | n => Rule.refuse "TargetEmitter::emit_leaf" "a HighIR literal or identifier" n

/-- Lower a call, its arguments by `lower` from left to right. -/
def call (lower : HighIR → Act ω Target) : Node → Act ω Node
  | .high (.call callee args _) => do
    let args ← args.mapM lower
    pure (.target (.callNamed callee args))
  | n => Rule.refuse "TargetEmitter::emit_call" "a HighIR call" n

/-- Emitters as delegates. -/
def delegateType : DelegateType ω δ (HighIR → Act ω Target) where
  name := "strata_core::pipeline::TargetEmitter"
  view
    | .emitter lower => some lower
    | .custom _ => none

/-- Hands literals and identifiers to the emitter under `key`. -/
def leafLowering (key : String) : Rule ω δ :=
  Delegation.rule
    { type := delegateType
      claims := .ofList [.highLiteral, .highIdentifier]
      methodName := "emit_leaf"
      method := fun _ n => leaf n
      key := key }
    "TargetEmitter::emit_leaf"

/-- Hands calls to the emitter under `key`. -/
def callLowering (key : String) : Rule ω δ :=
  Delegation.rule
    { type := delegateType
      claims := .ofList [.highCall]
      methodName := "emit_call"
      method := call
      key := key }
    "TargetEmitter::emit_call"

/-- What the rules of the codegen stage get to see. -/
def context (m : Emitter ω δ) (lower : HighIR → Act ω Target) : Context ω δ :=
  Context.withDelegate { lowerer? := some lower } m.delegateKey (.emitter lower)

/-- The target expression that a stage ended with. -/
def targetOf (stage : String) (n : Node) : Except LoweringError Target :=
  match n.target? with
  | some t => .ok t
  | none => .error (.notLowered stage n.kind)

/-- Lower an expression with at most `levels` lowerings inside one another, this one included. -/
def lowerWithin (m : Emitter ω δ) : Nat → HighIR → Act ω Target
  | 0, _ => .fail (.depthExceeded m.maxDepth)
  | levels + 1, e => do
    let depth ← Act.depth
    if m.maxDepth.toNat ≤ depth then
      .fail (.depthExceeded m.maxDepth)
    else
      let c := m.context (m.lowerWithin levels)
      m.engine.validate Stage.codegen (.high e) c
      Act.setDepth (depth + 1)
      let outcome ← Act.attempt (m.engine.apply Stage.codegen (.high e) c)
      Act.setDepth depth
      let n ← Act.resume outcome
      Act.ofExcept (targetOf Stage.codegen n)

/-- Lower an expression. No more lowerings than `maxDepth` can be inside one another, so that many
levels always suffice. -/
def lower (m : Emitter ω δ) : HighIR → Act ω Target := m.lowerWithin m.maxDepth.toNat

/-- The emitter as a collaborator of other sessions, where it counts by itself. -/
def detached (m : Emitter ω δ) (e : HighIR) : Act ω Target := .apart m.engine.tally (m.lower e)

end Emitter

end StagedLowering
