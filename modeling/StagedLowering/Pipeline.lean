import StagedLowering.Emitter
import StagedLowering.Rule.Codegen
import StagedLowering.Rule.CoreIR

/-!
The pipeline: an engine with the two default stages, and the three things it is used for.
-/
namespace StagedLowering

structure Pipeline (ω δ : Type) where
  config : Config
  engine : Engine ω δ

namespace Pipeline

variable {ω δ : Type}

/-- Matches and imports come into HighIR in one stage; leaves, calls, operators and regexes leave
it in the other. -/
def defaultEngine (config : Config) : Engine ω δ :=
  ({ collectStats := config.collectStats } : Engine ω δ)
    |>.register Stage.coreIR (.ofRule Rule.matchDesugaring)
    |>.register Stage.coreIR (.ofRule Rule.importResolution)
    |>.register Stage.codegen (.ofRule (Emitter.leafLowering config.delegateKey))
    |>.register Stage.codegen (.ofRule (Emitter.callLowering config.delegateKey))
    |>.register Stage.codegen (.ofRule Rule.binaryLowering)
    |>.register Stage.codegen (.ofRule (Rule.regexLowering config))

/-- The pipeline of a valid configuration. -/
def ofConfig (config : Config) : Except LoweringError (Pipeline ω δ) :=
  config.validate.map fun _ => ⟨config, defaultEngine config⟩

def emitter (p : Pipeline ω δ) : Emitter ω δ := .ofConfig p.engine p.config

/-- Lower a HighIR expression into the target. -/
def lower (p : Pipeline ω δ) (e : HighIR) : Act ω Target := p.emitter.lower e

/-- The HighIR expression that the core stage makes of a source node. -/
def intoHighIR (p : Pipeline ω δ) (s : Source) (c : Context ω δ) : Act ω HighIR := do
  p.engine.validate Stage.coreIR (.source s) c
  let n ← p.engine.apply Stage.coreIR (.source s) c
  match n.high? with
  | some e => pure e
  | none => .fail (.notLowered Stage.coreIR n.kind)

/-- Lower a source match on a scrutinee that is lowered already. -/
def lowerMatch (p : Pipeline ω δ) (s : Source) (scrutinee : TypedValue)
    (analyzer : MatchAnalyzer ω) (transformArm : TransformArm ω) : Act ω HighIR :=
  p.intoHighIR s
    { scrutinee? := some scrutinee
      matchAnalyzer? := some analyzer
      transformArm? := some transformArm }

/-- Resolve an import, telling the callbacks and the bus what came of it. -/
def lowerImport (p : Pipeline ω δ) (d : ImportDecl)
    (registry : String → ImportSelection → Act ω Resolution) (publish : Event → Act ω Unit)
    (register : FunctionDecl → Act ω Unit) (onMissing : String → Option String → Act ω Unit) :
    Act ω HighIR :=
  p.intoHighIR (.importing d)
    { registry? := some registry
      eventBus? := some publish
      registerFunction? := some register
      onMissingItem? := some onMissing }

end Pipeline

end StagedLowering
