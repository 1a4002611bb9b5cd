import StagedLowering.Config
import StagedLowering.Rule.Basic

/-!
The rules that turn HighIR operators and regexes into target expressions.
-/
namespace StagedLowering.Rule

variable {ω δ : Type}

/-- A binary expression keeps its operator; the lowerer does the operands, the left one first. -/
def binaryLowering : Rule ω δ where
  name := "BinaryExpressionLowering"
  description := "Lowers HighIR binary expressions to target binary expressions"
  requires := [.lowerer]
  applies n _ :=
    match n with
    | .high (.binary _ _ _ _) => true
    | _ => false
  apply n c :=
    match n with
    | .high (.binary left op right _) => do
      let lower ← Act.ofExcept c.lowerer
      let left ← lower left
      let right ← lower right
      pure (.replaced (.target (.infixed left op right)))
    | n => refuse "BinaryExpressionLowering" "a HighIR binary expression" n

/-- A regex literal becomes a call of a constructor, chosen by its flags, on the pattern text. -/
def regexLowering (config : Config) : Rule ω δ where
  name := "RegexLiteralLowering"
  description := "Lowers HighIR regex literals to a regex constructor call"
  applies n _ :=
    match n with
    | .high (.regex _ _) => true
    | _ => false
  apply n _ :=
    match n with
    | .high (.regex pattern flags) =>
      pure (.replaced (.target (.callNamed (config.constructorOf flags) [.string pattern])))
    | n => refuse "RegexLiteralLowering" "a HighIR regex literal" n

end StagedLowering.Rule
