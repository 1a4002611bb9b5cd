import StagedLowering.Command.Arguments
import StagedLowering.Command.Files
import StagedLowering.Pipeline

/-!
The command that lowers a HighIR expression from a file and prints it as target source.
-/
namespace StagedLowering.Command

/-- The order of rows in a report: by stage, then by rule. -/
def rowLe (a b : RuleStats) : Bool :=
  a.stage < b.stage || (a.stage == b.stage && !(b.rule < a.rule))

def rowText (s : RuleStats) : String :=
  "\n  " ++ s.stage ++ "/" ++ s.rule ++ ": " ++ toString s.applications ++ " applied, " ++
    toString s.replacements ++ " replaced, " ++ toString s.errors ++ " errors"

/-- The report on what the rules did. -/
def statsText (rows : List RuleStats) : String :=
  "\n\nRule statistics:" ++ String.join ((rows.mergeSort rowLe).map rowText)

def lower (files : Files) (o : LowerOptions) : Except CommandError String := do
  let text ← readFile files ("reading " ++ o.file) o.file
  let e ← decodeFile HighIR.decode ("parsing HighIR from " ++ o.file) text
  let config ← loadConfig files o.config
  let pipeline : Pipeline Unit Empty ←
    match Pipeline.ofConfig config with
    | .ok p => .ok p
    | .error e => .error (.failed none (.lowering e))
  match pipeline.engine.during (pipeline.lower e) () with
  | (.error f, _, _) => .error (.failed none f)
  | (.ok t, engine, _) => .ok (t.print ++ if o.stats then statsText engine.stats else "")

end StagedLowering.Command
