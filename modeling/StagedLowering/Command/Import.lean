import StagedLowering.Command.Arguments
import StagedLowering.Command.Files
import StagedLowering.Event.Bus
import StagedLowering.Pipeline

/-!
The command that resolves an import and reports, line by line, what was found and what was not.
-/
namespace StagedLowering.Command

/-- The line that reports an event. -/
def eventLine : Event → String
  | .functionImported _ function => "imported " ++ function.signature
  | .missingItem module name (some origin) =>
    "missing " ++ module ++ "." ++ name ++ " (from " ++ origin ++ ")"
  | .missingItem module name none => "missing " ++ module ++ "." ++ name

/-- Keeps a line for each event. -/
def reporter (event : Event) : Reaction (List String) :=
  .read fun lines => .write (lines ++ [eventLine event]) .done

/-- A bus whose one subscription is the reporter, with no lines yet. -/
def reportingHub : Hub (List String) := ⟨(Bus.empty.subscribe none reporter).2, []⟩

/-- The declaration that the options describe. -/
def ImportOptions.decl (o : ImportOptions) : ImportDecl :=
  ⟨o.module, if o.all then .all else .items o.items, o.origin⟩

/-- Run an import and collect the report. The reporter publishes nothing itself, so deliveries do
not nest. -/
def reportImport (registry : Registry) (d : ImportDecl) : Except Failure (List String) :=
  match Pipeline.ofConfig {} with
  | .error e => .error (.lowering e)
  | .ok (pipeline : Pipeline (Hub (List String)) Empty) =>
    let action := pipeline.lowerImport d
      (fun path selection => Act.ofExcept (registry.resolve path selection))
      (Hub.announce 1) (fun _ => pure ()) (fun _ _ => pure ())
    match pipeline.engine.during action reportingHub with
    | (.error f, _, _) => .error f
    | (.ok _, _, hub) => .ok hub.world

def importing (files : Files) (o : ImportOptions) : Except CommandError String :=
  if o.all && !o.items.isEmpty then
    .error (.refused "--all cannot be combined with explicit items")
  else if !o.all && o.items.isEmpty then
    .error (.refused "nothing to import: name one or more items or pass --all")
  else do
    let registry ← loadRegistry files o.library
    match reportImport registry o.decl with
    | .ok lines => .ok ("\n".intercalate lines)
    | .error f => .error (.failed none f)

end StagedLowering.Command
