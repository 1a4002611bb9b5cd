import StagedLowering.Command.Import
import StagedLowering.Command.Lower

/-!
The whole program as a function of its arguments and of the files it can read.
-/
namespace StagedLowering.Command

def programVersion : String := "0.1.0"

def usage : String :=
  "Staged AST lowering driver\n\n" ++
  "Usage: strata [--debug] lower FILE [--config PATH] [--stats]\n" ++
  "       strata [--debug] import MODULE [ITEM...] [--all] [--stdlib PATH] [--origin NAME]\n" ++
  "       strata --version\n"

/-- What a run of the program leaves behind. -/
structure Response where
  code : Nat
  stdout : String := ""
  /-- The message of a command that failed. -/
  message : Option String := none
  deriving DecidableEq, Repr

def Request.run (files : Files) : Request → Except CommandError String
  | .lower o => Command.lower files o
  | .importing o => Command.importing files o

/-- The files that a request may read. -/
def Request.files : Request → List String
  | .lower o => o.file :: o.config.toList
  | .importing o => o.library.toList

def Invocation.respond (files : Files) : Invocation → Response
  | .run request =>
    match request.run files with
    | .ok output => { code := 0, stdout := output ++ "\n" }
    | .error e => { code := 1, message := some e.message }
  | .version => { code := 0, stdout := "strata " ++ programVersion ++ "\n" }
  | .help => { code := 0, stdout := usage }
  | .invalid => { code := 2 }

end StagedLowering.Command
