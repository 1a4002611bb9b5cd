/-!
The command line. Options may stand before, between and after positional arguments; a value follows
its option or is attached with `=`; two dashes alone end the options. No flag and no option may be
repeated, and abbreviations are not understood.
-/
namespace StagedLowering.Command

/-- What to lower, with which settings, and whether to report what the rules did. -/
structure LowerOptions where
  file : String
  config : Option String := none
  stats : Bool := false
  deriving DecidableEq, Repr

/-- What to import from which module; `library` names a file to use instead of the built-in
modules, and `origin` what missing names are reported for. -/
structure ImportOptions where
  module : String
  items : List String := []
  all : Bool := false
  library : Option String := none
  origin : Option String := none
  deriving DecidableEq, Repr

inductive Request where
  | lower (options : LowerOptions)
  | importing (options : ImportOptions)
  deriving DecidableEq, Repr

/-- What a command line asks for. -/
inductive Invocation where
  | run (request : Request)
  | version
  | help
  | invalid
  deriving DecidableEq, Repr

/-- One argument of a command, understood by its form. -/
inductive Argument where
  | flag (name : String)
  | option (name value : String)
  | positional (value : String)
  | help
  | bad
  deriving DecidableEq, Repr

/-- What a command takes: flags and options with a value, by their names without dashes, a first
positional argument, which has to be given, and those that may follow it. Of two names that are in
conflict not both may be given. -/
structure Declaration where
  flags : List String
  options : List String
  first : String
  further : Option String := none
  conflicts : List (String × String) := []

/-- Whether an argument is taken for an option, known or not; a single dash is not. -/
def isDashed (arg : String) : Bool :=
  match arg.toList with
  | '-' :: _ :: _ => true
  | _ => false

/-- The name and the attached value of an argument with two dashes. -/
def long? (arg : String) : Option (String × Option String) :=
  match arg.toList with
  | '-' :: '-' :: rest =>
    let name := String.ofList (rest.takeWhile (· != '='))
    match rest.dropWhile (· != '=') with
    | [] => some (name, none)
    | _ :: value => some (name, some (String.ofList value))
  | _ => none

/-- An argument with one dash; only the request for help is known. -/
def short (arg : String) : Argument :=
  match arg.toList with
  | '-' :: 'h' :: _ => .help
  | _ => .bad

/-- Understand the arguments of a command one by one. Nothing after a bad one matters. -/
def classify (c : Declaration) : List String → List Argument
  | [] => []
  | arg :: rest =>
    if arg = "--" then rest.map .positional
    else
      match long? arg with
      | some (name, value?) =>
        if c.flags.contains name then
          match value? with
          | none => .flag name :: classify c rest
          | some _ => [.bad]
        else if c.options.contains name then
          match value?, rest with
          | some value, rest => .option name value :: classify c rest
          | none, value :: rest =>
            if isDashed value then [.bad] else .option name value :: classify c rest
          | none, [] => [.bad]
        else if name = "help" && value?.isNone then [.help]
        else [.bad]
      | none =>
        if isDashed arg then [short arg] else .positional arg :: classify c rest

/-- Why the reading of a command's arguments ends early. -/
inductive Halt where
  | help | invalid
  deriving DecidableEq, Repr

/-- The arguments of a command so far. -/
structure Draft where
  flags : String → Bool := fun _ => false
  options : String → Option String := fun _ => none
  positionals : List String := []

namespace Draft

/-- Take one more argument. Flags and options can be given once. -/
def add (c : Declaration) (d : Draft) : Argument → Except Halt Draft
  | .flag name =>
    if d.flags name then .error .invalid
    else .ok { d with flags := fun n => n = name || d.flags n }
  | .option name value =>
    if (d.options name).isSome then .error .invalid
    else .ok { d with options := fun n => if n = name then some value else d.options n }
  | .positional value =>
    if d.positionals.isEmpty || c.further.isSome then
      .ok { d with positionals := d.positionals ++ [value] }
    else .error .invalid
  | .help => .error .help
  | .bad => .error .invalid

/-- Whether anything was given under a name that the command declares. -/
def given (c : Declaration) (d : Draft) (name : String) : Bool :=
  if c.flags.contains name then d.flags name
  else if c.options.contains name then (d.options name).isSome
  else if name = c.first then !d.positionals.isEmpty
  else c.further = some name && !d.positionals.tail.isEmpty

/-- Whether the command can do with what was given. -/
def complete (c : Declaration) (d : Draft) : Bool :=
  d.given c c.first && !c.conflicts.any fun (a, b) => d.given c a && d.given c b

end Draft

def Invocation.ofResult : Except Halt Request → Invocation
  | .ok request => .run request
  | .error .help => .help
  | .error .invalid => .invalid

/-- Read the arguments of a command. -/
def parseArguments (c : Declaration) (request : Draft → Request) (args : List String) :
    Invocation :=
  .ofResult do
    let d ← (classify c args).foldlM (Draft.add c) {}
    if d.complete c then .ok (request d) else .error .invalid

/-- The flags that every command takes. -/
def globalFlags : List String := ["debug"]

def lowerCommand : Declaration where
  flags := globalFlags ++ ["stats"]
  options := ["config"]
  first := "file"

def importCommand : Declaration where
  flags := globalFlags ++ ["all"]
  options := ["stdlib", "origin"]
  first := "module"
  further := some "items"
  conflicts := [("all", "items")]

def LowerOptions.ofDraft (d : Draft) : LowerOptions where
  file := d.positionals.headD ""
  config := d.options "config"
  stats := d.flags "stats"

def ImportOptions.ofDraft (d : Draft) : ImportOptions where
  module := d.positionals.headD ""
  items := d.positionals.tail
  all := d.flags "all"
  library := d.options "stdlib"
  origin := d.options "origin"

def parseLower (args : List String) : Invocation :=
  parseArguments lowerCommand (fun d => .lower (.ofDraft d)) args

def parseImport (args : List String) : Invocation :=
  parseArguments importCommand (fun d => .importing (.ofDraft d)) args

/-- Help on the program, or on one of its commands. -/
def parseHelp : List String → Invocation
  | [] => .help
  | [name] => if ["lower", "import", "help"].contains name then .help else .invalid
  | _ => .invalid

/-- Read a command line up to its command; `debug` tells whether that flag was given already. -/
def parseFrom (debug : Bool) : List String → Invocation
  | [] => .invalid
  | arg :: rest =>
    if arg = "lower" then parseLower rest
    else if arg = "import" then parseImport rest
    else if arg = "help" then parseHelp rest
    else if arg = "--debug" then if debug then .invalid else parseFrom true rest
    else if arg = "--version" then .version
    else if arg = "--help" then .help
    else
      match arg.toList with
      | '-' :: 'V' :: _ => .version
      | '-' :: 'h' :: _ => .help
      | _ => .invalid

/-- What a command line asks for. -/
def parse (args : List String) : Invocation := parseFrom false args

end StagedLowering.Command
