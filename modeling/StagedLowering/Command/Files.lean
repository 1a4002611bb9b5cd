import StagedLowering.Json.Decode

/-!
Reading settings, registries and expressions from named files, and the ways in which that fails.
-/
namespace StagedLowering

/-- Why settings were not taken from a text. -/
inductive ConfigError where
  | malformed
  | rejected (error : LoweringError)

/-- Settings from a JSON text; they must be valid. -/
def Config.ofText (text : String) : Except ConfigError Config :=
  match Decoder.ofText Config.decode text with
  | none => .error .malformed
  | some c =>
    match c.validate with
    | .ok () => .ok c
    | .error e => .error (.rejected e)

namespace Command

/-- The contents of a file by its name; `none` if it cannot be read. -/
abbrev Files := String → Option String

/-- Why a command fails. `context` says what it was doing. -/
inductive CommandError where
  | unreadable (context : String)
  | malformed (context : String)
  | failed (context : Option String) (failure : Failure)
  /-- The options ask for nothing sensible. -/
  | refused (message : String)

/-- The outermost message of an error. -/
def CommandError.message : CommandError → String
  | .unreadable context => context
  | .malformed context => context
  | .failed (some context) _ => context
  | .failed none failure => failure.message
  | .refused message => message

def readFile (files : Files) (context file : String) : Except CommandError String :=
  match files file with
  | some text => .ok text
  | none => .error (.unreadable context)

def decodeFile {α : Type} (d : Decoder α) (context text : String) : Except CommandError α :=
  match d.ofText text with
  | some a => .ok a
  | none => .error (.malformed context)

/-- The settings in a file, or the default ones. -/
def loadConfig (files : Files) : Option String → Except CommandError Config
  | none => .ok {}
  | some file => do
    let text ← readFile files ("reading config " ++ file) file
    match Config.ofText text with
    | .ok c => .ok c
    | .error .malformed => .error (.malformed ("loading config " ++ file))
    | .error (.rejected e) => .error (.failed (some ("loading config " ++ file)) (.lowering e))

/-- The registry in a file, or the built-in one. -/
def loadRegistry (files : Files) : Option String → Except CommandError Registry
  | none => .ok .builtins
  | some file => do
    let text ← readFile files ("reading stdlib registry " ++ file) file
    decodeFile Registry.decode ("parsing stdlib registry " ++ file) text

end Command

end StagedLowering
