import StagedLowering.Act
import StagedLowering.Event.Basic
import StagedLowering.Library.Registry

/-!
The collaborators a rule may turn to. A context has eight slots and any number of delegates under
keys of their own; a delegate's key may spell the name of a slot without filling it.
-/
namespace StagedLowering

/-- Lowers the body of an arm, given what the arm's pattern binds. -/
abbrev TransformArm (ω : Type) := MatchArm Source → List (String × Ty) → Act ω HighIR

/-- The lowered arms of a match and the type they agree on. -/
structure MatchAnalysis where
  arms : List (HighArm HighIR)
  resultType : Ty

/-- Works out the arms of a match on a scrutinee of the given type. -/
abbrev MatchAnalyzer (ω : Type) :=
  Ty → List (MatchArm Source) → TransformArm ω → Act ω MatchAnalysis

/-- An object that delegating rules hand nodes to: an emitter, known by how it lowers an
expression, or one of the caller's own. -/
inductive Delegate (ω δ : Type) where
  | emitter (lower : HighIR → Act ω Target)
  | custom (object : δ)

/-- A type of delegates: its name in messages, and which delegates belong to it. -/
structure DelegateType (ω δ D : Type) where
  name : String
  view : Delegate ω δ → Option D

/-- The name of a collaborator: a slot, or the key of a delegate. -/
inductive Key where
  | lowerer | scrutinee | matchAnalyzer | transformArm
  | registry | registerFunction | onMissingItem | eventBus
  | delegate (key : String)
  deriving DecidableEq, Repr

namespace Key

def text : Key → String
  | .lowerer => "lowerer"
  | .scrutinee => "scrutinee"
  | .matchAnalyzer => "match_analyzer"
  | .transformArm => "transform_arm"
  | .registry => "stdlib_registry"
  | .registerFunction => "register_stdlib_function"
  | .onMissingItem => "on_missing_item"
  | .eventBus => "event_bus"
  | .delegate key => key

/-- The slots in the order in which listings show them. -/
def slots : List Key :=
  [.lowerer, .scrutinee, .matchAnalyzer, .transformArm,
   .registry, .registerFunction, .onMissingItem, .eventBus]

/-- The slot of this name, or the delegate key that it is otherwise. -/
def ofText (name : String) : Key := (slots.find? (·.text == name)).getD (.delegate name)

end Key

structure Context (ω δ : Type) where
  lowerer? : Option (HighIR → Act ω Target) := none
  scrutinee? : Option TypedValue := none
  matchAnalyzer? : Option (MatchAnalyzer ω) := none
  transformArm? : Option (TransformArm ω) := none
  /-- Resolves an import path and a selection. -/
  registry? : Option (String → ImportSelection → Act ω Resolution) := none
  /-- Told of each function an import brings in. -/
  registerFunction? : Option (FunctionDecl → Act ω Unit) := none
  /-- Told of each name an import does not find, with the origin of the import. -/
  onMissingItem? : Option (String → Option String → Act ω Unit) := none
  /-- Publishes an event. -/
  eventBus? : Option (Event → Act ω Unit) := none
  delegates : List (String × Delegate ω δ) := []

namespace Context

variable {ω δ α D : Type}

def empty : Context ω δ := {}

/-- Add a delegate at the end; an earlier one under the same key goes. -/
def withDelegate (c : Context ω δ) (key : String) (d : Delegate ω δ) : Context ω δ :=
  { c with delegates := c.delegates.filter (·.1 != key) ++ [(key, d)] }

/-- The content of a slot. -/
def filled (key : Key) : Option α → Except LoweringError α
  | some a => .ok a
  | none => .error (.missingCollaborator key.text)

def lowerer (c : Context ω δ) : Except LoweringError (HighIR → Act ω Target) :=
  filled .lowerer c.lowerer?

def scrutinee (c : Context ω δ) : Except LoweringError TypedValue :=
  filled .scrutinee c.scrutinee?

def matchAnalyzer (c : Context ω δ) : Except LoweringError (MatchAnalyzer ω) :=
  filled .matchAnalyzer c.matchAnalyzer?

def transformArm (c : Context ω δ) : Except LoweringError (TransformArm ω) :=
  filled .transformArm c.transformArm?

def registry (c : Context ω δ) :
    Except LoweringError (String → ImportSelection → Act ω Resolution) :=
  filled .registry c.registry?

def registerFunction (c : Context ω δ) : Except LoweringError (FunctionDecl → Act ω Unit) :=
  filled .registerFunction c.registerFunction?

def onMissingItem (c : Context ω δ) :
    Except LoweringError (String → Option String → Act ω Unit) :=
  filled .onMissingItem c.onMissingItem?

def eventBus (c : Context ω δ) : Except LoweringError (Event → Act ω Unit) :=
  filled .eventBus c.eventBus?

def delegate? (c : Context ω δ) (key : String) : Option (Delegate ω δ) :=
  (c.delegates.find? (·.1 == key)).map Prod.snd

/-- The delegate under `key`, which has to be of the given type. -/
def delegate (c : Context ω δ) (type : DelegateType ω δ D) (key : String) :
    Except LoweringError D :=
  match c.delegate? key with
  | none => .error (.missingCollaborator key)
  | some d =>
    match type.view d with
    | some x => .ok x
    | none => .error (.collaboratorType key type.name)

def has (c : Context ω δ) : Key → Bool
  | .lowerer => c.lowerer?.isSome
  | .scrutinee => c.scrutinee?.isSome
  | .matchAnalyzer => c.matchAnalyzer?.isSome
  | .transformArm => c.transformArm?.isSome
  | .registry => c.registry?.isSome
  | .registerFunction => c.registerFunction?.isSome
  | .onMissingItem => c.onMissingItem?.isSome
  | .eventBus => c.eventBus?.isSome
  | .delegate key => c.delegates.any (·.1 == key)

/-- The names of the absent keys, each once, in the order of their first occurrence. -/
def absent (c : Context ω δ) (keys : List Key) : List String :=
  keys.foldl
    (fun names k => if !c.has k && !names.contains k.text then names ++ [k.text] else names) []

/-- Fail unless every key is present, naming all that are not. -/
def require (c : Context ω δ) (keys : List Key) : Except LoweringError Unit :=
  match c.absent keys with
  | [] => .ok ()
  | [key] => .error (.missingCollaborator key)
  | keys => .error (.missingCollaborators keys)

/-- The names of what is there: filled slots, then delegates. -/
def present (c : Context ω δ) : List String :=
  ((Key.slots.filter c.has).map Key.text) ++ c.delegates.map Prod.fst

end Context

end StagedLowering
