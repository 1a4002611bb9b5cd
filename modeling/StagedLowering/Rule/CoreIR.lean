import StagedLowering.Rule.Basic

/-!
The rules that bring source nodes into HighIR: matches, and imports of library functions.
-/
namespace StagedLowering.Rule

variable {ω δ : Type}

/-- A source match becomes a HighIR match on the scrutinee of the context, with the arms and the
result type that the match analyzer finds. -/
def matchDesugaring : Rule ω δ where
  name := "MatchDesugaring"
  description := "Desugars source match expressions into HighIR match nodes via the match analyzer"
  requires := [.scrutinee, .matchAnalyzer, .transformArm]
  applies n _ :=
    match n with
    | .source (.matching _ _) => true
    | _ => false
  apply n c :=
    match n with
    | .source (.matching _ arms) => do
      let scrutinee ← Act.ofExcept c.scrutinee
      let analyze ← Act.ofExcept c.matchAnalyzer
      let transformArm ← Act.ofExcept c.transformArm
      let analysis ← analyze scrutinee.ty arms transformArm
      pure (.replaced (.high (.matching scrutinee.node analysis.arms analysis.resultType)))
    | n => refuse "MatchDesugaring" "a source match expression" n

/-- Bring one function in: register it, then announce it. -/
def importFunction (path : String) (register : FunctionDecl → Act ω Unit)
    (publish : Event → Act ω Unit) (d : FunctionDecl) : Act ω Unit := do
  register d
  publish (.functionImported path d)

/-- Report one name that the module does not export, then announce it. -/
def reportMissing (path : String) (origin : Option String)
    (onMissing : String → Option String → Act ω Unit) (publish : Event → Act ω Unit)
    (name : String) : Act ω Unit := do
  onMissing name origin
  publish (.missingItem path name origin)

/-- An import becomes the list of functions it brings in. All four collaborators must be there
before anything is done; found functions come first, then the missing names, and the first failure
ends it. -/
def importResolution : Rule ω δ where
  name := "StdlibImportResolution"
  description := "Resolves standard library imports and registers the imported functions"
  requires := [.registry, .registerFunction, .onMissingItem, .eventBus]
  applies n _ :=
    match n with
    | .source (.importing _) => true
    | _ => false
  apply n c :=
    match n with
    | .source (.importing d) => do
      Act.ofExcept (c.require [.registry, .registerFunction, .onMissingItem, .eventBus])
      let resolve ← Act.ofExcept c.registry
      let register ← Act.ofExcept c.registerFunction
      let onMissing ← Act.ofExcept c.onMissingItem
      let publish ← Act.ofExcept c.eventBus
      let found ← resolve d.path d.selection
      found.resolved.forM (importFunction d.path register publish)
      found.missing.forM (reportMissing d.path d.origin onMissing publish)
      pure (.replaced (.high (.importing d.path (found.resolved.map (·.name)))))
    | n => refuse "StdlibImportResolution" "an import declaration" n

end StagedLowering.Rule
