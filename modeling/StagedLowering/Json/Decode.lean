import StagedLowering.Config
import StagedLowering.Event.Basic
import StagedLowering.Json.Shape
import StagedLowering.Library.Registry

/-!
Decoders of trees, declarations, settings and events. Each names its variants and fields as they are
written.
-/
namespace StagedLowering

def Ty.layer (self : Decoder Ty) : Decoder Ty := fun room j => do
  let v ← JsonVariant.ofJson room j
  match v.name with
  | "Int" => v.bare .int
  | "Float" => v.bare .float
  | "String" => v.bare .string
  | "Bool" => v.bare .bool
  | "Nil" => v.bare .nil
  | "Regex" => v.bare .regex
  | "Named" => (v.single .string).map .named
  | "Function" => v.record ["params", "ret"] fun r => do
    let params ← r.required "params" (.list self)
    let result ← r.required "ret" self
    some (.function params result)
  | "Unknown" => v.bare .unknown
  | _ => none

def Ty.decode : Decoder Ty := .nested Ty.layer

def Literal.decode : Decoder Literal := fun room j => do
  let v ← JsonVariant.ofJson room j
  match v.name with
  | "Int" => (v.single .int64).map .int
  | "Float" => (v.single .double).map .float
  | "Str" => (v.single .string).map .str
  | "Bool" => (v.single .bool).map .bool
  | "Nil" => v.bare .nil
  | _ => none

def Pattern.layer (self : Decoder Pattern) : Decoder Pattern := fun room j => do
  let v ← JsonVariant.ofJson room j
  match v.name with
  | "Wildcard" => v.bare .wildcard
  | "Binding" => (v.single .string).map .binding
  | "Literal" => (v.single Literal.decode).map .literal
  | "Constructor" => v.record ["name", "fields"] fun r => do
    let name ← r.required "name" .string
    let fields ← r.required "fields" (.list self)
    some (.constructor name fields)
  | _ => none

def Pattern.decode : Decoder Pattern := .nested Pattern.layer

def MatchArm.decode {ε : Type} (self : Decoder ε) : Decoder (MatchArm ε) := fun room j => do
  let r ← JsonRecord.ofJson ["pattern", "guard", "body"] room j
  let pattern ← r.required "pattern" Pattern.decode
  let guard ← r.optional "guard" self
  let body ← r.required "body" self
  some ⟨pattern, guard, body⟩

def ImportSelection.decode : Decoder ImportSelection := fun room j => do
  let v ← JsonVariant.ofJson room j
  match v.name with
  | "Items" => (v.single (.list .string)).map .items
  | "All" => v.bare .all
  | _ => none

def ImportDecl.decode : Decoder ImportDecl := fun room j => do
  let r ← JsonRecord.ofJson ["path", "selection", "origin"] room j
  let path ← r.required "path" .string
  let selection ← r.required "selection" ImportSelection.decode
  let origin ← r.optional "origin" .string
  some ⟨path, selection, origin⟩

def Source.layer (self : Decoder Source) : Decoder Source := fun room j => do
  let v ← JsonVariant.ofJson room j
  match v.name with
  | "Number" => (v.single .int64).map .number
  | "String" => (v.single .string).map .string
  | "Boolean" => (v.single .bool).map .boolean
  | "Identifier" => (v.single .string).map .identifier
  | "Regex" => v.record ["pattern", "flags"] fun r => do
    let pattern ← r.required "pattern" .string
    let flags ← r.required "flags" .string
    some (.regex pattern flags)
  | "Binary" => v.record ["left", "op", "right"] fun r => do
    let left ← r.required "left" self
    let op ← r.required "op" .string
    let right ← r.required "right" self
    some (.binary left op right)
  | "Call" => v.record ["callee", "args"] fun r => do
    let callee ← r.required "callee" self
    let args ← r.required "args" (.list self)
    some (.call callee args)
  | "Match" => v.record ["scrutinee", "arms"] fun r => do
    let scrutinee ← r.required "scrutinee" self
    let arms ← r.required "arms" (.list (MatchArm.decode self))
    some (.matching scrutinee arms)
  | "Import" => (v.single ImportDecl.decode).map .importing
  | _ => none

def Source.decode : Decoder Source := .nested Source.layer

def HighArm.decode {ε : Type} (self : Decoder ε) : Decoder (HighArm ε) := fun room j => do
  let r ← JsonRecord.ofJson ["pattern", "bindings", "guard", "body"] room j
  let pattern ← r.required "pattern" Pattern.decode
  let bindings ← r.required "bindings" (.list (.pair .string Ty.decode))
  let guard ← r.optional "guard" self
  let body ← r.required "body" self
  some ⟨pattern, bindings, guard, body⟩

def HighIR.layer (self : Decoder HighIR) : Decoder HighIR := fun room j => do
  let v ← JsonVariant.ofJson room j
  match v.name with
  | "Literal" => (v.single Literal.decode).map .literal
  | "Identifier" => v.record ["name", "ty"] fun r => do
    let name ← r.required "name" .string
    let ty ← r.required "ty" Ty.decode
    some (.identifier name ty)
  | "Binary" => v.record ["left", "op", "right", "ty"] fun r => do
    let left ← r.required "left" self
    let op ← r.required "op" .string
    let right ← r.required "right" self
    let ty ← r.required "ty" Ty.decode
    some (.binary left op right ty)
  | "Regex" => v.record ["pattern", "flags"] fun r => do
    let pattern ← r.required "pattern" .string
    let flags ← r.required "flags" .string
    some (.regex pattern flags)
  | "Call" => v.record ["callee", "args", "ty"] fun r => do
    let callee ← r.required "callee" .string
    let args ← r.required "args" (.list self)
    let ty ← r.required "ty" Ty.decode
    some (.call callee args ty)
  | "Match" => v.record ["scrutinee", "arms", "result_type"] fun r => do
    let scrutinee ← r.required "scrutinee" self
    let arms ← r.required "arms" (.list (HighArm.decode self))
    let resultType ← r.required "result_type" Ty.decode
    some (.matching scrutinee arms resultType)
  | "Import" => v.record ["module", "functions"] fun r => do
    let module ← r.required "module" .string
    let functions ← r.required "functions" (.list .string)
    some (.importing module functions)
  | _ => none

def HighIR.decode : Decoder HighIR := .nested HighIR.layer

def TypedValue.decode : Decoder TypedValue := fun room j => do
  let r ← JsonRecord.ofJson ["node", "ty"] room j
  let node ← r.required "node" HighIR.decode
  let ty ← r.required "ty" Ty.decode
  some ⟨node, ty⟩

def Padding.decode : Decoder Padding := fun room j => do
  let r ← JsonRecord.ofJson ["before", "after"] room j
  let before ← r.required "before" .uint8
  let after ← r.required "after" .uint8
  some ⟨before, after⟩

def Target.layer (self : Decoder Target) : Decoder Target := fun room j => do
  let v ← JsonVariant.ofJson room j
  match v.name with
  | "Identifier" => (v.single .string).map .identifier
  | "Number" => (v.single .string).map .number
  | "StringLiteral" => (v.single .string).map .string
  | "Boolean" => (v.single .bool).map .boolean
  | "Nil" => v.bare .nil
  | "Binary" => v.record ["left", "operator", "right", "padding"] fun r => do
    let left ← r.required "left" self
    let operator ← r.required "operator" .string
    let right ← r.required "right" self
    let padding ← r.required "padding" Padding.decode
    some (.binary left operator right padding)
  | "Call" => v.record ["callee", "args"] fun r => do
    let callee ← r.required "callee" self
    let args ← r.required "args" (.list self)
    some (.call callee args)
  | _ => none

def Target.decode : Decoder Target := .nested Target.layer

def Node.decode : Decoder Node := fun room j => do
  let v ← JsonVariant.ofJson room j
  match v.name with
  | "Source" => (v.single Source.decode).map .source
  | "Hir" => (v.single HighIR.decode).map .high
  | "Target" => (v.single Target.decode).map .target
  | _ => none

def FunctionDecl.decode : Decoder FunctionDecl := fun room j => do
  let r ← JsonRecord.ofJson ["name", "module", "params", "returns", "exported"] room j
  let name ← r.required "name" .string
  let module ← r.withDefault "module" .string ""
  let params ← r.withDefault "params" (.list Ty.decode) []
  let returns ← r.required "returns" Ty.decode
  let exported ← r.withDefault "exported" .bool true
  some ⟨name, module, params, returns, exported⟩

/-- A registry: the functions of each module, under a single field. -/
def Registry.decode : Decoder Registry := fun room j => do
  let r ← JsonRecord.ofJson ["modules"] room j
  let modules ← r.required "modules" (.map (.list FunctionDecl.decode))
  some (.ofListing modules)

/-- Settings; what is left out keeps its default. -/
def Config.decode : Decoder Config := fun room j => do
  let r ← JsonRecord.ofJson
    ["regex_constructor", "regex_case_insensitive_constructor", "case_insensitive_flag",
     "delegate_key", "max_lowering_depth", "collect_stats"] room j
  let c : Config := {}
  let regexConstructor ← r.withDefault "regex_constructor" .string c.regexConstructor
  let regexCaseInsensitiveConstructor ←
    r.withDefault "regex_case_insensitive_constructor" .string c.regexCaseInsensitiveConstructor
  let caseInsensitiveFlag ← r.withDefault "case_insensitive_flag" .char c.caseInsensitiveFlag
  let delegateKey ← r.withDefault "delegate_key" .string c.delegateKey
  let maxDepth ← r.withDefault "max_lowering_depth" .uint64 c.maxDepth
  let collectStats ← r.withDefault "collect_stats" .bool c.collectStats
  some
    ⟨regexConstructor, regexCaseInsensitiveConstructor, caseInsensitiveFlag, delegateKey, maxDepth,
      collectStats⟩

/-- An event, whose members depend on the kind among them. -/
def Event.decode : Decoder Event := fun room j => do
  let r ← JsonRecord.ofJson ["kind", "module", "function", "name", "origin"] room j
  let kind ← (← r.required "kind" .string) |> EventKind.ofText?
  let module ← r.required "module" .string
  match kind with
  | .functionImported => (r.required "function" FunctionDecl.decode).map (.functionImported module)
  | .missingItem => do
    let name ← r.required "name" .string
    let origin ← r.optional "origin" .string
    some (.missingItem module name origin)

end StagedLowering
