import StagedLowering.Config
import StagedLowering.Event.Basic
import StagedLowering.Json.Value

/-!
Encoders of trees, declarations, settings and events: every field is written, in a fixed order.
-/
namespace StagedLowering

/-- A variant with one value. -/
def Json.variant (name : String) (content : Json) : Json := .ofMembers [(name, content)]

mutual

def Ty.encode : Ty → Json
  | .int => .ofString "Int"
  | .float => .ofString "Float"
  | .string => .ofString "String"
  | .bool => .ofString "Bool"
  | .nil => .ofString "Nil"
  | .regex => .ofString "Regex"
  | .named name => .variant "Named" (.ofString name)
  | .function params result =>
    .variant "Function"
      (.ofMembers [("params", .array (Ty.encodeAll params)), ("ret", result.encode)])
  | .unknown => .ofString "Unknown"

def Ty.encodeAll : List Ty → List Json
  | [] => []
  | ty :: rest => ty.encode :: Ty.encodeAll rest

end

def Literal.encode : Literal → Json
  | .int value => .variant "Int" (.ofInt value.toInt)
  | .float value => .variant "Float" (.ofDouble value)
  | .str value => .variant "Str" (.ofString value)
  | .bool value => .variant "Bool" (.bool value)
  | .nil => .ofString "Nil"

mutual

def Pattern.encode : Pattern → Json
  | .wildcard => .ofString "Wildcard"
  | .binding name => .variant "Binding" (.ofString name)
  | .literal value => .variant "Literal" value.encode
  | .constructor name fields =>
    .variant "Constructor"
      (.ofMembers [("name", .ofString name), ("fields", .array (Pattern.encodeAll fields))])

def Pattern.encodeAll : List Pattern → List Json
  | [] => []
  | p :: rest => p.encode :: Pattern.encodeAll rest

end

def ImportSelection.encode : ImportSelection → Json
  | .items names => .variant "Items" (.ofStrings names)
  | .all => .ofString "All"

def ImportDecl.encode (d : ImportDecl) : Json :=
  .ofMembers
    [("path", .ofString d.path), ("selection", d.selection.encode),
     ("origin", .ofOption .ofString d.origin)]

/-- The members of an arm, its guard and body encoded already. -/
def MatchArm.members (pattern : Pattern) (guard body : Json) : Json :=
  .ofMembers [("pattern", pattern.encode), ("guard", guard), ("body", body)]

mutual

def Source.encode : Source → Json
  | .number value => .variant "Number" (.ofInt value.toInt)
  | .string value => .variant "String" (.ofString value)
  | .boolean value => .variant "Boolean" (.bool value)
  | .identifier name => .variant "Identifier" (.ofString name)
  | .regex pattern flags =>
    .variant "Regex" (.ofMembers [("pattern", .ofString pattern), ("flags", .ofString flags)])
  | .binary left op right =>
    .variant "Binary"
      (.ofMembers [("left", left.encode), ("op", .ofString op), ("right", right.encode)])
  | .call callee args =>
    .variant "Call"
      (.ofMembers [("callee", callee.encode), ("args", .array (Source.encodeAll args))])
  | .matching scrutinee arms =>
    .variant "Match"
      (.ofMembers [("scrutinee", scrutinee.encode), ("arms", .array (Source.encodeArms arms))])
  | .importing d => .variant "Import" d.encode

def Source.encodeAll : List Source → List Json
  | [] => []
  | s :: rest => s.encode :: Source.encodeAll rest

def Source.encodeArm : MatchArm Source → Json
  | ⟨pattern, none, body⟩ => MatchArm.members pattern .null body.encode
  | ⟨pattern, some guard, body⟩ => MatchArm.members pattern guard.encode body.encode

def Source.encodeArms : List (MatchArm Source) → List Json
  | [] => []
  | arm :: rest => Source.encodeArm arm :: Source.encodeArms rest

end

def encodeBindings (bindings : List (String × Ty)) : Json :=
  .array (bindings.map fun b => .array [.ofString b.1, b.2.encode])

/-- The members of an arm, its guard and body encoded already. -/
def HighArm.members (pattern : Pattern) (bindings : List (String × Ty)) (guard body : Json) :
    Json :=
  .ofMembers
    [("pattern", pattern.encode), ("bindings", encodeBindings bindings), ("guard", guard),
     ("body", body)]

mutual

def HighIR.encode : HighIR → Json
  | .literal value => .variant "Literal" value.encode
  | .identifier name ty =>
    .variant "Identifier" (.ofMembers [("name", .ofString name), ("ty", ty.encode)])
  | .binary left op right ty =>
    .variant "Binary"
      (.ofMembers
        [("left", left.encode), ("op", .ofString op), ("right", right.encode), ("ty", ty.encode)])
  | .regex pattern flags =>
    .variant "Regex" (.ofMembers [("pattern", .ofString pattern), ("flags", .ofString flags)])
  | .call callee args ty =>
    .variant "Call"
      (.ofMembers
        [("callee", .ofString callee), ("args", .array (HighIR.encodeAll args)), ("ty", ty.encode)])
  | .matching scrutinee arms resultType =>
    .variant "Match"
      (.ofMembers
        [("scrutinee", scrutinee.encode), ("arms", .array (HighIR.encodeArms arms)),
         ("result_type", resultType.encode)])
  | .importing module functions =>
    .variant "Import"
      (.ofMembers [("module", .ofString module), ("functions", .ofStrings functions)])

def HighIR.encodeAll : List HighIR → List Json
  | [] => []
  | e :: rest => e.encode :: HighIR.encodeAll rest

def HighIR.encodeArm : HighArm HighIR → Json
  | ⟨pattern, bindings, none, body⟩ => HighArm.members pattern bindings .null body.encode
  | ⟨pattern, bindings, some guard, body⟩ =>
    HighArm.members pattern bindings guard.encode body.encode

def HighIR.encodeArms : List (HighArm HighIR) → List Json
  | [] => []
  | arm :: rest => HighIR.encodeArm arm :: HighIR.encodeArms rest

end

def TypedValue.encode (v : TypedValue) : Json :=
  .ofMembers [("node", v.node.encode), ("ty", v.ty.encode)]

def Padding.encode (p : Padding) : Json :=
  .ofMembers [("before", .ofNat p.before.toNat), ("after", .ofNat p.after.toNat)]

mutual

def Target.encode : Target → Json
  | .identifier name => .variant "Identifier" (.ofString name)
  | .number text => .variant "Number" (.ofString text)
  | .string value => .variant "StringLiteral" (.ofString value)
  | .boolean value => .variant "Boolean" (.bool value)
  | .nil => .ofString "Nil"
  | .binary left operator right padding =>
    .variant "Binary"
      (.ofMembers
        [("left", left.encode), ("operator", .ofString operator), ("right", right.encode),
         ("padding", padding.encode)])
  | .call callee args =>
    .variant "Call"
      (.ofMembers [("callee", callee.encode), ("args", .array (Target.encodeAll args))])

def Target.encodeAll : List Target → List Json
  | [] => []
  | t :: rest => t.encode :: Target.encodeAll rest

end

def Node.encode : Node → Json
  | .source tree => .variant Family.source.name tree.encode
  | .high tree => .variant Family.high.name tree.encode
  | .target tree => .variant Family.target.name tree.encode

/-- Equality of trees; floats in them are compared as numbers. -/
def Node.same (a b : Node) : Bool := a.encode.same b.encode

def FunctionDecl.encode (d : FunctionDecl) : Json :=
  .ofMembers
    [("name", .ofString d.name), ("module", .ofString d.module),
     ("params", .array (d.params.map Ty.encode)), ("returns", d.returns.encode),
     ("exported", .bool d.exported)]

def Config.encode (c : Config) : Json :=
  .ofMembers
    [("regex_constructor", .ofString c.regexConstructor),
     ("regex_case_insensitive_constructor", .ofString c.regexCaseInsensitiveConstructor),
     ("case_insensitive_flag", .ofString c.caseInsensitiveFlag.toString),
     ("delegate_key", .ofString c.delegateKey),
     ("max_lowering_depth", .ofNat c.maxDepth.toNat),
     ("collect_stats", .bool c.collectStats)]

/-- An event names its kind among its members. -/
def Event.encode : Event → Json
  | .functionImported module function =>
    .ofMembers
      [("kind", .ofString EventKind.functionImported.text), ("module", .ofString module),
       ("function", function.encode)]
  | .missingItem module name origin =>
    .ofMembers
      [("kind", .ofString EventKind.missingItem.text), ("module", .ofString module),
       ("name", .ofString name), ("origin", .ofOption .ofString origin)]

end StagedLowering
