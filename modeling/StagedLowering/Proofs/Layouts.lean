import StagedLowering.Proofs.Spellings

/-!
The layouts of trees, of their parts and of settings. Encoders write what the layouts say.
-/
namespace StagedLowering

mutual

def Ty.layout : Ty → Layout
  | .int => .bare "Int"
  | .float => .bare "Float"
  | .string => .bare "String"
  | .bool => .bare "Bool"
  | .nil => .bare "Nil"
  | .regex => .bare "Regex"
  | .named name => .variant "Named" (.string name)
  | .function params result =>
    .variant "Function" (.record [("params", .list (Ty.layouts params)), ("ret", result.layout)])
  | .unknown => .bare "Unknown"

def Ty.layouts : List Ty → List Layout
  | [] => []
  | ty :: rest => ty.layout :: Ty.layouts rest

end

def Literal.layout : Literal → Layout
  | .int value => .variant "Int" (.int value.toInt)
  | .float value => .variant "Float" (.float value)
  | .str value => .variant "Str" (.string value)
  | .bool value => .variant "Bool" (.bool value)
  | .nil => .bare "Nil"

mutual

def Pattern.layout : Pattern → Layout
  | .wildcard => .bare "Wildcard"
  | .binding name => .variant "Binding" (.string name)
  | .literal value => .variant "Literal" value.layout
  | .constructor name fields =>
    .variant "Constructor"
      (.record [("name", .string name), ("fields", .list (Pattern.layouts fields))])

def Pattern.layouts : List Pattern → List Layout
  | [] => []
  | p :: rest => p.layout :: Pattern.layouts rest

end

def stringsLayout (ss : List String) : Layout := .list (ss.map .string)

def ImportSelection.layout : ImportSelection → Layout
  | .items names => .variant "Items" (stringsLayout names)
  | .all => .bare "All"

def ImportDecl.layout (d : ImportDecl) : Layout :=
  .record
    [("path", .string d.path), ("selection", d.selection.layout),
     ("origin", .ofOption .string d.origin)]

def MatchArm.fields (pattern : Pattern) (guard body : Layout) : Layout :=
  .record [("pattern", pattern.layout), ("guard", guard), ("body", body)]

mutual

def Source.layout : Source → Layout
  | .number value => .variant "Number" (.int value.toInt)
  | .string value => .variant "String" (.string value)
  | .boolean value => .variant "Boolean" (.bool value)
  | .identifier name => .variant "Identifier" (.string name)
  | .regex pattern flags =>
    .variant "Regex" (.record [("pattern", .string pattern), ("flags", .string flags)])
  | .binary left op right =>
    .variant "Binary"
      (.record [("left", left.layout), ("op", .string op), ("right", right.layout)])
  | .call callee args =>
    .variant "Call" (.record [("callee", callee.layout), ("args", .list (Source.layouts args))])
  | .matching scrutinee arms =>
    .variant "Match"
      (.record [("scrutinee", scrutinee.layout), ("arms", .list (Source.armLayouts arms))])
  | .importing d => .variant "Import" d.layout

def Source.layouts : List Source → List Layout
  | [] => []
  | s :: rest => s.layout :: Source.layouts rest

def Source.armLayout : MatchArm Source → Layout
  | ⟨pattern, none, body⟩ => MatchArm.fields pattern (.plain .null) body.layout
  | ⟨pattern, some guard, body⟩ => MatchArm.fields pattern guard.layout body.layout

def Source.armLayouts : List (MatchArm Source) → List Layout
  | [] => []
  | arm :: rest => Source.armLayout arm :: Source.armLayouts rest

end

def bindingsLayout (bindings : List (String × Ty)) : Layout :=
  .list (bindings.map fun b => .list [.string b.1, b.2.layout])

def HighArm.fields (pattern : Pattern) (bindings : List (String × Ty)) (guard body : Layout) :
    Layout :=
  .record
    [("pattern", pattern.layout), ("bindings", bindingsLayout bindings), ("guard", guard),
     ("body", body)]

mutual

def HighIR.layout : HighIR → Layout
  | .literal value => .variant "Literal" value.layout
  | .identifier name ty =>
    .variant "Identifier" (.record [("name", .string name), ("ty", ty.layout)])
  | .binary left op right ty =>
    .variant "Binary"
      (.record
        [("left", left.layout), ("op", .string op), ("right", right.layout), ("ty", ty.layout)])
  | .regex pattern flags =>
    .variant "Regex" (.record [("pattern", .string pattern), ("flags", .string flags)])
  | .call callee args ty =>
    .variant "Call"
      (.record
        [("callee", .string callee), ("args", .list (HighIR.layouts args)), ("ty", ty.layout)])
  | .matching scrutinee arms resultType =>
    .variant "Match"
      (.record
        [("scrutinee", scrutinee.layout), ("arms", .list (HighIR.armLayouts arms)),
         ("result_type", resultType.layout)])
  | .importing module functions =>
    .variant "Import"
      (.record [("module", .string module), ("functions", stringsLayout functions)])

def HighIR.layouts : List HighIR → List Layout
  | [] => []
  | e :: rest => e.layout :: HighIR.layouts rest

def HighIR.armLayout : HighArm HighIR → Layout
  | ⟨pattern, bindings, none, body⟩ =>
    HighArm.fields pattern bindings (.plain .null) body.layout
  | ⟨pattern, bindings, some guard, body⟩ =>
    HighArm.fields pattern bindings guard.layout body.layout

def HighIR.armLayouts : List (HighArm HighIR) → List Layout
  | [] => []
  | arm :: rest => HighIR.armLayout arm :: HighIR.armLayouts rest

end

def TypedValue.layout (v : TypedValue) : Layout :=
  .record [("node", v.node.layout), ("ty", v.ty.layout)]

def Padding.layout (p : Padding) : Layout :=
  .record [("before", .int p.before.toNat), ("after", .int p.after.toNat)]

mutual

def Target.layout : Target → Layout
  | .identifier name => .variant "Identifier" (.string name)
  | .number text => .variant "Number" (.string text)
  | .string value => .variant "StringLiteral" (.string value)
  | .boolean value => .variant "Boolean" (.bool value)
  | .nil => .bare "Nil"
  | .binary left operator right padding =>
    .variant "Binary"
      (.record
        [("left", left.layout), ("operator", .string operator), ("right", right.layout),
         ("padding", padding.layout)])
  | .call callee args =>
    .variant "Call" (.record [("callee", callee.layout), ("args", .list (Target.layouts args))])

def Target.layouts : List Target → List Layout
  | [] => []
  | t :: rest => t.layout :: Target.layouts rest

end

def Node.layout : Node → Layout
  | .source tree => .variant Family.source.name tree.layout
  | .high tree => .variant Family.high.name tree.layout
  | .target tree => .variant Family.target.name tree.layout

def FunctionDecl.layout (d : FunctionDecl) : Layout :=
  .record
    [("name", .string d.name), ("module", .string d.module),
     ("params", .list (d.params.map Ty.layout)), ("returns", d.returns.layout),
     ("exported", .bool d.exported)]

def Config.layout (c : Config) : Layout :=
  .record
    [("regex_constructor", .string c.regexConstructor),
     ("regex_case_insensitive_constructor", .string c.regexCaseInsensitiveConstructor),
     ("case_insensitive_flag", .string c.caseInsensitiveFlag.toString),
     ("delegate_key", .string c.delegateKey),
     ("max_lowering_depth", .int c.maxDepth.toNat),
     ("collect_stats", .bool c.collectStats)]

/-- A function that goes through a list item by item maps it. -/
theorem eq_map_of_cons {α β : Type} {f : α → β} {g : List α → List β} (nil : g [] = [])
    (cons : ∀ a as, g (a :: as) = f a :: g as) (as : List α) : g as = as.map f := by
  induction as with
  | nil => exact nil
  | cons a as ih => rw [cons, ih, List.map_cons]

namespace Ty

theorem layouts_eq_map (tys : List Ty) : layouts tys = tys.map layout :=
  eq_map_of_cons rfl (fun _ _ => rfl) tys

end Ty

namespace Pattern

theorem layouts_eq_map (ps : List Pattern) : layouts ps = ps.map layout :=
  eq_map_of_cons rfl (fun _ _ => rfl) ps

end Pattern

namespace Source

theorem layouts_eq_map (ss : List Source) : layouts ss = ss.map layout :=
  eq_map_of_cons rfl (fun _ _ => rfl) ss

theorem armLayouts_eq_map (arms : List (MatchArm Source)) :
    armLayouts arms = arms.map armLayout :=
  eq_map_of_cons rfl (fun _ _ => rfl) arms

theorem armLayout_eq (arm : MatchArm Source) :
    armLayout arm = MatchArm.fields arm.pattern (.ofOption layout arm.guard) arm.body.layout := by
  obtain ⟨pattern, guard, body⟩ := arm
  cases guard with
  | none => rw [armLayout]; rfl
  | some guard => rw [armLayout]; rfl

end Source

namespace HighIR

theorem layouts_eq_map (es : List HighIR) : layouts es = es.map layout :=
  eq_map_of_cons rfl (fun _ _ => rfl) es

theorem armLayouts_eq_map (arms : List (HighArm HighIR)) :
    armLayouts arms = arms.map armLayout :=
  eq_map_of_cons rfl (fun _ _ => rfl) arms

theorem armLayout_eq (arm : HighArm HighIR) :
    armLayout arm =
      HighArm.fields arm.pattern arm.bindings (.ofOption layout arm.guard) arm.body.layout := by
  obtain ⟨pattern, bindings, guard, body⟩ := arm
  cases guard with
  | none => rw [armLayout]; rfl
  | some guard => rw [armLayout]; rfl

end HighIR

namespace Target

theorem layouts_eq_map (ts : List Target) : layouts ts = ts.map layout :=
  eq_map_of_cons rfl (fun _ _ => rfl) ts

end Target

/-! ### What encoders write -/

namespace Layout

theorem jsonAll_eq_map (items : List Layout) : jsonAll items = items.map json :=
  eq_map_of_cons rfl (fun _ _ => rfl) items

theorem json_stringsLayout (ss : List String) : (stringsLayout ss).json = .ofStrings ss := by
  rw [stringsLayout, json, jsonAll_eq_map, List.map_map]
  rfl

end Layout

mutual

theorem Ty.json_layout : ∀ ty : Ty, ty.layout.json = ty.encode
  | .int | .float | .string | .bool | .nil | .regex | .unknown => rfl
  | .named _ => rfl
  | .function params result => by
    simp [Ty.layout, Layout.json, Layout.jsonFields, Ty.encode, Ty.json_layout result,
      Ty.jsonAll_layouts params]

theorem Ty.jsonAll_layouts : ∀ tys : List Ty, Layout.jsonAll (Ty.layouts tys) = Ty.encodeAll tys
  | [] => rfl
  | ty :: rest => by
    rw [Ty.layouts, Layout.jsonAll, Ty.encodeAll, Ty.json_layout ty, Ty.jsonAll_layouts rest]

end

theorem Literal.json_layout (l : Literal) : l.layout.json = l.encode := by
  cases l <;> rfl

mutual

theorem Pattern.json_layout : ∀ p : Pattern, p.layout.json = p.encode
  | .wildcard => rfl
  | .binding _ => rfl
  | .literal value => congrArg (Json.variant "Literal") value.json_layout
  | .constructor name fields => by
    simp [Pattern.layout, Layout.json, Layout.jsonFields, Pattern.encode, Layout.string,
      Pattern.jsonAll_layouts fields]

theorem Pattern.jsonAll_layouts : ∀ ps : List Pattern,
    Layout.jsonAll (Pattern.layouts ps) = Pattern.encodeAll ps
  | [] => rfl
  | p :: rest => by
    rw [Pattern.layouts, Layout.jsonAll, Pattern.encodeAll, Pattern.json_layout p,
      Pattern.jsonAll_layouts rest]

end

theorem ImportSelection.json_layout (s : ImportSelection) : s.layout.json = s.encode := by
  cases s with
  | items names => exact congrArg (Json.variant "Items") (Layout.json_stringsLayout names)
  | all => rfl

theorem ImportDecl.json_layout (d : ImportDecl) : d.layout.json = d.encode := by
  obtain ⟨path, selection, origin⟩ := d
  cases origin <;>
    simp [ImportDecl.layout, Layout.json, Layout.jsonFields, ImportDecl.encode, Layout.string,
      Layout.ofOption, Json.ofOption, selection.json_layout]

theorem MatchArm.json_fields (pattern : Pattern) (guard body : Layout) :
    (MatchArm.fields pattern guard body).json =
      MatchArm.members pattern guard.json body.json := by
  simp [MatchArm.fields, MatchArm.members, Layout.json, Layout.jsonFields, pattern.json_layout]

mutual

theorem Source.json_layout : ∀ s : Source, s.layout.json = s.encode
  | .number _ | .string _ | .boolean _ | .identifier _ => rfl
  | .regex _ _ => rfl
  | .binary left op right => by
    simp [Source.layout, Layout.json, Layout.jsonFields, Source.encode, Layout.string,
      Source.json_layout left, Source.json_layout right]
  | .call callee args => by
    simp [Source.layout, Layout.json, Layout.jsonFields, Source.encode,
      Source.json_layout callee, Source.jsonAll_layouts args]
  | .matching scrutinee arms => by
    simp [Source.layout, Layout.json, Layout.jsonFields, Source.encode,
      Source.json_layout scrutinee, Source.jsonAll_armLayouts arms]
  | .importing d => congrArg (Json.variant "Import") d.json_layout

theorem Source.jsonAll_layouts : ∀ ss : List Source,
    Layout.jsonAll (Source.layouts ss) = Source.encodeAll ss
  | [] => rfl
  | s :: rest => by
    rw [Source.layouts, Layout.jsonAll, Source.encodeAll, Source.json_layout s,
      Source.jsonAll_layouts rest]

theorem Source.json_armLayout : ∀ arm : MatchArm Source,
    (Source.armLayout arm).json = Source.encodeArm arm
  | ⟨pattern, none, body⟩ => by
    rw [Source.armLayout, MatchArm.json_fields, Source.json_layout body]
    rfl
  | ⟨pattern, some guard, body⟩ => by
    rw [Source.armLayout, MatchArm.json_fields, Source.json_layout guard, Source.json_layout body]
    rfl

theorem Source.jsonAll_armLayouts : ∀ arms : List (MatchArm Source),
    Layout.jsonAll (Source.armLayouts arms) = Source.encodeArms arms
  | [] => rfl
  | arm :: rest => by
    rw [Source.armLayouts, Layout.jsonAll, Source.encodeArms, Source.json_armLayout arm,
      Source.jsonAll_armLayouts rest]

end

theorem json_bindingsLayout (bindings : List (String × Ty)) :
    (bindingsLayout bindings).json = encodeBindings bindings := by
  rw [bindingsLayout, Layout.json, Layout.jsonAll_eq_map, List.map_map, encodeBindings]
  refine congrArg Json.array (List.map_congr_left fun b _ => ?_)
  simp [Layout.json, Layout.jsonAll, Layout.string, b.2.json_layout]

theorem HighArm.json_fields (pattern : Pattern) (bindings : List (String × Ty))
    (guard body : Layout) :
    (HighArm.fields pattern bindings guard body).json =
      HighArm.members pattern bindings guard.json body.json := by
  simp [HighArm.fields, HighArm.members, Layout.json, Layout.jsonFields, pattern.json_layout,
    json_bindingsLayout]

mutual

theorem HighIR.json_layout : ∀ e : HighIR, e.layout.json = e.encode
  | .literal value => congrArg (Json.variant "Literal") value.json_layout
  | .identifier name ty => by
    simp [HighIR.layout, Layout.json, Layout.jsonFields, HighIR.encode, Layout.string,
      ty.json_layout]
  | .regex _ _ => rfl
  | .binary left op right ty => by
    simp [HighIR.layout, Layout.json, Layout.jsonFields, HighIR.encode, Layout.string,
      HighIR.json_layout left, HighIR.json_layout right, ty.json_layout]
  | .call callee args ty => by
    simp [HighIR.layout, Layout.json, Layout.jsonFields, HighIR.encode, Layout.string,
      HighIR.jsonAll_layouts args, ty.json_layout]
  | .matching scrutinee arms resultType => by
    simp [HighIR.layout, Layout.json, Layout.jsonFields, HighIR.encode,
      HighIR.json_layout scrutinee, HighIR.jsonAll_armLayouts arms, resultType.json_layout]
  | .importing module functions => by
    simp [HighIR.layout, Layout.json, Layout.jsonFields, HighIR.encode, Layout.string,
      Layout.json_stringsLayout]

theorem HighIR.jsonAll_layouts : ∀ es : List HighIR,
    Layout.jsonAll (HighIR.layouts es) = HighIR.encodeAll es
  | [] => rfl
  | e :: rest => by
    rw [HighIR.layouts, Layout.jsonAll, HighIR.encodeAll, HighIR.json_layout e,
      HighIR.jsonAll_layouts rest]

theorem HighIR.json_armLayout : ∀ arm : HighArm HighIR,
    (HighIR.armLayout arm).json = HighIR.encodeArm arm
  | ⟨pattern, bindings, none, body⟩ => by
    rw [HighIR.armLayout, HighArm.json_fields, HighIR.json_layout body]
    rfl
  | ⟨pattern, bindings, some guard, body⟩ => by
    rw [HighIR.armLayout, HighArm.json_fields, HighIR.json_layout guard, HighIR.json_layout body]
    rfl

theorem HighIR.jsonAll_armLayouts : ∀ arms : List (HighArm HighIR),
    Layout.jsonAll (HighIR.armLayouts arms) = HighIR.encodeArms arms
  | [] => rfl
  | arm :: rest => by
    rw [HighIR.armLayouts, Layout.jsonAll, HighIR.encodeArms, HighIR.json_armLayout arm,
      HighIR.jsonAll_armLayouts rest]

end

theorem TypedValue.json_layout (v : TypedValue) : v.layout.json = v.encode := by
  simp [TypedValue.layout, Layout.json, Layout.jsonFields, TypedValue.encode, v.node.json_layout,
    v.ty.json_layout]

theorem Padding.json_layout (p : Padding) : p.layout.json = p.encode := rfl

mutual

theorem Target.json_layout : ∀ t : Target, t.layout.json = t.encode
  | .identifier _ | .number _ | .string _ | .boolean _ | .nil => rfl
  | .binary left operator right padding => by
    simp [Target.layout, Layout.json, Layout.jsonFields, Target.encode, Layout.string,
      Target.json_layout left, Target.json_layout right, padding.json_layout]
  | .call callee args => by
    simp [Target.layout, Layout.json, Layout.jsonFields, Target.encode,
      Target.json_layout callee, Target.jsonAll_layouts args]

theorem Target.jsonAll_layouts : ∀ ts : List Target,
    Layout.jsonAll (Target.layouts ts) = Target.encodeAll ts
  | [] => rfl
  | t :: rest => by
    rw [Target.layouts, Layout.jsonAll, Target.encodeAll, Target.json_layout t,
      Target.jsonAll_layouts rest]

end

theorem Node.json_layout (n : Node) : n.layout.json = n.encode := by
  cases n with
  | source tree => exact congrArg (Json.variant _) tree.json_layout
  | high tree => exact congrArg (Json.variant _) tree.json_layout
  | target tree => exact congrArg (Json.variant _) tree.json_layout

theorem FunctionDecl.json_layout (d : FunctionDecl) : d.layout.json = d.encode := by
  have params : Layout.jsonAll (d.params.map Ty.layout) = d.params.map Ty.encode := by
    rw [Layout.jsonAll_eq_map, List.map_map]
    exact List.map_congr_left fun ty _ => ty.json_layout
  simp [FunctionDecl.layout, Layout.json, Layout.jsonFields, FunctionDecl.encode, Layout.string,
    Layout.bool, params, d.returns.json_layout]

theorem Config.json_layout (c : Config) : c.layout.json = c.encode := rfl

end StagedLowering
