import Mathlib.Data.List.Forall2
import StagedLowering.Command.Import
import StagedLowering.Proofs.DefaultStages
import StagedLowering.Proofs.Definitions
import StagedLowering.Proofs.ImportCalls

/-!
What the import command prints. The report has a line for each function that is imported and a line
for each name that is not found, in the order in which the registry or the options have them; on the
way from the registry to the printed text nothing is lost, repeated or moved.
-/
namespace StagedLowering

/-! ### What a signature looks like -/

/-- How a type is written. -/
inductive Ty.Written : Ty → String → Prop
  | int : Written .int "Int"
  | float : Written .float "Float"
  | string : Written .string "String"
  | bool : Written .bool "Bool"
  | nil : Written .nil "Nil"
  | regex : Written .regex "Regex"
  | named (name : String) : Written (.named name) name
  | function {params : List Ty} {result : Ty} {texts : List String} {text : String}
      (each : List.Forall₂ Written params texts) (last : Written result text) :
      Written (.function params result) ("fn(" ++ ", ".intercalate texts ++ ") -> " ++ text)
  | unknown : Written .unknown "?"

mutual

theorem Ty.written_text : ∀ ty : Ty, ty.Written ty.text
  | .int => .int
  | .float => .float
  | .string => .string
  | .bool => .bool
  | .nil => .nil
  | .regex => .regex
  | .named name => .named name
  | .function params result => .function (written_texts params) (written_text result)
  | .unknown => .unknown

theorem Ty.written_texts : ∀ tys : List Ty, List.Forall₂ Written tys (texts tys)
  | [] => .nil
  | ty :: tys => .cons (written_text ty) (written_texts tys)

end

/-- The line is `Module.name(A, B) -> C` for this function. -/
def FunctionDecl.Written (d : FunctionDecl) (line : String) : Prop :=
  ∃ params returns, List.Forall₂ Ty.Written d.params params ∧ d.returns.Written returns ∧
    line = d.module ++ "." ++ d.name ++ "(" ++ ", ".intercalate params ++ ") -> " ++ returns

theorem FunctionDecl.written_signature (d : FunctionDecl) : d.Written d.signature := by
  refine ⟨_, _, Ty.written_texts d.params, Ty.written_text d.returns, ?_⟩
  rw [signature, Ty.texts_eq_map]

/-! ### Imports through the default pipeline -/

namespace Pipeline

variable {ω δ : Type} (config : Config) (d : ImportDecl)
  (resolve : String → ImportSelection → Act ω Resolution) (publish : Event → Act ω Unit)
  (register : FunctionDecl → Act ω Unit) (onMissing : String → Option String → Act ω Unit)

/-- What the core stage gets to see of an import. -/
def importContext : Context ω δ :=
  { registry? := some resolve
    eventBus? := some publish
    registerFunction? := some register
    onMissingItem? := some onMissing }

theorem importContext_require :
    (importContext resolve publish register onMissing : Context ω δ).require Rule.importNeeds =
      .ok () := by
  refine Context.require_eq_ok _ _ fun k hk => ?_
  simp only [Rule.importNeeds, List.mem_cons, List.not_mem_nil, or_false] at hk
  rcases hk with rfl | rfl | rfl | rfl <;> rfl

/-- The session once an import is counted. -/
def importCounted (v : Verdict) (s : Session ω) : Session ω :=
  (defaultEngine config : Engine ω δ).counted Stage.coreIR
    (Rule.importResolution : Rule ω δ).name v s

theorem importCounted_world (v : Verdict) (s : Session ω) :
    (importCounted (δ := δ) config v s).world = s.world :=
  Engine.counted_world ..

variable {config d resolve publish register onMissing} {s s' : Session ω}

theorem importResolution_mem :
    (Rule.importResolution : Rule ω δ) ∈ rulesOf config Stage.coreIR := by
  simp [rulesOf, coreRules]

/-- An import comes to what the import rule comes to. -/
theorem lowerImport_ok {e : HighIR}
    (done : Rule.runImport (importContext resolve publish register onMissing : Context ω δ) d s =
      .ok (.replaced (.high e)) s') :
    (unchecked config : Pipeline ω δ).lowerImport d resolve publish register onMissing s =
      .ok e (importCounted (δ := δ) config .replaced s') :=
  intoHighIR_ok importResolution_mem rfl (importContext_require ..) done

theorem lowerImport_error {f : Failure}
    (failed : Rule.runImport (importContext resolve publish register onMissing : Context ω δ) d s =
      .error f s') :
    (unchecked config : Pipeline ω δ).lowerImport d resolve publish register onMissing s =
      .error f (importCounted (δ := δ) config .failed s') :=
  intoHighIR_error importResolution_mem rfl (importContext_require ..) failed

end Pipeline

namespace Command

/-! ### What the reporter collects -/

def importedLine (d : FunctionDecl) : String := "imported " ++ d.signature

/-- The line for a name that is not found, with the origin of the import if it has one. -/
def missingLine (module : String) (origin : Option String) (name : String) : String :=
  "missing " ++ module ++ "." ++ name ++
    match origin with
    | none => ""
    | some origin => " (from " ++ origin ++ ")"

/-- A session in which the reporter has these lines. -/
def reporting (s : Session (Hub (List String))) (lines : List String) :
    Session (Hub (List String)) :=
  { s with world := ⟨reportingHub.bus, lines⟩ }

variable (s : Session (Hub (List String))) (lines : List String)

theorem announce_reporting (event : Event) :
    Hub.announce 1 event (reporting s lines) =
      .ok () (reporting s (lines ++ [eventLine event])) := by
  cases event <;> rfl

/-- The calls of an import where only the bus takes notice. -/
def performReporting : ImportCall → Act (Hub (List String)) Unit :=
  ImportCall.perform (fun _ => pure ()) (fun _ _ => pure ()) (Hub.announce 1)

/-- The line that a call leaves in the report. -/
def callLine? : ImportCall → Option String
  | .publish event => some (eventLine event)
  | _ => none

theorem forM_reporting (calls : List ImportCall) :
    calls.forM performReporting (reporting s lines) =
      .ok () (reporting s (lines ++ calls.filterMap callLine?)) := by
  induction calls generalizing lines with
  | nil =>
    rw [List.filterMap_nil, List.append_nil]
    rfl
  | cons k calls ih =>
    cases k with
    | register function => exact ih lines
    | reportMissing name origin => exact ih lines
    | publish event =>
      have noted : performReporting (.publish event) (reporting s lines) =
          .ok () (reporting s (lines ++ [eventLine event])) := announce_reporting s lines event
      rw [Act.forM_cons_ok noted, ih, List.append_assoc]
      rfl

theorem eventLine_missing (module name : String) (origin : Option String) :
    eventLine (.missingItem module name origin) = missingLine module origin name := by
  cases origin with
  | none => exact String.append_empty.symm
  | some origin =>
    change "missing " ++ module ++ "." ++ name ++ " (from " ++ origin ++ ")" =
      "missing " ++ module ++ "." ++ name ++ (" (from " ++ origin ++ ")")
    simp only [String.append_assoc]

/-- Every function found and every name missing is reported once, in that order. -/
theorem filterMap_callLine?_plan (d : ImportDecl) (found : Resolution) :
    (d.plan found).filterMap callLine? =
      found.resolved.map importedLine ++ found.missing.map (missingLine d.path d.origin) := by
  have functions (f : FunctionDecl) :
      [ImportCall.register f, .publish (.functionImported d.path f)].filterMap callLine? =
        [importedLine f] := rfl
  have names (name : String) :
      [ImportCall.reportMissing name d.origin,
        .publish (.missingItem d.path name d.origin)].filterMap callLine? =
          [missingLine d.path d.origin name] := by
    rw [← eventLine_missing]
    rfl
  rw [ImportDecl.plan, List.filterMap_append, List.filterMap_flatMap, List.filterMap_flatMap]
  simp only [functions, names, List.map_eq_flatMap]

theorem ofConfig_default {ω δ : Type} :
    (Pipeline.ofConfig {} : Except LoweringError (Pipeline ω δ)) = .ok (Pipeline.unchecked {}) := by
  have valid : Config.validate {} = .ok () := rfl
  rw [Pipeline.ofConfig, valid]
  rfl

theorem reportImport_of_during {registry : Registry} {d : ImportDecl}
    {outcome : Except Failure HighIR} {E : Engine (Hub (List String)) Empty}
    {hub : Hub (List String)}
    (ran : (Pipeline.unchecked {} : Pipeline _ Empty).engine.during
      ((Pipeline.unchecked {} : Pipeline _ Empty).lowerImport d
        (fun path selection => Act.ofExcept (registry.resolve path selection))
        (Hub.announce 1) (fun _ => pure ()) (fun _ _ => pure ())) reportingHub =
      (outcome, E, hub)) :
    reportImport registry d = outcome.map fun _ => hub.world := by
  rw [reportImport, ofConfig_default]
  dsimp only
  rw [ran]
  cases outcome <;> rfl

theorem reportImport_eq (registry : Registry) (d : ImportDecl) :
    reportImport registry d =
      match registry.resolve d.path d.selection with
      | .error e => .error (.lowering e)
      | .ok found =>
        .ok (found.resolved.map importedLine ++
          found.missing.map (missingLine d.path d.origin)) := by
  let c : Context (Hub (List String)) Empty := Pipeline.importContext
    (fun path selection => Act.ofExcept (registry.resolve path selection)) (Hub.announce 1)
    (fun _ => pure ()) (fun _ _ => pure ())
  let E : Engine (Hub (List String)) Empty := Pipeline.defaultEngine {}
  let start : Session (Hub (List String)) := ⟨E.tally, 0, reportingHub⟩
  have asked : Rule.runImport c d = (do
      let found ← Act.ofExcept (registry.resolve d.path d.selection)
      (d.plan found).forM performReporting
      pure (.replaced (.high (.importing d.path (found.resolved.map (·.name)))))) :=
    Rule.runImport_present c d rfl rfl rfl rfl
  -- Past the registry's answer nothing can fail, for the reporter takes every event.
  cases answer : registry.resolve d.path d.selection with
  | error e =>
    have failed : Rule.runImport c d start = .error (.lowering e) start := by
      rw [asked, answer]
      rfl
    exact reportImport_of_during (Engine.during_error (Pipeline.lowerImport_error failed))
  | ok found =>
    have reported := forM_reporting start [] (d.plan found)
    rw [filterMap_callLine?_plan] at reported
    have done : Rule.runImport c d start =
        .ok (.replaced (.high (.importing d.path (found.resolved.map (·.name)))))
          (reporting start (found.resolved.map importedLine ++
            found.missing.map (missingLine d.path d.origin))) := by
      rw [asked, answer]
      exact Act.bind_ok reported
    refine (reportImport_of_during (Engine.during_ok (Pipeline.lowerImport_ok done))).trans ?_
    rw [Except.map, Pipeline.importCounted_world]
    rfl

end Command

/-! ### What the registry finds -/

namespace Registry

theorem distinct_eq_eraseDups (names : List String) : distinct names = names.eraseDups := by
  have step (names seen done : List String) (h : seen = done.eraseDups) :
      names.foldl (fun seen n => if n ∈ seen then seen else seen ++ [n]) seen =
        (done ++ names).eraseDups := by
    induction names generalizing seen done with
    | nil => simpa using h
    | cons n names ih => simpa using ih _ (done ++ [n]) (eraseDups_concat h)
  exact step names [] [] rfl

/-- The function of that name as it is defined last, if it is exported then. -/
def exportedIn (ds : List FunctionDecl) (m n : String) : Option FunctionDecl :=
  (lastDefinition ds m n).filter (·.exported)

theorem name_of_exportedIn {ds : List FunctionDecl} {m n : String} {d : FunctionDecl}
    (h : exportedIn ds m n = some d) : d.name = n :=
  (of_lastDefinition (Option.filter_eq_some_iff.1 h).1).2.2

namespace Reached

variable {r : Registry} {ms : List String} {ds : List FunctionDecl} {m : String}

theorem resolve_unknown (h : Reached r ms ds) (unknown : m ∉ ms) (selection : ImportSelection) :
    r.resolve m selection = .error (.unknownModule m) := by
  rw [resolve, h.functions?_eq, if_neg unknown]

theorem resolve_all (h : Reached r ms ds) (known : m ∈ ms) :
    r.resolve m .all = .ok ⟨(definedIn ds m).filter (·.exported), []⟩ := by
  rw [resolve, h.functions?_eq, if_pos known]

theorem resolve_items (h : Reached r ms ds) (known : m ∈ ms) (names : List String) :
    r.resolve m (.items names) =
      .ok ⟨names.eraseDups.filterMap (exportedIn ds m),
        names.eraseDups.filter fun n => (exportedIn ds m n).isNone⟩ := by
  have exported : r.exported? m = exportedIn ds m := by
    funext n
    rw [exported?, h.lookup_eq, exportedIn]
  rw [resolve, h.functions?_eq, if_pos known]
  simp only [exported, distinct_eq_eraseDups]

end Reached

/-- The names of what is found are those that something is found under. -/
theorem map_name_filterMap {find : String → Option FunctionDecl}
    (named : ∀ n d, find n = some d → d.name = n) (names : List String) :
    (names.filterMap find).map (·.name) = names.filter fun n => (find n).isSome := by
  induction names with
  | nil => rfl
  | cons n names ih =>
    cases h : find n with
    | none => simpa [h] using ih
    | some d => simpa [h, named n d h] using ih

/-- Each name is found or missing. -/
theorem found_append_missing_perm (ds : List FunctionDecl) (m : String) (names : List String) :
    ((names.filterMap (exportedIn ds m)).map (·.name) ++
      names.filter fun n => (exportedIn ds m n).isNone).Perm names := by
  have missing : (fun n => (exportedIn ds m n).isNone) =
      fun n => !(exportedIn ds m n).isSome := by
    funext n
    rw [Option.not_isSome]
  rw [map_name_filterMap (fun n d => name_of_exportedIn) names, missing]
  exact List.filter_append_perm _ names

end Registry

/-! ### The report -/

namespace Command

open Registry (Reached definedIn exportedIn)

/-- What the command prints for a report, or how it fails. -/
def printed : Except Failure (List String) → Except CommandError String
  | .ok lines => .ok ("\n".intercalate lines)
  | .error f => .error (.failed none f)

namespace ImportOptions

variable (o : ImportOptions) (ds : List FunctionDecl)

/-- What is imported from the functions that are defined: with no names given, all that are
exported, in the order of first definition; otherwise those that are asked for, in the order of
first request. -/
def imported : List FunctionDecl :=
  if o.all then (definedIn ds o.module).filter (·.exported)
  else o.items.eraseDups.filterMap (exportedIn ds o.module)

/-- The names asked for that no exported function has, in the order of first request. -/
def missing : List String := o.items.eraseDups.filter fun n => (exportedIn ds o.module n).isNone

def report : List String :=
  (o.imported ds).map importedLine ++ (o.missing ds).map (missingLine o.module o.origin)

variable {o ds} {r : Registry} {ms : List String}

theorem reportImport_unknown (reached : Reached r ms ds) (unknown : o.module ∉ ms) :
    reportImport r o.decl = .error (.lowering (.unknownModule o.module)) := by
  rw [reportImport_eq, show o.decl.path = o.module from rfl, reached.resolve_unknown unknown]

theorem reportImport_known (reached : Reached r ms ds) (known : o.module ∈ ms)
    (alone : o.all = true → o.items = []) : reportImport r o.decl = .ok (o.report ds) := by
  have answer : r.resolve o.decl.path o.decl.selection = .ok ⟨o.imported ds, o.missing ds⟩ := by
    rw [decl, imported, missing]
    cases hall : o.all with
    | true => simp [reached.resolve_all known, alone hall]
    | false => simp [reached.resolve_items known]
  rw [reportImport_eq, answer]
  rfl

/-- The command ends as it should with this registry, by whatever history of definitions the
registry came to be. It fails if the registry has no such module. Otherwise it prints a line with
the signature of each function imported and then a line for each name not found; every name that is
asked for has one line. -/
def Reports (o : ImportOptions) (r : Registry) (ended : Except CommandError String) : Prop :=
  (∃ ms ds, Reached r ms ds) ∧ ∀ ms ds, Reached r ms ds →
    (r.hasModule o.module = true ↔ o.module ∈ ms) ∧
    (ended = .error (.failed none (.lowering (.unknownModule o.module))) ↔
      r.hasModule o.module = false) ∧
    (r.hasModule o.module = true →
      ∃ signatures, List.Forall₂ FunctionDecl.Written (o.imported ds) signatures ∧
        ended = .ok ("\n".intercalate
          (signatures.map ("imported " ++ ·) ++
            (o.missing ds).map (missingLine o.module o.origin)))) ∧
    (o.all = false → ((o.imported ds).map (·.name) ++ o.missing ds).Perm o.items.eraseDups)

theorem written_imported (o : ImportOptions) (ds : List FunctionDecl) :
    List.Forall₂ FunctionDecl.Written (o.imported ds) ((o.imported ds).map (·.signature)) := by
  rw [List.forall₂_map_right_iff]
  exact List.forall₂_same.2 fun d _ => d.written_signature

theorem imported_append_missing_perm (named : o.all = false) :
    ((o.imported ds).map (·.name) ++ o.missing ds).Perm o.items.eraseDups := by
  rw [imported, named, if_neg Bool.false_ne_true, missing]
  exact Registry.found_append_missing_perm ds o.module o.items.eraseDups

theorem reports_printed (once : ∃ ms ds, Reached r ms ds) (alone : o.all = true → o.items = []) :
    o.Reports r (printed (reportImport r o.decl)) := by
  refine ⟨once, fun ms ds reached => ?_⟩
  have module := reached.hasModule_iff o.module
  refine ⟨module, ?_, fun known => ?_, imported_append_missing_perm⟩
  · rw [← Bool.not_eq_true, module]
    by_cases known : o.module ∈ ms
    · rw [reportImport_known reached known alone]
      exact ⟨nofun, fun unknown => absurd known unknown⟩
    · rw [reportImport_unknown reached known]
      exact ⟨fun _ => known, fun _ => rfl⟩
  · refine ⟨_, written_imported o ds, ?_⟩
    rw [reportImport_known reached (module.1 known) alone, List.map_map]
    rfl

end ImportOptions

theorem reached_builtins : ∃ ms ds, Reached .builtins ms ds := ⟨_, _, Reached.empty.defineAll _⟩

/-- Whatever registry is in a file, it came to be by definitions. -/
theorem reached_of_decode {text : String} {r : Registry}
    (h : Registry.decode.ofText text = some r) : ∃ ms ds, Reached r ms ds := by
  rw [Registry.decode_ofText] at h
  obtain ⟨listing, -, rfl⟩ := Option.map_eq_some_iff.1 h
  exact ⟨_, _, Registry.reached_ofListing listing⟩

theorem loadRegistry_of_content {files : Files} {file text : String}
    (content : files file = some text) :
    loadRegistry files (some file) =
      decodeFile Registry.decode ("parsing stdlib registry " ++ file) text := by
  rw [loadRegistry, readFile, content]
  rfl

theorem importing_eq {files : Files} {o : ImportOptions}
    (consistent : o.all = true ↔ o.items = []) :
    importing files o =
      (loadRegistry files o.library).bind fun r => printed (reportImport r o.decl) := by
  have apart : (o.all && !o.items.isEmpty) = false := by
    cases hall : o.all with
    | true => simp [consistent.1 hall]
    | false => rfl
  have either : (!o.all && o.items.isEmpty) = false := by
    cases hall : o.all with
    | true => rfl
    | false =>
      have named : o.items ≠ [] := fun none => by simp [consistent.2 none] at hall
      simp [named]
  rw [importing, apart, either, if_neg Bool.false_ne_true, if_neg Bool.false_ne_true]
  rfl

/-- What an import command comes to. Options that ask for all and for names as well, or for neither,
are refused. Otherwise the command reports on the modules that are built in or, if the options name
a file, on those that the file describes. -/
theorem importing_reports (files : Files) (o : ImportOptions) :
    (o.all = true ∧ o.items ≠ [] → ∃ message, importing files o = .error (.refused message)) ∧
    (o.all = false ∧ o.items = [] → ∃ message, importing files o = .error (.refused message)) ∧
    ((o.all = true ↔ o.items = []) →
      (o.library = none → o.Reports .builtins (importing files o)) ∧
      ∀ file, o.library = some file →
        (files file = none →
          importing files o = .error (.unreadable ("reading stdlib registry " ++ file))) ∧
        ∀ text, files file = some text →
          (Registry.decode.ofText text = none →
            importing files o = .error (.malformed ("parsing stdlib registry " ++ file))) ∧
          ∀ registry, Registry.decode.ofText text = some registry →
            o.Reports registry (importing files o)) := by
  refine ⟨?_, ?_, ?_⟩
  · rintro ⟨hall, hitems⟩
    have together : (o.all && !o.items.isEmpty) = true := by simp [hall, hitems]
    rw [importing, together, if_pos rfl]
    exact ⟨_, rfl⟩
  · rintro ⟨hall, hitems⟩
    have apart : (o.all && !o.items.isEmpty) = false := by simp [hall]
    have neither : (!o.all && o.items.isEmpty) = true := by simp [hall, hitems]
    rw [importing, apart, neither, if_neg Bool.false_ne_true, if_pos rfl]
    exact ⟨_, rfl⟩
  · intro consistent
    rw [importing_eq consistent]
    refine ⟨fun builtin => ?_, fun file named => ⟨fun unreadable => ?_, fun text content =>
      ⟨fun malformed => ?_, fun registry decoded => ?_⟩⟩⟩
    · rw [builtin]
      exact ImportOptions.reports_printed reached_builtins consistent.1
    · rw [named, loadRegistry, readFile, unreadable]
      rfl
    · rw [named, loadRegistry_of_content content, decodeFile, malformed]
      rfl
    · rw [named, loadRegistry_of_content content, decodeFile, decoded]
      exact ImportOptions.reports_printed (reached_of_decode decoded) consistent.1

/-- A name asked for twice, one that is not exported and one that is unknown, of the modules that
are built in; and a file that does not list the module. -/
theorem importing_println :
    let files : Files := fun file =>
      if file = "lib.json" then some "\x7b\"modules\":\x7b\x7d\x7d" else none
    let o : ImportOptions :=
      { module := "IO", items := ["println", "flush_buffers", "println", "nope"],
        origin := some "a.st" }
    importing files o =
        .ok ("imported IO.println(String) -> Nil\nmissing IO.flush_buffers (from a.st)\n" ++
          "missing IO.nope (from a.st)") ∧
      importing files { o with library := some "lib.json" } =
        .error (.failed none (.lowering (.unknownModule "IO"))) := by
  intro files o
  have consistent : o.all = true ↔ o.items = [] := by decide
  constructor
  · obtain ⟨-, -, reports⟩ := importing_reports files o
    obtain ⟨-, reports⟩ := (reports consistent).1 rfl
    obtain ⟨-, -, printed, -⟩ := reports _ _ (Reached.empty.defineAll _)
    obtain ⟨signatures, written, printed⟩ := printed (by decide +kernel)
    have imported : List.Forall₂ FunctionDecl.Written
        [⟨"println", "IO", [.string], .nil, true⟩] signatures := written
    obtain _ | ⟨⟨params, returns, hparams, hreturns, rfl⟩, none⟩ := imported
    cases none
    cases hreturns
    obtain _ | ⟨⟨⟩, none⟩ := hparams
    cases none
    rw [printed]
    rfl
  · obtain ⟨-, -, reports⟩ := importing_reports files { o with library := some "lib.json" }
    obtain ⟨-, decoded⟩ := (reports consistent).2 "lib.json" rfl
    obtain ⟨-, decoded⟩ := decoded "\x7b\"modules\":\x7b\x7d\x7d" rfl
    have lacking : (Registry.decode.ofText "\x7b\"modules\":\x7b\x7d\x7d").map (·.hasModule "IO") =
        some false := by decide +kernel
    obtain ⟨registry, read, unknown⟩ := Option.map_eq_some_iff.1 lacking
    obtain ⟨⟨ms, ds, reached⟩, reports⟩ := decoded registry read
    exact (reports ms ds reached).2.1.2 unknown

end Command

end StagedLowering
