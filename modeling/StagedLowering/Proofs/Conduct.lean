import StagedLowering.Proofs.Stage
import StagedLowering.Proofs.Visits

/-!
How an emitter comes to the translation of an expression or to its fault. The codegen stage hands
each node to at most one rule, and while an expression is lowered, rules begin and end in an order
that the expression alone decides: these are its marks. A ledger says what a session keeps of each
mark. An emitter whose stage behaves in this way, whatever its ledger, ends every lowering with the
fault or the translation, all marks entered and the depth as it was.
-/
namespace StagedLowering

/-- What happens to a node of an expression while the expression is lowered: a rule is about to be
applied to it, unless none claims it, and the rule's application has come to an end. -/
inductive Mark where
  | begun (e : HighIR)
  | ended (e : HighIR) (v : Verdict)

/-- What the tally and the world of a session keep of a mark. -/
structure Ledger (ω : Type) where
  count : Mark → Tally → Tally
  note : Mark → ω → ω

namespace Ledger

variable {ω : Type} (b : Ledger ω)

def enter (m : Mark) (s : Session ω) : Session ω :=
  { s with tally := b.count m s.tally, world := b.note m s.world }

def enterAll (ms : List Mark) (s : Session ω) : Session ω := ms.foldl (fun s m => b.enter m s) s

@[simp] theorem enter_depth (m : Mark) (s : Session ω) : (b.enter m s).depth = s.depth := rfl

@[simp] theorem enterAll_nil (s : Session ω) : b.enterAll [] s = s := rfl

@[simp] theorem enterAll_cons (m : Mark) (ms : List Mark) (s : Session ω) :
    b.enterAll (m :: ms) s = b.enterAll ms (b.enter m s) := rfl

theorem enterAll_append (ms ms' : List Mark) (s : Session ω) :
    b.enterAll (ms ++ ms') s = b.enterAll ms' (b.enterAll ms s) :=
  List.foldl_append

@[simp] theorem enterAll_depth (ms : List Mark) (s : Session ω) :
    (b.enterAll ms s).depth = s.depth := by
  induction ms generalizing s with
  | nil => rfl
  | cons m ms ih => simp [ih]

/-- Marks are entered the same way at every depth. -/
theorem enterAll_at (ms : List Mark) (s : Session ω) (d : Nat) :
    b.enterAll ms { s with depth := d } = { b.enterAll ms s with depth := d } := by
  induction ms generalizing s with
  | nil => rfl
  | cons m ms ih => exact ih (b.enter m s)

end Ledger

/-- How an application ends on a node with the given fault. -/
def Verdict.ofFault : Option LoweringError → Verdict
  | none => .replaced
  | some _ => .failed

namespace HighIR

/-- Nothing happens to a node that is too deep. -/
def marksWithin (config : Config) (level : Nat) (ms : List Mark) : List Mark :=
  if config.maxDepth.toNat ≤ level then [] else ms

theorem marksWithin_of_lt {config : Config} {level : Nat} {ms : List Mark}
    (h : level < config.maxDepth.toNat) : marksWithin config level ms = ms :=
  if_neg (Nat.not_le.2 h)

mutual

/-- The marks of an expression whose root is at `level`. A fault in an operand or argument keeps
those to the right of it from being lowered, and is the fault of everything around it. -/
def marks (config : Config) (level : Nat) : HighIR → List Mark
  | .binary left op right ty =>
    let e := .binary left op right ty
    marksWithin config level
      (.begun e :: (left.marks config (level + 1) ++
        (if (left.fault config (level + 1)).isNone then right.marks config (level + 1) else []) ++
          [.ended e (.ofFault (fault config level e))]))
  | .call callee args ty =>
    let e := .call callee args ty
    marksWithin config level
      (.begun e :: (marksAll config (level + 1) args ++
        [.ended e (.ofFault (fault config level e))]))
  | .matching scrutinee arms ty => marksWithin config level [.begun (.matching scrutinee arms ty)]
  | .importing module functions => marksWithin config level [.begun (.importing module functions)]
  | e => marksWithin config level [.begun e, .ended e (.ofFault (fault config level e))]

def marksAll (config : Config) (level : Nat) : List HighIR → List Mark
  | [] => []
  | a :: rest =>
    a.marks config level ++
      if (a.fault config level).isNone then marksAll config level rest else []

end

theorem marks_deep {config : Config} {level : Nat} (e : HighIR)
    (h : config.maxDepth.toNat ≤ level) : e.marks config level = [] := by
  cases e <;> simp [marks, marksWithin, h]

variable {ω : Type}

/-- What the rule that claims a node does with it, if one claims it. -/
def convert (config : Config) (lower : HighIR → Act ω Target) : HighIR → Option (Act ω Target)
  | .literal value => some (.ofExcept (Emitter.literalTarget value))
  | .identifier name _ => some (pure (.identifier name))
  | .binary left op right _ => some do
    let left ← lower left
    let right ← lower right
    pure (.infixed left op right)
  | .regex pattern flags =>
    some (pure (.callNamed (config.constructorOf flags) [.string pattern]))
  | .call callee args _ => some do
    let args ← args.mapM lower
    pure (.callNamed callee args)
  | .matching _ _ _ => none
  | .importing _ _ => none

end HighIR

/-- The outcome of a lowering with the given fault and translation. -/
def settle {ω α : Type} (fault : Option LoweringError) (a : α) (s : Session ω) :
    EStateM.Result Failure (Session ω) α :=
  match fault with
  | none => .ok a s
  | some err => .error (.lowering err) s

namespace HighIR

variable {ω : Type} {config : Config} {level : Nat}

/-- A node without operands is converted at once. -/
theorem settle_literal (within : level < config.maxDepth.toNat) (value : Literal)
    (s : Session ω) :
    (Act.ofExcept (Emitter.literalTarget value) : Act ω Target) s =
      settle (fault config level (.literal value)) (translate config (.literal value)) s := by
  have shallow := Nat.not_le.2 within
  cases value with
  | float value =>
    cases hfinite : value.finite <;>
      simp [fault, visits, Config.offence, shallow, Emitter.literalTarget, hfinite] <;> rfl
  | int _ | str _ | bool _ | nil =>
    simp [fault, visits, Config.offence, shallow]
    rfl

theorem settle_identifier (within : level < config.maxDepth.toNat) (name : String) (ty : Ty)
    (s : Session ω) :
    (pure (.identifier name) : Act ω Target) s =
      settle (fault config level (.identifier name ty)) (translate config (.identifier name ty))
        s := by
  simp [fault, visits, Config.offence, Nat.not_le.2 within]
  rfl

theorem settle_regex (within : level < config.maxDepth.toNat) (pattern flags : String)
    (s : Session ω) :
    (pure (.callNamed (config.constructorOf flags) [.string pattern]) : Act ω Target) s =
      settle (fault config level (.regex pattern flags)) (translate config (.regex pattern flags))
        s := by
  have chosen : Target.callNamed (config.constructorOf flags) [.string pattern] =
      (HighIR.regex pattern flags).translate config := by
    simp [Target.callNamed, Config.constructorOf, translate]
  simp [fault, visits, Config.offence, Nat.not_le.2 within, chosen]
  rfl

/-- The fault of a node that no rule claims. -/
theorem fault_unclaimed (within : level < config.maxDepth.toNat) {e : HighIR}
    {lower : HighIR → Act ω Target} (unclaimed : e.convert config lower = none) :
    e.fault config level = some (.notLowered Stage.codegen e.kind) := by
  cases e with
  | matching _ _ _ | importing _ _ =>
    simp [fault, visits, Config.offence, Nat.not_le.2 within, kind]
  | _ => simp [convert] at unclaimed

end HighIR

namespace Ledger

variable {ω : Type} (b : Ledger ω)

/-- The stage that enters its marks in a ledger around the conversion of the node. -/
def stage (e : HighIR) : Option (Act ω Target) → Act ω Node
  | none => fun s => .ok (.high e) (b.enter (.begun e) s)
  | some conversion => fun s =>
    match conversion (b.enter (.begun e) s) with
    | .ok t s' => .ok (.target t) (b.enter (.ended e .replaced) s')
    | .error f s' => .error f (b.enter (.ended e .failed) s')

theorem stage_some {e : HighIR} {conversion : Act ω Target} {s s' : Session ω}
    {fault : Option LoweringError} {t : Target}
    (h : conversion (b.enter (.begun e) s) = settle fault t s') :
    b.stage e (some conversion) s =
      settle fault (.target t) (b.enter (.ended e (.ofFault fault)) s') := by
  cases fault <;> simp [stage, h, settle, Verdict.ofFault]

end Ledger

namespace Emitter

variable {ω δ : Type}

/-- One lowering within the limit, once the stage is checked: the stage runs one level down, and the
depth comes back. -/
theorem lowerWithin_checked (m : Emitter ω δ) {levels : Nat} {e : HighIR} {s : Session ω}
    (within : s.depth < m.maxDepth.toNat)
    (checked : m.engine.validate Stage.codegen (.high e) (m.context (m.lowerWithin levels)) s =
      .ok () s) :
    m.lowerWithin (levels + 1) e s =
      match m.engine.apply Stage.codegen (.high e) (m.context (m.lowerWithin levels))
          { s with depth := s.depth + 1 } with
      | .ok n s' => Act.ofExcept (targetOf Stage.codegen n) { s' with depth := s.depth }
      | .error f s' => .error f { s' with depth := s.depth } := by
  rw [lowerWithin, Act.bind_ok (Act.depth_apply s), if_neg (Nat.not_le.2 within),
    Act.bind_ok checked, Act.bind_ok (Act.setDepth_apply _ s)]
  generalize m.engine.apply Stage.codegen (.high e) _ = stage
  cases hstage : stage { s with depth := s.depth + 1 } with
  | ok n s' =>
    rw [Act.bind_ok (Act.attempt_ok hstage)]
    rfl
  | error f s' =>
    rw [Act.bind_ok (Act.attempt_error hstage)]
    rfl

/-- Lowering an expression whose nesting is used up, by the count of levels or by the depth. -/
theorem lowerWithin_deep (m : Emitter ω δ) (levels : Nat) (e : HighIR) (s : Session ω)
    (deep : m.maxDepth.toNat ≤ s.depth) :
    m.lowerWithin levels e s = .error (.lowering (.depthExceeded m.maxDepth)) s := by
  cases levels with
  | zero => rfl
  | succ levels =>
    rw [lowerWithin, Act.bind_ok (Act.depth_apply s), if_pos deep]
    rfl

/-- The emitter's codegen stage never lacks a collaborator, hands each node to the rule made for it
and leaves in the session what the ledger says. -/
structure Conducts (m : Emitter ω δ) (config : Config) (b : Ledger ω) : Prop where
  maxDepth : m.maxDepth = config.maxDepth
  validate : ∀ e lower s,
    m.engine.validate Stage.codegen (.high e) (m.context lower) s = .ok () s
  apply : ∀ e lower,
    m.engine.apply Stage.codegen (.high e) (m.context lower) = b.stage e (e.convert config lower)

namespace Conducts

variable {m : Emitter ω δ} {config : Config} {b : Ledger ω}

theorem lowerWithin_succ (h : m.Conducts config b) (levels : Nat) (e : HighIR) (s : Session ω)
    (within : s.depth < config.maxDepth.toNat) :
    m.lowerWithin (levels + 1) e s =
      match b.stage e (e.convert config (m.lowerWithin levels)) { s with depth := s.depth + 1 } with
      | .ok n s' => Act.ofExcept (targetOf Stage.codegen n) { s' with depth := s.depth }
      | .error f s' => .error f { s' with depth := s.depth } := by
  rw [m.lowerWithin_checked (by rwa [h.maxDepth]) (h.validate e _ s), h.apply]

/-- One lowering within the limit of a node that a rule claims, given what the rule comes to one
level down. -/
theorem lowerWithin_claimed (h : m.Conducts config b) (levels : Nat) (e : HighIR) (s : Session ω)
    (within : s.depth < config.maxDepth.toNat) {conversion : Act ω Target}
    (claimed : e.convert config (m.lowerWithin levels) = some conversion)
    {fault : Option LoweringError} {t : Target} {ms : List Mark}
    (run : ∀ s', s'.depth = s.depth + 1 → conversion s' = settle fault t (b.enterAll ms s')) :
    m.lowerWithin (levels + 1) e s =
      settle fault t (b.enterAll (.begun e :: (ms ++ [.ended e (.ofFault fault)])) s) := by
  have done := run (b.enter (.begun e) { s with depth := s.depth + 1 }) rfl
  have back (ms' : List Mark) :
      { b.enterAll ms' { s with depth := s.depth + 1 } with depth := s.depth } =
        b.enterAll ms' s := by
    rw [b.enterAll_at, ← b.enterAll_depth ms' s]
  rw [h.lowerWithin_succ levels e s within, claimed, b.stage_some done, ← back]
  cases fault with
  | none => simp [settle, b.enterAll_append, targetOf, Node.target?, Act.ofExcept]
  | some err => simp [settle, b.enterAll_append]

/-- One lowering within the limit of a node that no rule claims. -/
theorem lowerWithin_unclaimed (h : m.Conducts config b) (levels : Nat) (e : HighIR)
    (s : Session ω) (within : s.depth < config.maxDepth.toNat)
    (unclaimed : e.convert config (m.lowerWithin levels) = none) :
    m.lowerWithin (levels + 1) e s =
      .error (.lowering (.notLowered Stage.codegen e.kind)) (b.enter (.begun e) s) := by
  rw [h.lowerWithin_succ levels e s within, unclaimed]
  rfl

/-- What lowering `e` within so many levels comes to, from every depth that leaves no more. -/
def Lowers (m : Emitter ω δ) (config : Config) (b : Ledger ω) (levels : Nat) (e : HighIR) : Prop :=
  ∀ (level : Nat) (s : Session ω), s.depth = level → config.maxDepth.toNat ≤ levels + level →
    m.lowerWithin levels e s =
      settle (e.fault config level) (e.translate config) (b.enterAll (e.marks config level) s)

/-- Only lowerings within the limit have to be looked at. -/
theorem lowers_of_within (h : m.Conducts config b) {e : HighIR} {levels : Nat}
    (step : ∀ (n : Nat) (s : Session ω), levels = n + 1 → s.depth < config.maxDepth.toNat →
      config.maxDepth.toNat ≤ n + (s.depth + 1) →
      m.lowerWithin (n + 1) e s =
        settle (e.fault config s.depth) (e.translate config)
          (b.enterAll (e.marks config s.depth) s)) :
    Lowers m config b levels e := by
  rintro level s rfl enough
  by_cases deep : config.maxDepth.toNat ≤ s.depth
  · rw [m.lowerWithin_deep levels e s (by rwa [h.maxDepth]), h.maxDepth,
      HighIR.fault_deep config s.depth e deep, HighIR.marks_deep e deep]
    rfl
  · cases levels with
    | zero => omega
    | succ n => exact step n s rfl (Nat.lt_of_not_le deep) (by omega)

/-- Arguments are lowered from left to right up to the first fault. -/
theorem mapM_lowerWithin {levels level : Nat} {args : List HighIR}
    (ih : ∀ a ∈ args, Lowers m config b levels a) (s : Session ω) (hs : s.depth = level)
    (enough : config.maxDepth.toNat ≤ levels + level) :
    args.mapM (m.lowerWithin levels) s =
      settle (HighIR.faultAll config level args) (HighIR.translateAll config args)
        (b.enterAll (HighIR.marksAll config level args) s) := by
  induction args generalizing s with
  | nil => rfl
  | cons a rest ihrest =>
    have first := ih a List.mem_cons_self level s hs enough
    rw [List.mapM_cons, HighIR.faultAll_cons, HighIR.marksAll]
    cases hfault : a.fault config level with
    | some err =>
      rw [hfault] at first
      rw [Act.bind_error first]
      simp [settle]
    | none =>
      rw [hfault] at first
      have others := ihrest (fun b hb => ih b (List.mem_cons_of_mem a hb))
        (b.enterAll (a.marks config level) s) (by simpa using hs)
      rw [Act.bind_ok first]
      cases hall : HighIR.faultAll config level rest with
      | some err =>
        rw [hall] at others
        rw [Act.bind_error others]
        simp [settle, b.enterAll_append]
      | none =>
        rw [hall] at others
        rw [Act.bind_ok others]
        simp [settle, b.enterAll_append, HighIR.translateAll]

/-- The left operand's fault is the outcome, and keeps the right one from being lowered. -/
theorem binary_lowerWithin {levels level : Nat} {left right : HighIR} (op : String)
    (ihl : Lowers m config b levels left) (ihr : Lowers m config b levels right) (s : Session ω)
    (hs : s.depth = level) (enough : config.maxDepth.toNat ≤ levels + level) :
    (do
      let left ← m.lowerWithin levels left
      let right ← m.lowerWithin levels right
      pure (Target.infixed left op right) : Act ω Target) s =
      settle ((left.fault config level).or (right.fault config level))
        (.infixed (left.translate config) op (right.translate config))
        (b.enterAll
          (left.marks config level ++
            if (left.fault config level).isNone then right.marks config level else []) s) := by
  have first := ihl level s hs enough
  cases hl : left.fault config level with
  | some err =>
    rw [hl] at first
    rw [Act.bind_error first]
    simp [settle]
  | none =>
    rw [hl] at first
    have second := ihr level (b.enterAll (left.marks config level) s) (by simpa using hs) enough
    rw [Act.bind_ok first]
    cases hr : right.fault config level with
    | some err =>
      rw [hr] at second
      rw [Act.bind_error second]
      simp [settle, b.enterAll_append]
    | none =>
      rw [hr] at second
      rw [Act.bind_ok second]
      simp [settle, b.enterAll_append]

/-- A node that is converted at once, without any lowering below it. -/
theorem lowers_leaf (h : m.Conducts config b) {e : HighIR} {conversion : Act ω Target}
    (claimed : ∀ lower, e.convert config lower = some conversion)
    (marks : ∀ level, e.marks config level =
      HighIR.marksWithin config level [.begun e, .ended e (.ofFault (e.fault config level))])
    (run : ∀ level s, level < config.maxDepth.toNat →
      conversion s = settle (e.fault config level) (e.translate config) s) (levels : Nat) :
    Lowers m config b levels e := by
  refine h.lowers_of_within fun n s _ within _ => ?_
  have run (s' : Session ω) (_ : s'.depth = s.depth + 1) :
      conversion s' = settle (e.fault config s.depth) (e.translate config) (b.enterAll [] s') :=
    run s.depth s' within
  rw [h.lowerWithin_claimed n e s within (claimed _) run, marks, HighIR.marksWithin_of_lt within]
  rfl

/-- A node that no rule claims. -/
theorem lowers_unclaimed (h : m.Conducts config b) {e : HighIR}
    (unclaimed : ∀ lower : HighIR → Act ω Target, e.convert config lower = none)
    (marks : ∀ level, e.marks config level = HighIR.marksWithin config level [.begun e])
    (levels : Nat) : Lowers m config b levels e := by
  refine h.lowers_of_within fun n s _ within _ => ?_
  rw [h.lowerWithin_unclaimed n e s within (unclaimed _), marks,
    HighIR.marksWithin_of_lt within, HighIR.fault_unclaimed within (unclaimed (m.lowerWithin n))]
  rfl

/-- An emitter that conducts its stage in this way ends every lowering with the fault of the
expression or, without one, with its translation. -/
theorem lowers (h : m.Conducts config b) (levels : Nat) (e : HighIR) :
    Lowers m config b levels e := by
  -- the levels go down by one with the depth going up, so each operand has enough of them left
  induction e using HighIR.operandInduction generalizing levels with
  | literal value =>
    exact h.lowers_leaf (fun _ => rfl) (fun _ => by simp [HighIR.marks])
      (fun _ s within => HighIR.settle_literal within value s) levels
  | identifier name ty =>
    exact h.lowers_leaf (fun _ => rfl) (fun _ => by simp [HighIR.marks])
      (fun _ s within => HighIR.settle_identifier within name ty s) levels
  | regex pattern flags =>
    exact h.lowers_leaf (fun _ => rfl) (fun _ => by simp [HighIR.marks])
      (fun _ s within => HighIR.settle_regex within pattern flags s) levels
  | binary left op right ty ihl ihr =>
    refine h.lowers_of_within fun n s _ within enough => ?_
    have run (s' : Session ω) (hs' : s'.depth = s.depth + 1) :=
      binary_lowerWithin op (ihl n) (ihr n) s' hs' enough
    rw [h.lowerWithin_claimed n _ s within rfl run, HighIR.marks,
      HighIR.marksWithin_of_lt within, HighIR.fault_binary config _ _ _ _ _ within]
    rfl
  | call callee args ty ih =>
    refine h.lowers_of_within fun n s _ within enough => ?_
    have run (s' : Session ω) (hs' : s'.depth = s.depth + 1) :
        (do let args ← args.mapM (m.lowerWithin n); pure (Target.callNamed callee args)) s' =
          settle (HighIR.faultAll config (s.depth + 1) args)
            (.callNamed callee (HighIR.translateAll config args))
            (b.enterAll (HighIR.marksAll config (s.depth + 1) args) s') := by
      have all := mapM_lowerWithin (fun a ha => ih a ha n) s' hs' enough
      cases hfault : HighIR.faultAll config (s.depth + 1) args with
      | some err =>
        rw [hfault] at all
        exact Act.bind_error all
      | none =>
        rw [hfault] at all
        exact Act.bind_ok all
    rw [h.lowerWithin_claimed n _ s within rfl run, HighIR.marks,
      HighIR.marksWithin_of_lt within, HighIR.fault_call config _ _ _ _ within]
    rfl
  | matching scrutinee arms ty | importing module functions =>
    exact h.lowers_unclaimed (fun _ => rfl) (fun _ => by simp [HighIR.marks]) levels

/-- The count of levels never decides: the emitter starts with as many as its limit. -/
theorem lower_eq (h : m.Conducts config b) (e : HighIR) (s : Session ω) :
    m.lower e s =
      settle (e.fault config s.depth) (e.translate config)
        (b.enterAll (e.marks config s.depth) s) :=
  h.lowers _ e s.depth s rfl (by rw [h.maxDepth]; omega)

end Conducts

end Emitter

/-- The name of the rule that claims a node. -/
def HighIR.handler : HighIR → String
  | .literal _ | .identifier _ _ => "TargetEmitter::emit_leaf"
  | .call _ _ _ => "TargetEmitter::emit_call"
  | .binary _ _ _ _ => "BinaryExpressionLowering"
  | .regex _ _ => "RegexLiteralLowering"
  | .matching _ _ _ | .importing _ _ => ""

/-- How many rules of the codegen stage are tested against a node, up to the one that claims it. -/
def HighIR.tests : HighIR → Nat
  | .literal _ | .identifier _ _ => 1
  | .call _ _ _ => 2
  | .binary _ _ _ _ => 3
  | .regex _ _ | .matching _ _ _ | .importing _ _ => 4

/-- The ledger of the default engine: an application is counted when it ends, if at all. -/
def Ledger.counting {ω : Type} (config : Config) : Ledger ω where
  count
    | .begun _, tally => tally
    | .ended e v, tally =>
      if config.collectStats then tally.record Stage.codegen e.handler v else tally
  note _ world := world

namespace Emitter

variable {ω δ : Type} (m : Emitter ω δ) (lower : HighIR → Act ω Target)

theorem context_lowerer : (m.context lower).lowerer = .ok lower := rfl

theorem context_delegate :
    (m.context lower).delegate delegateType m.delegateKey = .ok lower := by
  simp [context, Context.withDelegate, Context.delegate, Context.delegate?, delegateType]

/-- The emitter is there as the lowerer and under its own key, whatever the key. -/
theorem context_has :
    ∀ k ∈ [Key.lowerer, .delegate m.delegateKey], (m.context lower).has k = true := by
  simp [context, Context.withDelegate, Context.has]

end Emitter

namespace Pipeline

variable {ω δ : Type} (config : Config)

/-- The pipeline of a configuration that need not be valid. -/
def unchecked : Pipeline ω δ := ⟨config, defaultEngine config⟩

/-- The rules of the codegen stage in order. -/
def codegenRules : List (Rule ω δ) :=
  [Emitter.leafLowering config.delegateKey, Emitter.callLowering config.delegateKey,
    Rule.binaryLowering, Rule.regexLowering config]

theorem entries_codegen :
    (defaultEngine config : Engine ω δ).entries Stage.codegen =
      (codegenRules config).map Entry.ofRule := by
  have other : Stage.coreIR ≠ Stage.codegen := by decide
  simp only [defaultEngine, Engine.entries_register, if_neg other, if_true]
  rfl

/-- No rule of the stage claims a target expression. -/
theorem codegenRules_decline (c : Context ω δ) (t : Target) :
    ∀ r ∈ codegenRules config, r.applies (.target t) c = false := by
  simp only [codegenRules, List.forall_mem_cons]
  refine ⟨?_, ?_, rfl, rfl, by simp⟩
  · cases t <;> rfl
  · cases t <;> rfl

/-- The rules of the stage look at the node alone to decide whether they claim it. -/
theorem codegenRules_applies :
    ∀ r ∈ (codegenRules config : List (Rule ω δ)), ∀ n c c', r.applies n c = r.applies n c' := by
  simp only [codegenRules, List.forall_mem_cons]
  exact ⟨fun _ _ _ => rfl, fun _ _ _ => rfl, fun _ _ _ => rfl, fun _ _ _ => rfl, by simp⟩

/-- The rules that come before the one for `e` decline it, and that one converts it. -/
def Claims (rules : List (Rule ω δ)) (c : Context ω δ) (e : HighIR) (conversion : Act ω Target) :
    Prop :=
  ∃ before r after, rules = before ++ r :: after ∧ before.length + 1 = e.tests ∧
    r.name = e.handler ∧ (∀ r ∈ before, r.applies (.high e) c = false) ∧
    r.applies (.high e) c = true ∧
    r.apply (.high e) c = do let t ← conversion; pure (.replaced (.target t))

/-- One of the rules converts the node, or none of them claims it. -/
def Handles (rules : List (Rule ω δ)) (c : Context ω δ) (e : HighIR) :
    Option (Act ω Target) → Prop
  | some conversion => Claims rules c e conversion
  | none => rules.length = e.tests ∧ ∀ r ∈ rules, r.applies (.high e) c = false

/-- What the delegate under the emitter's key makes of a node is what the emitter makes of it. -/
theorem delegation_apply (m : Emitter ω δ) (lower : HighIR → Act ω Target)
    (d : Delegation ω δ (HighIR → Act ω Target)) (htype : d.type = Emitter.delegateType)
    (hkey : d.key = m.delegateKey) (name : String) (n : Node) :
    (d.rule name).apply n (m.context lower) =
      d.method lower n >>= fun replacement => pure (.replaced replacement) := by
  change (do
    let delegate ← Act.ofExcept ((m.context lower).delegate d.type d.key)
    let replacement ← d.method delegate n
    pure (Outcome.replaced replacement)) = _
  rw [htype, hkey, m.context_delegate lower]
  simp [Act.ofExcept]

theorem codegenRules_handle (m : Emitter ω δ) (hkey : m.delegateKey = config.delegateKey)
    (lower : HighIR → Act ω Target) (e : HighIR) :
    Handles (codegenRules config) (m.context lower) e (e.convert config lower) := by
  cases e with
  | literal value =>
    refine ⟨[], _, _, rfl, rfl, rfl, by simp, rfl, ?_⟩
    rw [Emitter.leafLowering, delegation_apply m lower _ rfl hkey.symm]
    simp [Emitter.leaf]
  | identifier name ty =>
    refine ⟨[], _, _, rfl, rfl, rfl, by simp, rfl, ?_⟩
    rw [Emitter.leafLowering, delegation_apply m lower _ rfl hkey.symm]
    simp [Emitter.leaf]
  | call callee args ty =>
    refine ⟨[_], _, _, rfl, rfl, rfl, List.forall_mem_singleton.2 rfl, rfl, ?_⟩
    rw [Emitter.callLowering, delegation_apply m lower _ rfl hkey.symm]
    simp [Emitter.call]
  | binary left op right ty =>
    refine ⟨[_, _], _, _, rfl, rfl, rfl, ?_, rfl, ?_⟩
    · exact List.forall_mem_cons.2 ⟨rfl, List.forall_mem_singleton.2 rfl⟩
    · simp [Rule.binaryLowering, m.context_lowerer, Act.ofExcept]
  | regex pattern flags =>
    refine ⟨[_, _, _], _, _, rfl, rfl, rfl, ?_, rfl, ?_⟩
    · exact List.forall_mem_cons.2
        ⟨rfl, List.forall_mem_cons.2 ⟨rfl, List.forall_mem_singleton.2 rfl⟩⟩
    · simp [Rule.regexLowering]
  | matching scrutinee arms ty => exact ⟨rfl, by simpa [codegenRules] using ⟨rfl, rfl, rfl, rfl⟩⟩
  | importing module functions => exact ⟨rfl, by simpa [codegenRules] using ⟨rfl, rfl, rfl, rfl⟩⟩

/-- The rules of the stage require nothing but the emitter in its two places. -/
theorem codegenRules_requires :
    ∀ r ∈ (codegenRules config : List (Rule ω δ)), ∀ k ∈ r.requires,
      k ∈ [Key.lowerer, .delegate config.delegateKey] := by
  simp [codegenRules, Emitter.leafLowering, Emitter.callLowering, Delegation.rule,
    Rule.binaryLowering, Rule.regexLowering]

theorem counting_ended {E : Engine ω δ} (counts : E.collectStats = config.collectStats) (e : HighIR)
    (v : Verdict) (s : Session ω) :
    E.counted Stage.codegen e.handler v s = (Ledger.counting config).enter (.ended e v) s := by
  unfold Engine.counted Ledger.enter Ledger.counting
  rw [counts]
  cases config.collectStats <;> rfl

/-- An engine whose rules handle a node enters it in the ledger, whatever the rules are. -/
theorem apply_of_handles {E : Engine ω δ} (counts : E.collectStats = config.collectStats)
    {rules : List (Rule ω δ)} (entries : E.entries Stage.codegen = rules.map Entry.ofRule)
    {c : Context ω δ} (decline : ∀ t, ∀ r ∈ rules, r.applies (.target t) c = false) {e : HighIR}
    {conversion : Option (Act ω Target)} (handles : Handles rules c e conversion) :
    E.apply Stage.codegen (.high e) c = (Ledger.counting config).stage e conversion := by
  funext s
  rw [Engine.apply, entries]
  cases conversion with
  | none => exact E.foldlM_unclaimed _ c _ s rules handles.2
  | some conversion =>
    obtain ⟨before, r, after, rfl, -, hname, hbefore, hclaims, happly⟩ := handles
    have hafter (r : Rule ω δ) (hr : r ∈ after) (t : Target) := decline t r (by simp [hr])
    rw [E.foldlM_converted _ c _ s before after hbefore hclaims hafter happly, hname]
    simp only [counting_ended config counts]
    rfl

/-- The default engine conducts the codegen stage, for any configuration. -/
theorem conducts :
    (unchecked config : Pipeline ω δ).emitter.Conducts config (.counting config) where
  maxDepth := rfl
  validate e lower s := by
    change (defaultEngine config).validate _ _ _ s = _
    rw [Engine.validate_shared _ _ _ _ s (codegenRules config) (entries_codegen config),
      Context.require_eq_ok]
    · rfl
    · intro k hk
      obtain ⟨r, hr, hk⟩ := List.mem_flatMap.1 hk
      split at hk
      · exact Emitter.context_has _ lower k (codegenRules_requires config r hr k hk)
      · simp at hk
  apply e lower :=
    apply_of_handles config rfl (entries_codegen config) (codegenRules_decline config _)
      (codegenRules_handle config (unchecked config : Pipeline ω δ).emitter rfl lower e)

/-- What a pipeline's lowering comes to, from any session. -/
theorem lower_eq (e : HighIR) (s : Session ω) :
    (unchecked config : Pipeline ω δ).lower e s =
      settle (e.fault config s.depth) (e.translate config)
        ((Ledger.counting config).enterAll (e.marks config s.depth) s) :=
  (conducts config).lower_eq e s

end Pipeline

end StagedLowering
