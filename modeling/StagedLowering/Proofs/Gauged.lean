import StagedLowering.Proofs.Checking
import StagedLowering.Proofs.Conduct

/-!
Gauging the count of lowerings under way. A gauged lowerer notes the count in the world when it is
entered and when it is left, and a gauged rule notes it before and after it is applied, with all its
lowerers gauged. The emitter itself is left as it is. Which moments its lowering of an expression
notes can be read off the expression: they nest like brackets, and each of them gives the number of
rules being applied around it.
-/
namespace StagedLowering

variable {ω δ α β : Type}

/-- What is noted, with the count of lowerings at that moment. -/
inductive Moment where
  | entered (depth : Nat)
  | applying (depth : Nat)
  | applied (depth : Nat)
  | left (depth : Nat)
  deriving DecidableEq

def Moment.depth : Moment → Nat
  | .entered depth | .applying depth | .applied depth | .left depth => depth

/-- Moments between two others of one count. -/
def around (before after : Nat → Moment) (depth : Nat) (inner : List Moment) : List Moment :=
  before depth :: (inner ++ [after depth])

theorem mem_around {before after : Nat → Moment} {depth : Nat} {inner : List Moment}
    {moment : Moment} :
    moment ∈ around before after depth inner ↔
      moment = before depth ∨ moment ∈ inner ∨ moment = after depth := by
  simp [around]

/-- The moments of lowerings that follow each other while `k` rules are being applied. A lowering
counts `k` when it is entered and left. If it has a rule applied, the rule is counted, and at most
`limit` rules are being applied inside each other. -/
inductive Nested (limit : Nat) : Nat → List Moment → Prop
  | nil (k : Nat) : Nested limit k []
  | refused (k : Nat) : Nested limit k (around .entered .left k [])
  | lowered {k : Nat} {inner : List Moment} (within : k + 1 ≤ limit)
      (nested : Nested limit (k + 1) inner) :
      Nested limit k (around .entered .left k (around .applying .applied (k + 1) inner))
  | append {k : Nat} {first rest : List Moment} (nested : Nested limit k first)
      (nested' : Nested limit k rest) : Nested limit k (first ++ rest)

theorem Nested.depth_le {limit k : Nat} {trace : List Moment} (h : Nested limit k trace)
    (within : k ≤ limit) : ∀ moment ∈ trace, moment.depth ≤ limit := by
  induction h with
  | nil k => simp
  | refused k => simp [around, Moment.depth, within]
  | lowered inside nested ih =>
    intro moment hmoment
    rw [mem_around, mem_around] at hmoment
    rcases hmoment with rfl | (rfl | inner | rfl) | rfl
    · exact within
    · exact inside
    · exact ih inside moment inner
    · exact inside
    · exact within
  | append _ _ ih ih' =>
    intro moment hmoment
    rcases List.mem_append.1 hmoment with first | rest
    · exact ih within moment first
    · exact ih' within moment rest

namespace HighIR

/-- The moments of one lowering, given those of what its rules do. -/
def lowering (config : Config) (level : Nat) (stage : List Moment) : List Moment :=
  around .entered .left level (if config.maxDepth.toNat ≤ level then [] else stage)

theorem lowering_deep {config : Config} {level : Nat} (h : config.maxDepth.toNat ≤ level)
    (stage : List Moment) : lowering config level stage = around .entered .left level [] := by
  rw [lowering, if_pos h]

theorem lowering_within {config : Config} {level : Nat} (h : level < config.maxDepth.toNat)
    (stage : List Moment) : lowering config level stage = around .entered .left level stage := by
  rw [lowering, if_neg (Nat.not_le.2 h)]

mutual

/-- The moments of lowering an expression whose root is at `level`. A fault keeps what is to the
right of it from being lowered. -/
def moments (config : Config) (level : Nat) : HighIR → List Moment
  | .binary left _ right _ =>
    lowering config level (around .applying .applied (level + 1)
      (left.moments config (level + 1) ++
        if (left.fault config (level + 1)).isNone then right.moments config (level + 1) else []))
  | .call _ args _ =>
    lowering config level
      (around .applying .applied (level + 1) (momentsAll config (level + 1) args))
  | .matching _ _ _ | .importing _ _ => lowering config level []
  | .literal _ | .identifier _ _ | .regex _ _ =>
    lowering config level (around .applying .applied (level + 1) [])

def momentsAll (config : Config) (level : Nat) : List HighIR → List Moment
  | [] => []
  | a :: rest =>
    a.moments config level ++
      if (a.fault config level).isNone then momentsAll config level rest else []

end

theorem moments_deep {config : Config} {level : Nat} (e : HighIR)
    (h : config.maxDepth.toNat ≤ level) :
    e.moments config level = around .entered .left level [] := by
  cases e <;> simp only [moments, lowering_deep h]

end HighIR

namespace Nested

variable {config : Config}

theorem lowering {level : Nat} {inner : List Moment}
    (nested : Nested config.maxDepth.toNat (level + 1) inner) :
    Nested config.maxDepth.toNat level
      (HighIR.lowering config level (around .applying .applied (level + 1) inner)) := by
  by_cases deep : config.maxDepth.toNat ≤ level
  · rw [HighIR.lowering_deep deep]
    exact .refused level
  · rw [HighIR.lowering_within (Nat.lt_of_not_le deep)]
    exact .lowered (Nat.lt_of_not_le deep) nested

theorem if_append {limit k : Nat} {first rest : List Moment} (b : Bool)
    (nested : Nested limit k first) (nested' : Nested limit k rest) :
    Nested limit k (first ++ if b then rest else []) := by
  cases b with
  | true => exact nested.append nested'
  | false => exact nested.append (.nil k)

theorem momentsAll {level : Nat} {args : List HighIR}
    (h : ∀ a ∈ args, Nested config.maxDepth.toNat level (a.moments config level)) :
    Nested config.maxDepth.toNat level (HighIR.momentsAll config level args) := by
  induction args with
  | nil => exact .nil level
  | cons a rest ih =>
    obtain ⟨first, others⟩ := List.forall_mem_cons.1 h
    rw [HighIR.momentsAll]
    exact first.if_append _ (ih others)

/-- Each lowering of an expression is counted for as long as its rule is applied. -/
theorem moments (config : Config) (level : Nat) (e : HighIR) :
    Nested config.maxDepth.toNat level (e.moments config level) := by
  induction e using HighIR.operandInduction generalizing level with
  | literal value | identifier name ty | regex pattern flags =>
    simpa only [HighIR.moments] using lowering (.nil _)
  | binary left op right ty ihl ihr =>
    rw [HighIR.moments]
    exact lowering ((ihl _).if_append _ (ihr _))
  | call callee args ty ih =>
    rw [HighIR.moments]
    exact lowering (momentsAll fun a ha => ih a ha _)
  | matching scrutinee arms ty | importing module functions =>
    simpa only [HighIR.moments, HighIR.lowering, ite_self] using refused level

end Nested

namespace Act

theorem attempt_apply (a : Act ω α) (s : Session ω) :
    attempt a s = .ok (outcomeOf (a s)) (sessionOf (a s)) := by
  unfold attempt
  cases a s <;> rfl

theorem outcomeOf_resume (outcome : Except Failure α) (s : Session ω) :
    outcomeOf (resume outcome s) = outcome := by
  cases outcome <;> rfl

theorem sessionOf_resume (outcome : Except Failure α) (s : Session ω) :
    sessionOf (resume outcome s) = s := by
  cases outcome <;> rfl

theorem outcomeOf_ofExcept (x : Except LoweringError α) (s : Session ω) :
    outcomeOf (ofExcept x s) = x.mapError .lowering := by
  cases x <;> rfl

theorem sessionOf_ofExcept (x : Except LoweringError α) (s : Session ω) :
    sessionOf (ofExcept x s) = s := by
  cases x <;> rfl

end Act

/-- The session with a note of its count. -/
def Session.noted (moment : Nat → Moment) (s : Session (List Moment)) : Session (List Moment) :=
  { s with world := s.world ++ [moment s.depth] }

namespace Act

def note (moment : Nat → Moment) : Act (List Moment) Unit := fun s => .ok () (s.noted moment)

theorem note_apply (moment : Nat → Moment) (s : Session (List Moment)) :
    note moment s = .ok () (s.noted moment) := rfl

/-- Note the count before and after the action, however that ends. -/
def between (before after : Nat → Moment) (a : Act (List Moment) α) : Act (List Moment) α := do
  note before
  let outcome ← attempt a
  note after
  resume outcome

theorem between_apply (before after : Nat → Moment) (a : Act (List Moment) α)
    (s : Session (List Moment)) :
    between before after a s =
      resume (outcomeOf (a (s.noted before))) ((sessionOf (a (s.noted before))).noted after) := by
  rw [between, bind_ok (note_apply before s), bind_ok (attempt_apply a _),
    bind_ok (note_apply after _)]

/-- What is made of a value afterwards does not matter to the notes. -/
theorem between_bind_pure (before after : Nat → Moment) (a : Act (List Moment) α) (f : α → β) :
    between before after (a >>= fun x => pure (f x)) =
      between before after a >>= fun x => pure (f x) := by
  funext s
  rw [between_apply]
  cases ha : a (s.noted before) with
  | ok x s' =>
    have noted : between before after a s = .ok x (s'.noted after) := by
      rw [between_apply, ha]
      rfl
    rw [bind_ok ha, bind_ok noted]
    rfl
  | error f s' =>
    have noted : between before after a s = .error f (s'.noted after) := by
      rw [between_apply, ha]
      rfl
    rw [bind_error ha, bind_error noted]
    rfl

end Act

/-- How a lowering with the given fault and translation ends. -/
def ending (fault : Option LoweringError) (a : α) : Except Failure α :=
  match fault with
  | none => .ok a
  | some err => .error (.lowering err)

/-- From a count of `k` the action ends in this way, with the count as it was and these moments
added to the world. -/
def Act.Runs (k : Nat) (a : Act (List Moment) α) (outcome : Except Failure α)
    (trace : List Moment) : Prop :=
  ∀ s, s.depth = k → outcomeOf (a s) = outcome ∧ (sessionOf (a s)).depth = k ∧
    (sessionOf (a s)).world = s.world ++ trace

namespace Act.Runs

variable {k : Nat}

/-- An action that leaves the session alone. -/
theorem of_still {a : Act (List Moment) α} {outcome : Except Failure α}
    (h : ∀ s, s.depth = k → a s = resume outcome s) : Runs k a outcome [] := by
  intro s hs
  rw [h s hs, outcomeOf_resume, sessionOf_resume]
  exact ⟨rfl, hs, by simp⟩

theorem of_settle {a : Act (List Moment) α} {fault : Option LoweringError} {x : α}
    (h : ∀ s, a s = settle fault x s) : Runs k a (ending fault x) [] := by
  refine .of_still fun s _ => ?_
  rw [h s]
  cases fault <;> rfl

theorem pure (x : α) : Runs k (pure x) (ending none x) [] := .of_still fun _ _ => rfl

/-- A fault of the first action keeps the second one from running. -/
theorem bind {a : Act (List Moment) α} {f : α → Act (List Moment) β}
    {fault fault' : Option LoweringError} {x : α} {y : β} {trace trace' : List Moment}
    (first : Runs k a (ending fault x) trace) (rest : Runs k (f x) (ending fault' y) trace') :
    Runs k (a >>= f) (ending (fault.or fault') y)
      (trace ++ if fault.isNone then trace' else []) := by
  intro s hs
  obtain ⟨ended, depth, world⟩ := first s hs
  cases fault with
  | some err =>
    cases ha : a s with
    | ok x s' => simp [ha, outcomeOf, ending] at ended
    | error f s' =>
      rw [ha] at ended depth world
      rw [bind_error ha]
      cases ended
      exact ⟨rfl, depth, world.trans (by simp)⟩
  | none =>
    cases ha : a s with
    | error f s' => simp [ha, outcomeOf, ending] at ended
    | ok x' s' =>
      rw [ha] at ended depth world
      cases ended
      rw [bind_ok ha]
      obtain ⟨ended', depth', world'⟩ := rest s' depth
      have joined : s'.world = s.world ++ trace := world
      exact ⟨by simpa using ended', depth', by simp [world', joined]⟩

/-- What is made of a value afterwards changes neither the fault nor the moments. -/
theorem bind_pure {a : Act (List Moment) α} {fault : Option LoweringError} {x : α}
    {trace : List Moment} (h : Runs k a (ending fault x) trace) (f : α → β) :
    Runs k (a >>= fun x => Pure.pure (f x)) (ending fault (f x)) trace := by
  simpa using bind (f := fun x => Pure.pure (f x)) h (pure (f x))

theorem between {a : Act (List Moment) α} {outcome : Except Failure α} {trace : List Moment}
    (before after : Nat → Moment) (h : Runs k a outcome trace) :
    Runs k (between before after a) outcome (around before after k trace) := by
  rintro s rfl
  obtain ⟨ended, depth, world⟩ := h (s.noted before) rfl
  rw [between_apply, outcomeOf_resume, sessionOf_resume]
  refine ⟨ended, depth, ?_⟩
  rw [Session.noted, depth, world]
  simp [Session.noted, around]

end Act.Runs

/-- The lowerer, noting the count when it is entered and left. -/
def Emitter.gauged (lower : HighIR → Act (List Moment) Target) (e : HighIR) :
    Act (List Moment) Target :=
  .between .entered .left (lower e)

def Delegate.gauged : Delegate (List Moment) δ → Delegate (List Moment) δ
  | .emitter lower => .emitter (Emitter.gauged lower)
  | .custom object => .custom object

/-- The context with all its lowerers gauged. -/
def Context.gauged (c : Context (List Moment) δ) : Context (List Moment) δ :=
  { c with
    lowerer? := c.lowerer?.map Emitter.gauged
    delegates := c.delegates.map fun d => (d.1, d.2.gauged) }

/-- What the rule does, noting the count before and after it and lowering by gauged lowerers. -/
def Rule.gauged (r : Rule (List Moment) δ) (n : Node) (c : Context (List Moment) δ) :
    Act (List Moment) Outcome :=
  .between .applying .applied (r.apply n c.gauged)

theorem Emitter.context_gauged (m : Emitter (List Moment) δ)
    (lower : HighIR → Act (List Moment) Target) :
    (m.context lower).gauged = m.context (gauged lower) := rfl

/-- Counting the applications of rules leaves the moments alone. -/
theorem Ledger.stage_runs (config : Config) (e : HighIR) {k : Nat}
    {conversion : Act (List Moment) Target} {fault : Option LoweringError} {t : Target}
    {trace : List Moment} (h : conversion.Runs k (ending fault t) trace) :
    ((counting config).stage e (some conversion)).Runs k (ending fault (.target t)) trace := by
  intro s hs
  obtain ⟨ended, depth, world⟩ := h ((counting config).enter (.begun e) s) hs
  simp only [stage]
  cases hc : conversion ((counting config).enter (.begun e) s) with
  | ok t' s' =>
    rw [hc] at ended depth world
    refine ⟨?_, depth, world⟩
    cases fault with
    | none =>
      cases ended
      rfl
    | some err => cases ended
  | error f s' =>
    rw [hc] at ended depth world
    refine ⟨?_, depth, world⟩
    cases fault with
    | none => cases ended
    | some err =>
      cases ended
      rfl

namespace Emitter

/-- The emitter's codegen stage hands each node to the rule made for it, gauged. -/
structure Gauges (m : Emitter (List Moment) δ) (config : Config) : Prop where
  maxDepth : m.maxDepth = config.maxDepth
  validate : ∀ e lower s,
    m.engine.validate Stage.codegen (.high e) (m.context lower) s = .ok () s
  apply : ∀ e lower,
    m.engine.apply Stage.codegen (.high e) (m.context lower) =
      (Ledger.counting config).stage e
        ((e.convert config (gauged lower)).map (Act.between .applying .applied))

namespace Gauges

variable {m : Emitter (List Moment) δ} {config : Config} {levels level : Nat} {e : HighIR}

/-- What lowering `e` within so many levels comes to and notes, from every count that leaves no more
of them. -/
def Lowers (m : Emitter (List Moment) δ) (config : Config) (levels : Nat) (e : HighIR) : Prop :=
  ∀ level, config.maxDepth.toNat ≤ levels + level →
    (gauged (m.lowerWithin levels) e).Runs level
      (ending (e.fault config level) (e.translate config)) (e.moments config level)

/-- Only lowerings within the limit have to be looked at. -/
theorem lowers_of_within (h : m.Gauges config)
    (step : ∀ n level, levels = n + 1 → level < config.maxDepth.toNat →
      config.maxDepth.toNat ≤ n + (level + 1) →
      (gauged (m.lowerWithin (n + 1)) e).Runs level
        (ending (e.fault config level) (e.translate config)) (e.moments config level)) :
    Lowers m config levels e := by
  intro level enough
  by_cases deep : config.maxDepth.toNat ≤ level
  · rw [HighIR.fault_deep config level e deep, HighIR.moments_deep e deep]
    refine .between _ _ (.of_still fun s hs => ?_)
    rw [m.lowerWithin_deep levels e s (by rwa [h.maxDepth, hs]), h.maxDepth]
    rfl
  · cases levels with
    | zero => omega
    | succ n => exact step n level rfl (Nat.lt_of_not_le deep) (by omega)

/-- A lowering is counted while the stage runs, and not before or after it. -/
theorem lowerWithin_succ (h : m.Gauges config) {outcome : Except Failure Node}
    {trace : List Moment} (within : level < config.maxDepth.toNat)
    (stage : (m.engine.apply Stage.codegen (.high e) (m.context (m.lowerWithin levels))).Runs
      (level + 1) outcome trace) :
    (gauged (m.lowerWithin (levels + 1)) e).Runs level
      (outcome.bind fun n => (targetOf Stage.codegen n).mapError .lowering)
      (around .entered .left level trace) := by
  refine .between _ _ ?_
  rintro s rfl
  obtain ⟨ended, -, world⟩ := stage { s with depth := s.depth + 1 } rfl
  rw [m.lowerWithin_checked (by rwa [h.maxDepth]) (h.validate e _ s)]
  cases hstage : m.engine.apply Stage.codegen (.high e) (m.context (m.lowerWithin levels))
      { s with depth := s.depth + 1 } with
  | ok n s' =>
    rw [hstage] at ended world
    subst ended
    dsimp only
    rw [Act.outcomeOf_ofExcept, Act.sessionOf_ofExcept]
    exact ⟨rfl, rfl, world⟩
  | error f s' =>
    rw [hstage] at ended world
    subst ended
    exact ⟨rfl, rfl, world⟩

/-- One lowering within the limit of a node that a rule claims, given what the rule comes to. -/
theorem lowerWithin_claimed (h : m.Gauges config) (within : level < config.maxDepth.toNat)
    {conversion : Act (List Moment) Target} {fault : Option LoweringError} {t : Target}
    {trace : List Moment}
    (claimed : e.convert config (gauged (m.lowerWithin levels)) = some conversion)
    (run : conversion.Runs (level + 1) (ending fault t) trace) :
    (gauged (m.lowerWithin (levels + 1)) e).Runs level (ending fault t)
      (HighIR.lowering config level (around .applying .applied (level + 1) trace)) := by
  have stage := Ledger.stage_runs config e (run.between .applying .applied)
  have applied : m.engine.apply Stage.codegen (.high e) (m.context (m.lowerWithin levels)) =
      (Ledger.counting config).stage e (some (conversion.between .applying .applied)) := by
    rw [h.apply, claimed]
    rfl
  rw [← applied] at stage
  have lowered := h.lowerWithin_succ within stage
  rw [HighIR.lowering_within within]
  cases fault <;> exact lowered

/-- One lowering within the limit of a node that no rule claims. -/
theorem lowerWithin_unclaimed (h : m.Gauges config) (within : level < config.maxDepth.toNat)
    (unclaimed : e.convert config (gauged (m.lowerWithin levels)) = none) (t : Target) :
    (gauged (m.lowerWithin (levels + 1)) e).Runs level (ending (e.fault config level) t)
      (HighIR.lowering config level []) := by
  have stage : (m.engine.apply Stage.codegen (.high e) (m.context (m.lowerWithin levels))).Runs
      (level + 1) (.ok (.high e)) [] := by
    rw [h.apply, unclaimed]
    exact fun s hs => ⟨rfl, hs, (List.append_nil _).symm⟩
  rw [HighIR.lowering_within within, HighIR.fault_unclaimed within unclaimed]
  exact h.lowerWithin_succ within stage

/-- Arguments are lowered from left to right up to the first fault. -/
theorem mapM_lowerWithin {args : List HighIR} (ih : ∀ a ∈ args, Lowers m config levels a)
    (enough : config.maxDepth.toNat ≤ levels + level) :
    (args.mapM (gauged (m.lowerWithin levels))).Runs level
      (ending (HighIR.faultAll config level args) (HighIR.translateAll config args))
      (HighIR.momentsAll config level args) := by
  induction args with
  | nil => exact .pure []
  | cons a rest ihrest =>
    obtain ⟨first, others⟩ := List.forall_mem_cons.1 ih
    rw [List.mapM_cons, HighIR.faultAll_cons, HighIR.momentsAll, HighIR.translateAll]
    exact (first level enough).bind ((ihrest others).bind_pure _)

/-- A gauged emitter comes to what the expression says, and notes the moments that it says. -/
theorem lowers (h : m.Gauges config) (levels : Nat) (e : HighIR) : Lowers m config levels e := by
  -- the levels go down by one where the count goes up by one
  induction e using HighIR.operandInduction generalizing levels with
  | literal value =>
    refine h.lowers_of_within fun n level _ within _ => ?_
    rw [HighIR.moments]
    exact h.lowerWithin_claimed within rfl (.of_settle (HighIR.settle_literal within value))
  | identifier name ty =>
    refine h.lowers_of_within fun n level _ within _ => ?_
    rw [HighIR.moments]
    exact h.lowerWithin_claimed within rfl (.of_settle (HighIR.settle_identifier within name ty))
  | regex pattern flags =>
    refine h.lowers_of_within fun n level _ within _ => ?_
    rw [HighIR.moments]
    exact h.lowerWithin_claimed within rfl (.of_settle (HighIR.settle_regex within pattern flags))
  | binary left op right ty ihl ihr =>
    refine h.lowers_of_within fun n level _ within enough => ?_
    rw [HighIR.moments, HighIR.fault_binary config _ _ _ _ _ within]
    exact h.lowerWithin_claimed within rfl ((ihl n _ enough).bind ((ihr n _ enough).bind_pure _))
  | call callee args ty ih =>
    refine h.lowers_of_within fun n level _ within enough => ?_
    rw [HighIR.moments, HighIR.fault_call config _ _ _ _ within]
    exact h.lowerWithin_claimed within rfl
      ((mapM_lowerWithin (fun a ha => ih a ha n) enough).bind_pure _)
  | matching scrutinee arms ty | importing module functions =>
    refine h.lowers_of_within fun n level _ within _ => ?_
    rw [HighIR.moments]
    exact h.lowerWithin_unclaimed within rfl _

theorem lower_runs (h : m.Gauges config) (e : HighIR) (level : Nat) :
    (gauged m.lower e).Runs level (ending (e.fault config level) (e.translate config))
      (e.moments config level) :=
  h.lowers _ e level (by rw [h.maxDepth]; omega)

theorem mapM_lower_runs (h : m.Gauges config) (args : List HighIR) (level : Nat) :
    (args.mapM (gauged m.lower)).Runs level
      (ending (HighIR.faultAll config level args) (HighIR.translateAll config args))
      (HighIR.momentsAll config level args) :=
  mapM_lowerWithin (fun a _ => h.lowers _ a) (by rw [h.maxDepth]; omega)

end Gauges

end Emitter

namespace Pipeline

variable (config : Config)

/-- The pipeline of a configuration, with its rules gauged. -/
def gauged : Pipeline (List Moment) δ := ⟨config, (defaultEngine config).reapplying Rule.gauged⟩

theorem entries_codegen_gauged :
    ((defaultEngine config : Engine (List Moment) δ).reapplying Rule.gauged).entries
        Stage.codegen =
      ((codegenRules config).map (Rule.reapplying Rule.gauged)).map Entry.ofRule := by
  rw [Engine.entries_reapplying, entries_codegen, List.map_map, List.map_map]
  rfl

/-- A gauged rule handles what the rule itself does, with gauged lowerers and notes around it. -/
theorem handles_gauged {m : Emitter (List Moment) δ} {lower : HighIR → Act (List Moment) Target}
    {e : HighIR} {conversion : Option (Act (List Moment) Target)}
    (h : Handles (codegenRules config) (m.context (Emitter.gauged lower)) e conversion) :
    Handles ((codegenRules config).map (Rule.reapplying Rule.gauged)) (m.context lower) e
      (conversion.map (Act.between .applying .applied)) := by
  have same (r : Rule (List Moment) δ) (hr : r ∈ codegenRules config) :
      (r.reapplying Rule.gauged).applies (.high e) (m.context lower) =
        r.applies (.high e) (m.context (Emitter.gauged lower)) :=
    codegenRules_applies config r hr _ _ _
  cases conversion with
  | none =>
    refine ⟨by simpa using h.1, ?_⟩
    intro _ mapped
    obtain ⟨r, hr, rfl⟩ := List.mem_map.1 mapped
    rw [same r hr, h.2 r hr]
  | some conversion =>
    obtain ⟨before, r, after, hrules, htests, hname, hbefore, hclaims, happly⟩ := h
    refine ⟨before.map (Rule.reapplying Rule.gauged), r.reapplying Rule.gauged,
      after.map (Rule.reapplying Rule.gauged), by simp [hrules], by simpa using htests, hname,
      ?_, ?_, ?_⟩
    · intro _ mapped
      obtain ⟨r', hr', rfl⟩ := List.mem_map.1 mapped
      rw [same r' (by simp [hrules, hr']), hbefore r' hr']
    · rw [same r (by simp [hrules]), hclaims]
    · change Act.between .applying .applied (r.apply _ (m.context lower).gauged) = _
      rw [m.context_gauged, happly, Act.between_bind_pure]

/-- The default engine with its rules gauged, for any configuration. -/
theorem gauges : (gauged config : Pipeline (List Moment) δ).emitter.Gauges config where
  maxDepth := rfl
  validate e lower s := by
    change ((defaultEngine config).reapplying Rule.gauged).validate _ _ _ s = _
    rw [Engine.validate_reapplying]
    exact (conducts config).validate e lower s
  apply e lower := by
    refine apply_of_handles config rfl (entries_codegen_gauged config) ?_
      (handles_gauged config (codegenRules_handle config _ rfl _ e))
    intro t _ mapped
    obtain ⟨r, hr, rfl⟩ := List.mem_map.1 mapped
    exact codegenRules_decline config _ t r hr

end Pipeline

end StagedLowering
