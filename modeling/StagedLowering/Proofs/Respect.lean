import StagedLowering.Proofs.Accord
import StagedLowering.Proofs.Validation

/-!
The default rules do as their collaborators do. Whatever relation between sessions the collaborators
of a context respect, going from related sessions to the same end in related sessions, the rules
that turn to them respect it as well.
-/
namespace StagedLowering

variable {ω δ α : Type}

/-- Every collaborator of the context takes related sessions to related sessions, and to the same
end. -/
structure Context.Respects (R : Session ω → Session ω → Prop) (c : Context ω δ) : Prop where
  lowerer : ∀ lower, c.lowerer? = some lower → ∀ e, (lower e).Accords R (lower e)
  matchAnalyzer : ∀ analyze transformArm,
    c.matchAnalyzer? = some analyze → c.transformArm? = some transformArm →
      ∀ ty arms, (analyze ty arms transformArm).Accords R (analyze ty arms transformArm)
  registry : ∀ resolve, c.registry? = some resolve → ∀ path selection,
    (resolve path selection).Accords R (resolve path selection)
  registerFunction : ∀ register, c.registerFunction? = some register → ∀ d,
    (register d).Accords R (register d)
  onMissingItem : ∀ onMissing, c.onMissingItem? = some onMissing → ∀ name origin,
    (onMissing name origin).Accords R (onMissing name origin)
  eventBus : ∀ publish, c.eventBus? = some publish → ∀ event,
    (publish event).Accords R (publish event)
  delegate : ∀ key lower, c.delegate? key = some (.emitter lower) → ∀ e,
    (lower e).Accords R (lower e)

/-- The rule takes related sessions to related sessions wherever its collaborators do. -/
def Rule.Respects (R : Session ω → Session ω → Prop) (r : Rule ω δ) : Prop :=
  ∀ n c, c.Respects R → (r.apply n c).Accords R (r.apply n c)

theorem Context.filled_eq_ok {key : Key} {content : Option α} {x : α}
    (h : filled key content = .ok x) : content = some x := by
  cases content with
  | none => cases h
  | some y =>
    cases h
    rfl

namespace Rule

variable (R : Session ω → Session ω → Prop)

theorem matchDesugaring_respects : (matchDesugaring : Rule ω δ).Respects R := by
  intro n c respects
  simp only [matchDesugaring]
  split
  · refine .ofExcept_bind fun scrutinee _ => .ofExcept_bind fun analyze hanalyze =>
      .ofExcept_bind fun transformArm htransform => ?_
    exact .bind (respects.matchAnalyzer analyze transformArm (Context.filled_eq_ok hanalyze)
      (Context.filled_eq_ok htransform) _ _) fun _ => .pure _
  · exact .fail _

theorem importResolution_respects : (importResolution : Rule ω δ).Respects R := by
  intro n c respects
  simp only [importResolution]
  split
  next d =>
    refine .bind (.ofExcept _) fun _ => .ofExcept_bind fun resolve hresolve =>
      .ofExcept_bind fun register hregister => .ofExcept_bind fun onMissing hmissing =>
      .ofExcept_bind fun publish hpublish => ?_
    have resolves := respects.registry resolve (Context.filled_eq_ok hresolve)
    have registers := respects.registerFunction register (Context.filled_eq_ok hregister)
    have reports := respects.onMissingItem onMissing (Context.filled_eq_ok hmissing)
    have publishes := respects.eventBus publish (Context.filled_eq_ok hpublish)
    refine .bind (resolves d.path d.selection) fun found => .bind (.forM (fun k => ?_) _) fun _ =>
      .bind (.forM (fun k => ?_) _) fun _ => .pure _
    · exact .bind (registers k) fun _ => publishes _
    · exact .bind (reports k d.origin) fun _ => publishes _
  next => exact .fail _

theorem binaryLowering_respects : (binaryLowering : Rule ω δ).Respects R := by
  intro n c respects
  simp only [binaryLowering]
  split
  · refine .ofExcept_bind fun lower hlower => ?_
    have lowers := respects.lowerer lower (Context.filled_eq_ok hlower)
    exact .bind (lowers _) fun _ => .bind (lowers _) fun _ => .pure _
  · exact .fail _

theorem regexLowering_respects (config : Config) :
    (regexLowering config : Rule ω δ).Respects R := by
  intro n c _
  simp only [regexLowering]
  split
  · exact .pure _
  · exact .fail _

end Rule

namespace Emitter

section

variable {ω' : Type} (R : Session ω → Session ω' → Prop)

theorem leaf_accords (n : Node) : (leaf n).Accords R (leaf n) := by
  unfold leaf
  split
  · exact .bind (.ofExcept _) fun _ => .pure _
  · exact .pure _
  · exact .fail _

theorem call_accords {lower : HighIR → Act ω Target} {lower' : HighIR → Act ω' Target}
    (h : ∀ e, (lower e).Accords R (lower' e)) (n : Node) :
    (call lower n).Accords R (call lower' n) := by
  unfold call
  split
  · exact .bind (.mapM _ fun e _ => h e) fun _ => .pure _
  · exact .fail _

end

variable (R : Session ω → Session ω → Prop)

theorem leafLowering_respects (key : String) : (leafLowering key : Rule ω δ).Respects R := by
  intro n c _
  exact .ofExcept_bind fun _ _ => .bind (leaf_accords R n) fun _ => .pure _

theorem callLowering_respects (key : String) : (callLowering key : Rule ω δ).Respects R := by
  intro n c respects
  refine .ofExcept_bind fun lower found => .bind (call_accords R ?_ n) fun _ => .pure _
  exact respects.delegate key lower (delegate_eq_emitter found)

/-- The collaborators of an emitter are all the emitter itself. -/
theorem context_respects (m : Emitter ω δ) {lower : HighIR → Act ω Target}
    (h : ∀ e, (lower e).Accords R (lower e)) : (m.context lower).Respects R where
  lowerer := by
    rintro _ ⟨⟩
    exact h
  matchAnalyzer := by rintro _ _ ⟨⟩
  registry := by rintro _ ⟨⟩
  registerFunction := by rintro _ ⟨⟩
  onMissingItem := by rintro _ ⟨⟩
  eventBus := by rintro _ ⟨⟩
  delegate := by
    intro key lower' found
    simp only [context, Context.withDelegate, Context.delegate?] at found
    obtain ⟨-, rfl⟩ : m.delegateKey = key ∧ lower = lower' := by simpa using found
    exact h

variable {R}

/-- Emitters lower in accord if their codegen stages are in accord where these come back to the
emitter, and the depth is the same in related sessions. -/
theorem lowerWithin_accords {m m' : Emitter ω δ} (limit : m.maxDepth = m'.maxDepth)
    (depth : ∀ s t, R s t → s.depth = t.depth)
    (setDepth : ∀ s t, R s t → ∀ d, R { s with depth := d } { t with depth := d })
    (stage : ∀ levels, (∀ e, (m.lowerWithin levels e).Accords R (m'.lowerWithin levels e)) → ∀ n,
      (m.engine.validate Stage.codegen n (m.context (m.lowerWithin levels))).Accords R
          (m'.engine.validate Stage.codegen n (m'.context (m'.lowerWithin levels))) ∧
        (m.engine.apply Stage.codegen n (m.context (m.lowerWithin levels))).Accords R
          (m'.engine.apply Stage.codegen n (m'.context (m'.lowerWithin levels))))
    (levels : Nat) (e : HighIR) : (m.lowerWithin levels e).Accords R (m'.lowerWithin levels e) := by
  induction levels generalizing e with
  | zero =>
    rw [lowerWithin, lowerWithin, limit]
    exact .fail _
  | succ levels ih =>
    obtain ⟨validated, applied⟩ := stage levels ih (.high e)
    have asked : (Act.depth : Act ω Nat).Accords R Act.depth := by
      intro s t h
      rw [Act.depth_apply, Act.depth_apply, depth s t h]
      exact .ok _ h
    have moved (d : Nat) : (Act.setDepth d : Act ω Unit).Accords R (Act.setDepth d) :=
      fun s t h => .ok () (setDepth s t h d)
    rw [lowerWithin, lowerWithin, limit]
    refine .bind asked fun d => ?_
    split
    · exact .fail _
    · exact .bind validated fun _ => .bind (moved _) fun _ => .bind (.attempt applied) fun _ =>
        .bind (moved _) fun _ => .bind (.resume _) fun _ => .ofExcept _

end Emitter

namespace Pipeline

variable (config : Config)

theorem rulesOf_respect (R : Session ω → Session ω → Prop) (stage : String) :
    ∀ r ∈ (rulesOf config stage : List (Rule ω δ)), r.Respects R := by
  unfold rulesOf
  split
  · simp only [coreRules, List.forall_mem_cons]
    exact ⟨Rule.matchDesugaring_respects R, Rule.importResolution_respects R, by simp⟩
  · split
    · simp only [codegenRules, List.forall_mem_cons]
      exact ⟨Emitter.leafLowering_respects R _, Emitter.callLowering_respects R _,
        Rule.binaryLowering_respects R, Rule.regexLowering_respects R config, by simp⟩
    · simp

end Pipeline

end StagedLowering
