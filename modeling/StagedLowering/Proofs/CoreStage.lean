import StagedLowering.Proofs.ImportReport

/-!
The two uses of the core stage. A match is worked out by one call of the analyzer and comes to what
that call comes to; any other source node that is given for a match fails, and nobody is called.
An import fails only if someone whom it calls does, be it the registry, a callback or the handler of
a subscription.
-/
namespace StagedLowering

variable {ω δ τ α β : Type}

/-- A place in the world where notes are kept in the order in which they are taken. -/
structure Notebook (ω τ : Type) where
  notes : ω → List τ
  enter : τ → ω → ω
  notes_enter : ∀ note world, notes (enter note world) = notes world ++ [note]

namespace Notebook

variable (b : Notebook ω τ)

/-- The action, noted when it begins. -/
def noting (note : τ) (a : Act ω α) : Act ω α := do
  Act.onWorld (modify (b.enter note))
  a

/-- The action takes no notes itself. -/
def Spared (a : Act ω α) : Prop := ∀ s, b.notes (sessionOf (a s)).world = b.notes s.world

theorem noting_apply (note : τ) (a : Act ω α) (s : Session ω) :
    b.noting note a s = a { s with world := b.enter note s.world } := rfl

theorem Spared.noting {b : Notebook ω τ} {a : Act ω α} (h : b.Spared a) (note : τ) (s : Session ω) :
    b.notes (sessionOf (b.noting note a s)).world = b.notes s.world ++ [note] := by
  rw [noting_apply, h, b.notes_enter]

theorem Spared.bind {b : Notebook ω τ} {a : Act ω α} {f : α → Act ω β} (first : b.Spared a)
    (rest : ∀ x, b.Spared (f x)) : b.Spared (a >>= f) := by
  intro s
  have before := first s
  cases ha : a s with
  | ok x s' =>
    rw [ha] at before
    rw [Act.bind_ok ha, rest x s', ← before]
    rfl
  | error e s' =>
    rw [ha] at before
    rw [Act.bind_error ha, ← before]
    rfl

theorem Spared.mapM {κ : Type} {b : Notebook ω τ} {f : κ → Act ω α} (step : ∀ k, b.Spared (f k))
    (ks : List κ) : b.Spared (ks.mapM f) := by
  induction ks with
  | nil => exact fun _ => rfl
  | cons k ks ih =>
    rw [List.mapM_cons]
    exact .bind (step k) fun _ => .bind ih fun _ _ => rfl

end Notebook

/-- The arms of a match. -/
def Source.arms? : Source → Option (List (MatchArm Source))
  | .matching _ arms => some arms
  | _ => none

namespace Pipeline

variable {config : Config} {source subject : Source} {arms : List (MatchArm Source)}
  {scrutinee : TypedValue} {analyze : MatchAnalyzer ω} {transformArm : TransformArm ω}
  {s : Session ω}

theorem eq_unchecked_of_ofConfig {p : Pipeline ω δ} (valid : ofConfig config = .ok p) :
    p = unchecked config := by
  unfold ofConfig at valid
  cases checked : config.validate with
  | ok u =>
    rw [checked] at valid
    cases valid
    rfl
  | error e =>
    rw [checked] at valid
    cases valid

theorem matchDesugaring_mem :
    (Rule.matchDesugaring : Rule ω δ) ∈ rulesOf config Stage.coreIR := by
  simp [rulesOf, coreRules]

/-- What the core stage gets to see of a match. -/
def matchContext (scrutinee : TypedValue) (analyze : MatchAnalyzer ω)
    (transformArm : TransformArm ω) : Context ω δ :=
  { scrutinee? := some scrutinee
    matchAnalyzer? := some analyze
    transformArm? := some transformArm }

/-- The rule asks the analyzer and builds a node of its answer. -/
theorem matchDesugaring_apply :
    Rule.matchDesugaring.apply (.source (.matching subject arms))
        (matchContext scrutinee analyze transformArm : Context ω δ) =
      (do
        let a ← analyze scrutinee.ty arms transformArm
        pure (.replaced (.high (.matching scrutinee.node a.arms a.resultType)))) := rfl

/-- The session once a match is counted. -/
def matchCounted (config : Config) (v : Verdict) (s : Session ω) : Session ω :=
  (defaultEngine config : Engine ω δ).counted Stage.coreIR
    (Rule.matchDesugaring : Rule ω δ).name v s

theorem matchCounted_world (v : Verdict) :
    (matchCounted (δ := δ) config v s).world = s.world :=
  Engine.counted_world ..

theorem lowerMatch_ok {a : MatchAnalysis} {t : Session ω}
    (answer : analyze scrutinee.ty arms transformArm s = .ok a t) :
    (unchecked config : Pipeline ω δ).lowerMatch (.matching subject arms) scrutinee analyze
        transformArm s =
      .ok (.matching scrutinee.node a.arms a.resultType)
        (matchCounted (δ := δ) config .replaced t) := by
  refine intoHighIR_ok matchDesugaring_mem rfl rfl ?_
  exact (congrFun matchDesugaring_apply s).trans (Act.bind_ok answer)

theorem lowerMatch_error {f : Failure} {t : Session ω}
    (answer : analyze scrutinee.ty arms transformArm s = .error f t) :
    (unchecked config : Pipeline ω δ).lowerMatch (.matching subject arms) scrutinee analyze
        transformArm s =
      .error f (matchCounted (δ := δ) config .failed t) := by
  refine intoHighIR_error matchDesugaring_mem rfl rfl ?_
  exact (congrFun matchDesugaring_apply s).trans (Act.bind_error answer)

/-- An import that is given for a match lacks all that it needs. -/
theorem lowerMatch_importing (d : ImportDecl) :
    (unchecked config : Pipeline ω δ).lowerMatch (.importing d) scrutinee analyze transformArm s =
      .error (.lowering (.missingCollaborators
        ["stdlib_registry", "register_stdlib_function", "on_missing_item", "event_bus"])) s :=
  intoHighIR_refused importResolution_mem rfl rfl

theorem lowerMatch_unclaimed (notMatch : source.kind ≠ .sourceMatch)
    (notImport : source.kind ≠ .sourceImport) :
    (unchecked config : Pipeline ω δ).lowerMatch source scrutinee analyze transformArm s =
      .error (.lowering (.notLowered Stage.coreIR source.kind)) s := by
  obtain ⟨hmatch, himport, -, -⟩ := Rule.patterned_claims (ω := ω) (δ := δ) config
  refine intoHighIR_unclaimed fun r hr => ?_
  simp only [rulesOf, if_true, coreRules, List.mem_cons, List.not_mem_nil, or_false] at hr
  rcases hr with rfl | rfl
  · rw [hmatch]
    exact decide_eq_false (mt List.mem_singleton.1 notMatch)
  · rw [himport]
    exact decide_eq_false (mt List.mem_singleton.1 notImport)

/-- The world after a match is lowered is the one that the analyzer leaves. -/
theorem lowerMatch_world :
    (sessionOf ((unchecked config : Pipeline ω δ).lowerMatch (.matching subject arms) scrutinee
        analyze transformArm s)).world =
      (sessionOf (analyze scrutinee.ty arms transformArm s)).world := by
  cases answer : analyze scrutinee.ty arms transformArm s with
  | ok a t =>
    rw [lowerMatch_ok answer]
    exact matchCounted_world .replaced
  | error f t =>
    rw [lowerMatch_error answer]
    exact matchCounted_world .failed

/-- An analyzer that is noted is called by a match, once, and by nothing else. -/
theorem lowerMatch_notes (b : Notebook ω τ)
    (tell : Ty → List (MatchArm Source) → TransformArm ω → τ)
    (spared : ∀ ty arms, b.Spared (analyze ty arms transformArm)) :
    b.notes (sessionOf ((unchecked config : Pipeline ω δ).lowerMatch source scrutinee
        (fun ty arms transform => b.noting (tell ty arms transform) (analyze ty arms transform))
        transformArm s)).world =
      b.notes s.world ++
        source.arms?.toList.map fun arms => tell scrutinee.ty arms transformArm := by
  cases source with
  | matching subject arms =>
    rw [lowerMatch_world]
    exact (spared scrutinee.ty arms).noting _ s
  | importing d =>
    rw [lowerMatch_importing]
    exact (List.append_nil _).symm
  | _ =>
    rw [lowerMatch_unclaimed (by rintro ⟨⟩) (by rintro ⟨⟩)]
    exact (List.append_nil _).symm

end Pipeline

/-- What a stage reports on its own account: that a collaborator is missing, that a rule was handed
a node it does not lower, or that a node was left unlowered. -/
def Failure.IsOfStage : Failure → Prop
  | .lowering (.missingCollaborator _) => True
  | .lowering (.missingCollaborators _) => True
  | .lowering (.unexpectedNode _ _ _) => True
  | .lowering (.notLowered _ _) => True
  | _ => False

/-- If the last of some calls failed, those before it were made and then that one. -/
theorem Performed.until_failure {perform : ImportCall → Act ω Unit} {calls : List Call}
    {s t : Session ω} (made : Performed perform calls s t) {k : ImportCall} {f : Failure}
    (last : calls.getLast? = some (k, .error f)) :
    ∃ before s₁, calls = before ++ [(k, .error f)] ∧ Performed perform before s s₁ ∧
      perform k s₁ = .error f t := by
  induction made with
  | none s => cases last
  | @succeeded k' calls s s₁ s₂ done rest ih =>
    have later : calls.getLast? = some (k, .error f) := by
      cases calls with
      | nil => cases last
      | cons => simpa using last
    obtain ⟨before, s₃, rfl, made, failed⟩ := ih later
    exact ⟨(k', .ok ()) :: before, s₃, rfl, .succeeded done made, failed⟩
  | @failed k' f' s s₁ done =>
    cases last
    exact ⟨[], s, rfl, .none s, done⟩

namespace Hub

/-- A delivery fails where one of those who are served does. -/
theorem deliver_error {reaction : Subscription ω → Delivery ω} {audience : List (Subscription ω)}
    {h h' : Hub ω} {f : Failure} (failed : deliver reaction audience h = some (.error f h')) :
    ∃ subscription ∈ audience, ∃ found, reaction subscription found = some (.error f h') := by
  induction audience generalizing h with
  | nil => cases failed
  | cons subscription rest ih =>
    rw [deliver] at failed
    split at failed
    · cases failed
    next h₁ _ =>
      obtain ⟨subscription', member, served⟩ := ih failed
      exact ⟨subscription', List.mem_cons_of_mem _ member, served⟩
    next served =>
      cases failed
      exact ⟨subscription, List.mem_cons_self, h, served⟩

/-- A publication fails with the failure of a handler, if it ends at all. -/
theorem announce_error {bound : Nat} {event : Event} {s t : Session (Hub ω)} {f : Failure}
    (failed : announce bound event s = .error f t) :
    publish bound event s.world = none ∨
      ∃ subscription ∈ s.world.bus.accepting event.kind, ∃ nested found,
        react (publish nested) (subscription.handler event) found = some (.error f t.world) := by
  unfold announce at failed
  split at failed
  next unfinished => exact .inl unfinished
  next => cases failed
  next f' h ended =>
    cases failed
    cases bound with
    | zero => cases ended
    | succ bound =>
      obtain ⟨subscription, member, found, served⟩ := deliver_error ended
      exact .inr ⟨subscription, member, bound, found, served⟩

end Hub

namespace Pipeline

variable {config : Config} {d : ImportDecl} {resolve : String → ImportSelection → Act ω Resolution}
  {publish : Event → Act ω Unit} {register : FunctionDecl → Act ω Unit}
  {onMissing : String → Option String → Act ω Unit} {s t : Session ω} {f : Failure}

/-- An import fails with the failure of the registry, or else with that of the first planned call
that fails. -/
theorem lowerImport_fails
    (failed : (unchecked config : Pipeline ω δ).lowerImport d resolve publish register onMissing s =
      .error f t) :
    (∃ s₁, resolve d.path d.selection s = .error f s₁ ∧ t.world = s₁.world) ∨
      ∃ found s₁ calls s₂ k s₃, resolve d.path d.selection s = .ok found s₁ ∧
        Performed (ImportCall.perform register onMissing publish) calls s₁ s₂ ∧
        calls.map Prod.fst ++ [k] <+: d.plan found ∧
        ImportCall.perform register onMissing publish k s₂ = .error f s₃ ∧ t.world = s₃.world := by
  cases answer : resolve d.path d.selection s with
  | error f' s₁ =>
    have ran := (Rule.runImport_unanswered
      (c := (importContext resolve publish register onMissing : Context ω δ)) d s {} rfl rfl rfl rfl
      answer).2
    rw [lowerImport_error ran] at failed
    cases failed
    exact .inl ⟨s₁, rfl, importCounted_world ..⟩
  | ok found s₁ =>
    obtain ⟨calls, s₂, made, beginning, -, ⟨-, -, ran⟩ | ⟨k, f', last, ran⟩⟩ := Rule.runImport_found
      (c := (importContext resolve publish register onMissing : Context ω δ)) d s {} rfl rfl rfl rfl
      answer
    · rw [lowerImport_ok ran] at failed
      cases failed
    · rw [lowerImport_error ran] at failed
      cases failed
      obtain ⟨before, s₃, rfl, made, refused⟩ := made.until_failure last
      refine .inr ⟨found, s₁, before, s₃, k, s₂, rfl, made, ?_, refused, importCounted_world ..⟩
      simpa using beginning

/-- The two uses of the core stage. A match comes to what the analyzer comes to, which is asked
once, for the type of the scrutinee and the arms of the match; an import that is given for a match
fails over what it lacks and any other node is left unlowered, and then nobody is called. An import
that fails does so with the failure of the registry or of a planned call, and a publication with
that of a handler, so the stage never has anything to report on its own account. -/
theorem core_stage_uses (config : Config) (p : Pipeline ω δ) (valid : ofConfig config = .ok p)
    (s : Session ω) :
    (∀ (scrutinee : TypedValue) (analyze : MatchAnalyzer ω) (transformArm : TransformArm ω),
      (∀ subject arms,
        (∀ a t, analyze scrutinee.ty arms transformArm s = .ok a t →
          p.lowerMatch (.matching subject arms) scrutinee analyze transformArm s =
            .ok (.matching scrutinee.node a.arms a.resultType)
              (p.engine.counted "core_ir" "MatchDesugaring" .replaced t)) ∧
        ∀ f t, analyze scrutinee.ty arms transformArm s = .error f t →
          p.lowerMatch (.matching subject arms) scrutinee analyze transformArm s =
            .error f (p.engine.counted "core_ir" "MatchDesugaring" .failed t)) ∧
      (∀ d, p.lowerMatch (.importing d) scrutinee analyze transformArm s =
        .error (.lowering (.missingCollaborators
          ["stdlib_registry", "register_stdlib_function", "on_missing_item", "event_bus"])) s) ∧
      (∀ source : Source, source.kind ≠ .sourceMatch → source.kind ≠ .sourceImport →
        p.lowerMatch source scrutinee analyze transformArm s =
          .error (.lowering (.notLowered "core_ir" source.kind)) s) ∧
      ∀ (τ : Type) (b : Notebook ω τ) (tell : Ty → List (MatchArm Source) → TransformArm ω → τ),
        (∀ ty arms, b.Spared (analyze ty arms transformArm)) → ∀ source : Source,
          b.notes (sessionOf (p.lowerMatch source scrutinee
              (fun ty arms transform =>
                b.noting (tell ty arms transform) (analyze ty arms transform))
              transformArm s)).world =
            b.notes s.world ++
              source.arms?.toList.map fun arms => tell scrutinee.ty arms transformArm) ∧
    (∀ (d : ImportDecl) (resolve : String → ImportSelection → Act ω Resolution)
        (publish : Event → Act ω Unit) (register : FunctionDecl → Act ω Unit)
        (onMissing : String → Option String → Act ω Unit),
      let perform := ImportCall.perform register onMissing publish
      (∀ f t, p.lowerImport d resolve publish register onMissing s = .error f t →
        (∃ s₁, resolve d.path d.selection s = .error f s₁ ∧ t.world = s₁.world) ∨
          ∃ found s₁ calls s₂ k s₃, resolve d.path d.selection s = .ok found s₁ ∧
            Performed perform calls s₁ s₂ ∧ calls.map Prod.fst ++ [k] <+: d.plan found ∧
            perform k s₂ = .error f s₃ ∧ t.world = s₃.world) ∧
      ((∀ s' f t, resolve d.path d.selection s' = .error f t → ¬ f.IsOfStage) →
        (∀ k s' f t, perform k s' = .error f t → ¬ f.IsOfStage) →
          ∀ f t, p.lowerImport d resolve publish register onMissing s = .error f t →
            ¬ f.IsOfStage)) ∧
    ∀ bound event (h t : Session (Hub ω)) f, Hub.announce bound event h = .error f t →
      Hub.publish bound event h.world = none ∨
        ∃ subscription ∈ h.world.bus.accepting event.kind, ∃ nested found,
          Hub.react (Hub.publish nested) (subscription.handler event) found =
            some (.error f t.world) := by
  obtain rfl := eq_unchecked_of_ofConfig valid
  refine ⟨fun scrutinee analyze transformArm => ⟨fun subject arms => ⟨?_, ?_⟩,
    lowerMatch_importing, fun source => lowerMatch_unclaimed,
    fun τ b tell spared source => lowerMatch_notes b tell spared⟩,
    fun d resolve publish register onMissing => ⟨fun f t => lowerImport_fails, ?_⟩,
    fun bound event h t f => Hub.announce_error⟩
  · exact fun a t => lowerMatch_ok
  · exact fun f t => lowerMatch_error
  · intro registry calls f t failed
    rcases lowerImport_fails failed with ⟨s₁, refused, -⟩ |
      ⟨found, s₁, made, s₂, k, s₃, -, -, -, refused, -⟩
    · exact registry s f s₁ refused
    · exact calls k s₂ f s₃ refused

/-- In a pipeline with default settings: a match whose analyzer notes the type it is asked about and
has the arms lowered, which leave their patterns in the world; and an import from a module that the
registry does not know. -/
theorem core_stage_uses_noting :
    let p : Pipeline (List Ty × List Pattern) Unit := unchecked {}
    let b : Notebook (List Ty × List Pattern) Ty :=
      ⟨Prod.fst, fun ty world => (world.1 ++ [ty], world.2), fun _ _ => rfl⟩
    let transformArm : TransformArm (List Ty × List Pattern) := fun arm _ => do
      Act.onWorld (modify fun world => (world.1, world.2 ++ [arm.pattern]))
      pure (.literal .nil)
    let analyze : MatchAnalyzer (List Ty × List Pattern) := fun ty arms transform => do
      let arms ← arms.mapM fun arm => do
        let body ← transform arm []
        pure (⟨arm.pattern, [], none, body⟩ : HighArm HighIR)
      pure ⟨arms, ty⟩
    let arms : List (MatchArm Source) :=
      [⟨.binding "x", none, .identifier "x"⟩, ⟨.wildcard, none, .boolean false⟩]
    ofConfig {} = .ok p ∧ (∀ ty arms, b.Spared (analyze ty arms transformArm)) ∧
    (∃ t, p.lowerMatch (.matching (.boolean true) arms) ⟨.literal .nil, .bool⟩ analyze transformArm
        ⟨.empty, 0, ([], [])⟩ =
      .ok (.matching (.literal .nil) [⟨.binding "x", [], none, .literal .nil⟩,
        ⟨.wildcard, [], none, .literal .nil⟩] .bool) t ∧
      t.world = ([], [.binding "x", .wildcard])) ∧
    (sessionOf (p.lowerMatch (.matching (.boolean true) arms) ⟨.literal .nil, .bool⟩
      (fun ty arms transform => b.noting ty (analyze ty arms transform)) transformArm
      ⟨.empty, 0, ([], [])⟩)).world.1 = [.bool] ∧
    ∀ f t, p.lowerImport (.ofAll "M") (fun path _ => .fail (.unknownModule path)) (fun _ => pure ())
        (fun _ => pure ()) (fun _ _ => pure ()) ⟨.empty, 0, ([], [])⟩ = .error f t →
      ¬ f.IsOfStage := by
  intro p b transformArm analyze arms
  have valid : ofConfig {} = .ok p := Command.ofConfig_default
  have spared : ∀ ty arms, b.Spared (analyze ty arms transformArm) := fun ty arms =>
    .bind (.mapM (fun _ => .bind (fun _ => rfl) fun _ _ => rfl) arms) fun _ _ => rfl
  obtain ⟨ofMatch, ofImport, -⟩ := core_stage_uses {} p valid ⟨.empty, 0, ([], [])⟩
  obtain ⟨answered, -, -, noted⟩ := ofMatch ⟨.literal .nil, .bool⟩ analyze transformArm
  refine ⟨valid, spared, ⟨_, (answered (.boolean true) arms).1 _ _ rfl, Engine.counted_world ..⟩,
    noted Ty b (fun ty _ _ => ty) spared (.matching (.boolean true) arms),
    (ofImport (.ofAll "M") _ _ _ _).2 ?_ ?_⟩
  · rintro s' f t ⟨⟩
    exact id
  · intro k s' f t failed
    cases k <;> cases failed

end Pipeline

end StagedLowering
