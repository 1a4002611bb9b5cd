import StagedLowering.Proofs.Absence
import StagedLowering.Proofs.DefaultStages
import StagedLowering.Proofs.ImportCalls

/-!
Checking for collaborators before a stage runs against looking for them while it runs. In the
default stages the two agree: where the check fails, the stage fails over keys that begin the list
of the check, before any collaborator is called; where the check succeeds, the stage never misses a
collaborator, unless one of them says so itself.
-/
namespace StagedLowering

variable {ω δ : Type}

/-- The action never ends by naming absent collaborators. -/
def Act.Candid {α : Type} (a : Act ω α) : Prop :=
  ∀ s f s', a s = .error f s' → f.missingKeys? = none

namespace Act.Candid

variable {α β : Type}

theorem pure (a : α) : Candid (pure a : Act ω α) := by
  rintro s f s' ⟨⟩

theorem fail {e : LoweringError} (h : (Failure.lowering e).missingKeys? = none) :
    Candid (Act.fail e : Act ω α) := by
  rintro s f s' ⟨⟩
  exact h

theorem bind {a : Act ω α} {f : α → Act ω β} (ha : a.Candid) (hf : ∀ x, (f x).Candid) :
    (a >>= f).Candid := by
  intro s e s' failed
  cases hx : a s with
  | ok x s₁ =>
    rw [bind_ok hx] at failed
    exact hf x s₁ e s' failed
  | error e' s₁ =>
    rw [bind_error hx] at failed
    cases failed
    exact ha s e s' hx

theorem ofExcept {x : Except LoweringError α} {f : α → Act ω β}
    (error : ∀ e, x = .error e → (Failure.lowering e).missingKeys? = none)
    (ok : ∀ a, x = .ok a → (f a).Candid) : (Act.ofExcept x >>= f).Candid := by
  cases x with
  | error e =>
    rintro s f' s' ⟨⟩
    exact error e rfl
  | ok a => exact ok a rfl

theorem forM {κ : Type} {f : κ → Act ω Unit} (h : ∀ k, (f k).Candid) (ks : List κ) :
    (ks.forM f).Candid := by
  induction ks with
  | nil => exact .pure ()
  | cons k ks ih => exact .bind (h k) fun _ => ih

theorem mapM {κ : Type} {f : κ → Act ω α} (h : ∀ k, (f k).Candid) (ks : List κ) :
    (ks.mapM f).Candid := by
  induction ks with
  | nil => exact .pure []
  | cons k ks ih =>
    rw [List.mapM_cons]
    exact .bind (h k) fun _ => .bind ih fun _ => .pure _

end Act.Candid

namespace Context

/-- The collaborators of the context never say themselves that one is missing. -/
structure Candid (c : Context ω δ) : Prop where
  lowerer : ∀ lower, c.lowerer? = some lower → ∀ e, (lower e).Candid
  matchAnalyzer : ∀ analyze transformArm,
    c.matchAnalyzer? = some analyze → c.transformArm? = some transformArm →
      ∀ ty arms, (analyze ty arms transformArm).Candid
  registry : ∀ resolve, c.registry? = some resolve → ∀ path selection,
    (resolve path selection).Candid
  registerFunction : ∀ register, c.registerFunction? = some register → ∀ d, (register d).Candid
  onMissingItem : ∀ onMissing, c.onMissingItem? = some onMissing → ∀ name origin,
    (onMissing name origin).Candid
  eventBus : ∀ publish, c.eventBus? = some publish → ∀ event, (publish event).Candid
  delegate : ∀ key lower, c.delegate? key = some (.emitter lower) → ∀ e, (lower e).Candid

/-- The action, with a note of its beginning in the world. -/
def noted {α : Type} (note : ω → ω) (a : Act ω α) : Act ω α := do
  Act.onWorld (modify note)
  a

/-- The context with a note of every call of a collaborator. -/
def noting (note : Key → ω → ω) (c : Context ω δ) : Context ω δ where
  lowerer? := c.lowerer?.map fun lower e => noted (note .lowerer) (lower e)
  scrutinee? := c.scrutinee?
  matchAnalyzer? := c.matchAnalyzer?.map fun analyze ty arms transformArm =>
    noted (note .matchAnalyzer) (analyze ty arms transformArm)
  transformArm? := c.transformArm?.map fun transformArm arm bindings =>
    noted (note .transformArm) (transformArm arm bindings)
  registry? := c.registry?.map fun resolve path selection =>
    noted (note .registry) (resolve path selection)
  registerFunction? := c.registerFunction?.map fun register d =>
    noted (note .registerFunction) (register d)
  onMissingItem? := c.onMissingItem?.map fun onMissing name origin =>
    noted (note .onMissingItem) (onMissing name origin)
  eventBus? := c.eventBus?.map fun publish event => noted (note .eventBus) (publish event)
  delegates := c.delegates.map fun (key, d) =>
    (key, match d with
      | .emitter lower => .emitter fun e => noted (note (.delegate key)) (lower e)
      | .custom object => .custom object)

/-- Taking notes changes nothing about who is there. -/
theorem has_noting (note : Key → ω → ω) (c : Context ω δ) (k : Key) :
    (c.noting note).has k = c.has k := by
  cases k <;> simp [noting, has, Function.comp_def]

theorem has_delegate (c : Context ω δ) (key : String) :
    c.has (.delegate key) = (c.delegate? key).isSome := by
  simp [has, delegate?, List.isSome_find?]

/-- The action looks these keys up first. If some are absent it fails, with nothing done, over as
many of them as it reports; if all are there, only a collaborator can say that one is missing. -/
structure Seeks {α : Type} (c : Context ω δ) (report : List String → List String)
    (keys : List Key) (a : Act ω α) : Prop where
  absent : c.absent keys ≠ [] →
    ∀ s, a s = .error (.lowering (.missing (report (c.absent keys)))) s
  present : c.absent keys = [] → c.Candid → a.Candid

namespace Seeks

variable {α β : Type} {c : Context ω δ}

theorem nothing {report : List String → List String} {a : Act ω α} (h : c.Candid → a.Candid) :
    c.Seeks report [] a :=
  ⟨fun absent => absurd rfl absent, fun _ => h⟩

/-- Looking keys up one after the other reports the first absent one. -/
theorem slot {k : Key} {content : Option α} (hk : c.has k = content.isSome) {keys : List Key}
    {f : α → Act ω β} (rest : ∀ x, content = some x → c.Seeks (List.take 1) keys (f x)) :
    c.Seeks (List.take 1) (k :: keys) (Act.ofExcept (filled k content) >>= f) := by
  cases hcontent : content with
  | none =>
    rw [hcontent] at hk
    have first : (c.absent (k :: keys)).take 1 = [k.text] :=
      (List.prefix_iff_eq_take.1 (c.text_prefix_absent keys hk)).symm
    refine ⟨fun _ s => ?_, fun none => ?_⟩
    · rw [first]
      rfl
    · rw [none] at first
      cases first
  | some x =>
    rw [hcontent] at hk
    obtain ⟨absent, present⟩ := rest x hcontent
    rw [← c.absent_cons_of_has keys hk] at absent present
    exact ⟨absent, present⟩

end Seeks

end Context

namespace Rule

/-- The rule looks up what it requires, first thing after it has claimed a node, and reports a
beginning of what it lacks. -/
structure Forthright (r : Rule ω δ) (report : List String → List String) : Prop where
  beginning : ∀ keys, keys ≠ [] → report keys ≠ [] ∧ report keys <+: keys
  seeks : ∀ n c, r.applies n c = true → c.Seeks report r.requires (r.apply n c)

theorem take_one_beginning (keys : List String) (h : keys ≠ []) :
    keys.take 1 ≠ [] ∧ keys.take 1 <+: keys := by
  cases keys with
  | nil => exact absurd rfl h
  | cons key keys => exact ⟨by simp, List.take_prefix 1 _⟩

theorem matchDesugaring_forthright : (matchDesugaring : Rule ω δ).Forthright (List.take 1) := by
  refine ⟨take_one_beginning, fun n c claimed => ?_⟩
  simp only [matchDesugaring] at claimed ⊢
  split at claimed
  · refine .slot rfl fun scrutinee _ => .slot rfl fun analyze hanalyze =>
      .slot rfl fun transformArm htransform => .nothing fun candid => ?_
    exact .bind (candid.matchAnalyzer analyze transformArm hanalyze htransform _ _)
      fun _ => .pure _
  · cases claimed

theorem binaryLowering_forthright : (binaryLowering : Rule ω δ).Forthright (List.take 1) := by
  refine ⟨take_one_beginning, fun n c claimed => ?_⟩
  simp only [binaryLowering] at claimed ⊢
  split at claimed
  · refine .slot rfl fun lower hlower => .nothing fun candid => ?_
    have lowers := candid.lowerer lower hlower
    exact .bind (lowers _) fun _ => .bind (lowers _) fun _ => .pure _
  · cases claimed

theorem regexLowering_forthright (config : Config) :
    (regexLowering config : Rule ω δ).Forthright (List.take 1) := by
  refine ⟨take_one_beginning, fun n c claimed => ?_⟩
  simp only [regexLowering] at claimed ⊢
  split at claimed
  · exact .nothing fun _ => .pure _
  · cases claimed

/-- An import asks for all it needs at once. -/
theorem importResolution_forthright : (importResolution : Rule ω δ).Forthright id := by
  refine ⟨fun keys h => ⟨h, List.prefix_refl keys⟩, fun n c claimed => ?_⟩
  simp only [importResolution] at claimed
  split at claimed
  next d =>
    refine ⟨fun absent s => runImport_absent c d s absent, fun none candid => ?_⟩
    obtain ⟨resolve, register, onMissing, publish, hresolve, hregister, hmissing, hpublish⟩ :=
      exists_of_absent_eq_nil c none
    have performs (k : ImportCall) : (ImportCall.perform register onMissing publish k).Candid := by
      cases k with
      | register function => exact candid.registerFunction register hregister function
      | reportMissing name origin => exact candid.onMissingItem onMissing hmissing name origin
      | publish event => exact candid.eventBus publish hpublish event
    change (runImport c d).Candid
    rw [runImport_present c d hresolve hregister hmissing hpublish]
    exact .bind (candid.registry resolve hresolve _ _) fun found =>
      .bind (.forM performs _) fun _ => .pure _
  next => cases claimed

end Rule

/-- A delegation looks its delegate up first. -/
theorem Delegation.rule_forthright {D : Type} (d : Delegation ω δ D) (name : String)
    (method : ∀ (c : Context ω δ) x n, c.Candid → c.delegate d.type d.key = .ok x →
      (d.method x n).Candid) :
    (d.rule name).Forthright (List.take 1) := by
  refine ⟨Rule.take_one_beginning, fun n c _ => ?_⟩
  change c.Seeks (List.take 1) [.delegate d.key] (do
    let delegate ← Act.ofExcept (c.delegate d.type d.key)
    let replacement ← d.method delegate n
    pure (Outcome.replaced replacement))
  have has := c.has_delegate d.key
  cases hdelegate : c.delegate? d.key with
  | none =>
    rw [hdelegate] at has
    have named : c.absent [.delegate d.key] = [d.key] := by
      simp [Context.absent, has, Key.text]
    rw [Context.delegate, hdelegate]
    exact ⟨fun _ s => by rw [named]; rfl, fun none => by rw [named] at none; cases none⟩
  | some x =>
    rw [hdelegate] at has
    refine ⟨fun absent => absurd (c.absent_cons_of_has [] has) absent, fun _ candid => ?_⟩
    refine .ofExcept (fun e he => ?_) fun delegate found =>
      .bind (method c delegate n candid found) fun _ => .pure _
    simp only [Context.delegate, hdelegate] at he
    split at he
    · cases he
    · cases he
      rfl

namespace Emitter

theorem leafLowering_forthright (key : String) :
    (leafLowering key : Rule ω δ).Forthright (List.take 1) := by
  refine Delegation.rule_forthright _ _ fun c x n _ _ => ?_
  change (leaf n).Candid
  unfold leaf
  split
  next value =>
    refine .ofExcept (fun e he => ?_) fun _ _ => .pure _
    unfold literalTarget at he
    repeat' split at he
    all_goals cases he
    rfl
  next => exact .pure _
  next => exact .fail rfl

/-- A delegate that is taken for an emitter is one. -/
theorem delegate_eq_emitter {c : Context ω δ} {key : String} {lower : HighIR → Act ω Target}
    (h : c.delegate delegateType key = .ok lower) : c.delegate? key = some (.emitter lower) := by
  unfold Context.delegate at h
  cases hdelegate : c.delegate? key with
  | none =>
    rw [hdelegate] at h
    cases h
  | some d =>
    rw [hdelegate] at h
    cases d with
    | emitter lower' =>
      cases h
      rfl
    | custom object => cases h

theorem callLowering_forthright (key : String) :
    (callLowering key : Rule ω δ).Forthright (List.take 1) := by
  refine Delegation.rule_forthright _ _ fun c lower n candid found => ?_
  have lowers := candid.delegate key lower (delegate_eq_emitter found)
  change (call lower n).Candid
  unfold call
  split
  · exact .bind (.mapM lowers _) fun _ => .pure _
  · exact .fail rfl

end Emitter

namespace Pipeline

variable (config : Config)

theorem rulesOf_forthright (stage : String) :
    ∀ r ∈ (rulesOf config stage : List (Rule ω δ)), ∃ report, r.Forthright report := by
  unfold rulesOf
  split
  · simp only [coreRules, List.forall_mem_cons]
    exact ⟨⟨_, Rule.matchDesugaring_forthright⟩, ⟨_, Rule.importResolution_forthright⟩, by simp⟩
  · split
    · simp only [codegenRules, List.forall_mem_cons]
      exact ⟨⟨_, Emitter.leafLowering_forthright _⟩, ⟨_, Emitter.callLowering_forthright _⟩,
        ⟨_, Rule.binaryLowering_forthright⟩, ⟨_, Rule.regexLowering_forthright config⟩, by simp⟩
    · simp

section Agreement

variable (stage : String) (n : Node) (c : Context ω δ) (s : Session ω)

/-- A failed check names what the claiming rule lacks. -/
theorem claimed_of_validate_error {f : Failure} {s₁ : Session ω}
    (h : (defaultEngine config).validate stage n c s = .error f s₁) :
    ∃ r ∈ (rulesOf config stage : List (Rule ω δ)), r.applies n c = true ∧
      c.absent r.requires ≠ [] ∧ f = .lowering (.missing (c.absent r.requires)) := by
  rcases unclaimed_or_claimed config stage n c with unclaimed | ⟨r, hr, claimed⟩
  · rw [validate_unclaimed config stage n c s unclaimed] at h
    cases h
  · rw [validate_claimed config stage n c s hr claimed] at h
    by_cases none : c.absent r.requires = []
    · rw [c.require_eq_ok _ ((c.absent_eq_nil_iff _).1 none)] at h
      cases h
    · rw [c.require_eq_error none] at h
      cases h
      exact ⟨r, hr, claimed, none, rfl⟩

/-- After a successful check the claiming rule lacks nothing. -/
theorem present_of_validate_ok {r : Rule ω δ} (hr : r ∈ rulesOf config stage)
    (claimed : r.applies n c = true) {s₁ : Session ω}
    (h : (defaultEngine config).validate stage n c s = .ok () s₁) : c.absent r.requires = [] := by
  rw [validate_claimed config stage n c s hr claimed] at h
  by_cases none : c.absent r.requires = []
  · exact none
  · rw [c.require_eq_error none] at h
    cases h

/-- Rules claim a node without asking who is there. -/
theorem applies_noting (note : Key → ω → ω) {r : Rule ω δ} (hr : r ∈ rulesOf config stage) :
    r.applies n (c.noting note) = r.applies n c := by
  obtain ⟨kinds, claims⟩ := rulesOf_claimsKinds config stage r hr
  rw [claims n c, claims n]

/-- A delegate of another type is found by the check and refused by the rule. -/
theorem refuses_custom {d : Delegation ω δ (HighIR → Act ω Target)} {name : String}
    (hrule : d.rule name ∈ rulesOf config Stage.codegen)
    (claimed : (d.rule name).applies n c = true) (htype : d.type = Emitter.delegateType)
    {object : δ}
    (hdelegate : c.delegate? d.key = some (.custom object)) :
    (defaultEngine config).validate Stage.codegen n c s = .ok () s ∧
      ∃ s', (defaultEngine config).apply Stage.codegen n c s =
        .error (.lowering (.collaboratorType d.key
          (Emitter.delegateType : DelegateType ω δ _).name)) s' := by
  have has : c.has (.delegate d.key) = true := by rw [c.has_delegate, hdelegate]; rfl
  have failed : (d.rule name).apply n c s =
      .error (.lowering (.collaboratorType d.key d.type.name)) s := by
    change (do
      let delegate ← Act.ofExcept (c.delegate d.type d.key)
      let replacement ← d.method delegate n
      pure (Outcome.replaced replacement)) s = _
    rw [Context.delegate, hdelegate, htype]
    rfl
  rw [htype] at failed
  have present : c.require (d.rule name).requires = .ok () :=
    c.require_eq_ok _ (List.forall_mem_singleton.2 has)
  rw [validate_claimed config _ n c s hrule claimed, apply_claimed config _ n c s hrule claimed,
    failed, present]
  exact ⟨rfl, _, rfl⟩

/-- Checking and running agree on who is missing. Where the check fails, the stage fails over a
beginning of the keys that the check names and has called nobody, whatever note the collaborators
would take of it. Where the check succeeds, the stage misses nobody unless a collaborator says so;
it can still refuse a delegate of another type. -/
theorem validate_agrees_with_apply :
    (∀ f s₁, (defaultEngine config).validate stage n c s = .error f s₁ →
      ∃ keys named s', f.missingKeys? = some keys ∧ named ≠ [] ∧ named <+: keys ∧
        (defaultEngine config).apply stage n c s = .error (.lowering (.missing named)) s' ∧
        s'.world = s.world ∧
        ∀ note, (defaultEngine config).apply stage n (c.noting note) s =
          .error (.lowering (.missing named)) s') ∧
    (∀ s₁, (defaultEngine config).validate stage n c s = .ok () s₁ → c.Candid →
      ∀ f s', (defaultEngine config).apply stage n c s = .error f s' → f.missingKeys? = none) ∧
    ∀ object, c.delegate? config.delegateKey = some (.custom object) →
      n.kind ∈ [.highLiteral, .highIdentifier, .highCall] →
        (defaultEngine config).validate Stage.codegen n c s = .ok () s ∧
        ∃ s', (defaultEngine config).apply Stage.codegen n c s =
          .error (.lowering (.collaboratorType config.delegateKey
            (Emitter.delegateType : DelegateType ω δ _).name)) s' := by
  refine ⟨fun f s₁ h => ?_, fun s₁ h candid f s' failed => ?_, fun object hdelegate hkind => ?_⟩
  · obtain ⟨r, hr, claimed, absent, rfl⟩ := claimed_of_validate_error config stage n c s h
    obtain ⟨report, forthright⟩ := rulesOf_forthright config stage r hr
    have fails (c' : Context ω δ) (claimed' : r.applies n c' = true)
        (same : c'.absent r.requires = c.absent r.requires) :
        (defaultEngine config).apply stage n c' s =
          .error (.lowering (.missing (report (c.absent r.requires))))
            ((defaultEngine config : Engine ω δ).counted stage r.name .failed s) := by
      have failed := (forthright.seeks n c' claimed').absent (same ▸ absent) s
      rw [apply_claimed config stage n c' s hr claimed', failed, same]
    obtain ⟨some, beginning⟩ := forthright.beginning _ absent
    refine ⟨_, _, _, Failure.missingKeys?_missing _, some, beginning, fails c claimed rfl,
      Engine.counted_world _ _ _ _ s, fun note => fails _ ?_ ?_⟩
    · rw [applies_noting config stage n c note hr, claimed]
    · exact Context.absent_congr fun k _ => c.has_noting note k
  · rcases unclaimed_or_claimed config stage n c with unclaimed | ⟨r, hr, claimed⟩
    · rw [apply_unclaimed config stage n c s unclaimed] at failed
      cases failed
    · obtain ⟨report, forthright⟩ := rulesOf_forthright config stage r hr
      have none := present_of_validate_ok config stage n c s hr claimed h
      rw [apply_claimed config stage n c s hr claimed] at failed
      cases done : r.apply n c s with
      | ok o s₂ =>
        rw [done] at failed
        cases failed
      | error f' s₂ =>
        rw [done] at failed
        cases failed
        exact (forthright.seeks n c claimed).present none candid s f s₂ done
  · have hleaf := Emitter.leafLowering_claims (ω := ω) (δ := δ) config.delegateKey n c
    have hcall := Emitter.callLowering_claims (ω := ω) (δ := δ) config.delegateKey n c
    by_cases call : n.kind = .highCall
    · exact refuses_custom config n c s (by rw [rulesOf_codegen]; exact .tail _ (.head _))
        (hcall.trans (decide_eq_true (by simp [call]))) rfl hdelegate
    · have leaf : n.kind ∈ [.highLiteral, .highIdentifier] := by simpa [call] using hkind
      exact refuses_custom config n c s (by rw [rulesOf_codegen]; exact .head _)
        (hleaf.trans (decide_eq_true leaf)) rfl hdelegate

end Agreement

/-- A match with a scrutinee and nothing else, and an operator with a lowerer. -/
theorem validate_agrees_with_apply_match :
    (∃ named s', named ≠ [] ∧ named <+: ["match_analyzer", "transform_arm"] ∧
      (defaultEngine {} : Engine Nat Unit).apply Stage.coreIR
          (.source (.matching (.boolean true) []))
          { scrutinee? := some ⟨.literal .nil, .nil⟩ } ⟨.empty, 0, 7⟩ =
        .error (.lowering (.missing named)) s' ∧ s'.world = 7) ∧
    ∀ f s', (defaultEngine {} : Engine Nat Unit).apply Stage.codegen
        (.high (.binary (.literal .nil) "+" (.literal .nil) .nil))
        { lowerer? := some fun _ => .fail (.depthExceeded 3) } ⟨.empty, 0, 7⟩ = .error f s' →
      f.missingKeys? = none := by
  constructor
  · obtain ⟨keys, named, s', hkeys, some, beginning, failed, world, -⟩ :=
      (validate_agrees_with_apply (δ := Unit) {} Stage.coreIR
        (.source (.matching (.boolean true) []))
        { scrutinee? := some ⟨.literal .nil, .nil⟩ } ⟨.empty, 0, 7⟩).1 _ _ rfl
    cases hkeys
    exact ⟨named, s', some, beginning, failed, world⟩
  · refine (validate_agrees_with_apply (δ := Unit) {} Stage.codegen _ _ _).2.1 _ rfl ?_
    refine ⟨?_, nofun, nofun, nofun, nofun, nofun, nofun⟩
    rintro _ ⟨⟩ e
    exact .fail rfl

end Pipeline

end StagedLowering
