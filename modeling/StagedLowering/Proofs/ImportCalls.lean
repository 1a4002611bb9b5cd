import StagedLowering.Proofs.Absence
import StagedLowering.Rule.CoreIR

/-!
The calls that an import makes on those who want to know of it. What the registry finds decides a
plan; the calls made are a beginning of the plan that ends with the first one that fails, and their
end is the end of the rule. The calls are read off a journal that is kept beside the world, where
the collaborators cannot reach it.
-/
namespace StagedLowering

/-- A call that an import makes. -/
inductive ImportCall where
  | register (function : FunctionDecl)
  | reportMissing (name : String) (origin : Option String)
  | publish (event : Event)

/-- The calls to make once the registry has answered: each function found is registered and then
announced, after that each missing name is reported and then announced. -/
def ImportDecl.plan (d : ImportDecl) (found : Resolution) : List ImportCall :=
  (found.resolved.flatMap fun f => [.register f, .publish (.functionImported d.path f)]) ++
    found.missing.flatMap fun name =>
      [.reportMissing name d.origin, .publish (.missingItem d.path name d.origin)]

/-- Make a call on the collaborator it is meant for. -/
def ImportCall.perform {ω : Type} (register : FunctionDecl → Act ω Unit)
    (onMissing : String → Option String → Act ω Unit) (publish : Event → Act ω Unit) :
    ImportCall → Act ω Unit
  | .register function => register function
  | .reportMissing name origin => onMissing name origin
  | .publish event => publish event

/-- A call and how it ended. -/
abbrev Call := ImportCall × Except Failure Unit

/-- These calls were made one after the other, from one session to another; a call that fails is
the last one. -/
inductive Performed {ω : Type} (perform : ImportCall → Act ω Unit) :
    List Call → Session ω → Session ω → Prop
  | none (s : Session ω) : Performed perform [] s s
  | succeeded {k : ImportCall} {calls : List Call} {s s₁ s₂ : Session ω}
      (done : perform k s = .ok () s₁) (rest : Performed perform calls s₁ s₂) :
      Performed perform ((k, .ok ()) :: calls) s s₂
  | failed {k : ImportCall} {f : Failure} {s s₁ : Session ω} (done : perform k s = .error f s₁) :
      Performed perform [(k, .error f)] s s₁

/-- A world and the calls made so far. -/
structure Journaled (ω : Type) where
  world : ω
  calls : List Call

variable {ω δ α β : Type}

/-- The session with a journal beside its world. -/
def Session.journaling (s : Session ω) (calls : List Call) : Session (Journaled ω) :=
  ⟨s.tally, s.depth, ⟨s.world, calls⟩⟩

/-- How an action ends, with a journal beside the world. -/
def journalEnding (calls : List Call) :
    EStateM.Result Failure (Session ω) α → EStateM.Result Failure (Session (Journaled ω)) α
  | .ok a s => .ok a (s.journaling calls)
  | .error f s => .error f (s.journaling calls)

/-- The outcome of a call. -/
def callOutcome : EStateM.Result Failure (Session ω) Unit → Except Failure Unit
  | .ok () _ => .ok ()
  | .error f _ => .error f

namespace Act

/-- An action that leaves the journal alone. -/
def unjournaled (a : Act ω α) : Act (Journaled ω) α := fun s =>
  journalEnding s.world.calls (a ⟨s.tally, s.depth, s.world.world⟩)

/-- A call that is entered in the journal when it ends. -/
def journaled (k : ImportCall) (a : Act ω Unit) : Act (Journaled ω) Unit := fun s =>
  let ending := a ⟨s.tally, s.depth, s.world.world⟩
  journalEnding (s.world.calls ++ [(k, callOutcome ending)]) ending

theorem unjournaled_apply (a : Act ω α) (s : Session ω) (calls : List Call) :
    a.unjournaled (s.journaling calls) = journalEnding calls (a s) := rfl

theorem journaled_apply (k : ImportCall) (a : Act ω Unit) (s : Session ω) (calls : List Call) :
    a.journaled k (s.journaling calls) =
      journalEnding (calls ++ [(k, callOutcome (a s))]) (a s) := rfl

theorem forM_cons_ok {κ : Type} {f : κ → Act ω Unit} {k : κ} {ks : List κ} {s s₁ : Session ω}
    (h : f k s = .ok () s₁) : (k :: ks).forM f s = ks.forM f s₁ :=
  bind_ok h

theorem forM_cons_error {κ : Type} {f : κ → Act ω Unit} {k : κ} {ks : List κ}
    {s s₁ : Session ω} {e : Failure} (h : f k s = .error e s₁) :
    (k :: ks).forM f s = .error e s₁ :=
  bind_error h

theorem forM_append {κ : Type} (f : κ → Act ω Unit) (xs ys : List κ) :
    (xs ++ ys).forM f = (do xs.forM f; ys.forM f) := by
  rw [List.forM_eq_forM]
  exact List.forM_append

theorem forM_flatMap {κ μ : Type} (f : κ → Act ω Unit) (g : μ → List κ) (xs : List μ) :
    (xs.flatMap g).forM f = xs.forM fun x => (g x).forM f := by
  induction xs with
  | nil => rfl
  | cons x xs ih =>
    rw [List.flatMap_cons, forM_append, ih]
    rfl

end Act

/-- The import collaborators of a context, with the calls on three of them journaled, among
others that may do as they like. -/
def Context.journaled (c : Context ω δ) (others : Context (Journaled ω) δ) :
    Context (Journaled ω) δ :=
  { others with
    registry? := c.registry?.map fun resolve path selection =>
      (resolve path selection).unjournaled
    registerFunction? := c.registerFunction?.map fun register function =>
      (register function).journaled (.register function)
    onMissingItem? := c.onMissingItem?.map fun onMissing name origin =>
      (onMissing name origin).journaled (.reportMissing name origin)
    eventBus? := c.eventBus?.map fun publish event => (publish event).journaled (.publish event) }

/-- Planned calls are made in order up to the first that fails, and end as the last one made; the
journal lists what was made. -/
theorem forM_performed (perform : ImportCall → Act ω Unit) (plan : List ImportCall)
    (s : Session ω) :
    ∃ calls s', Performed perform calls s s' ∧ calls.map Prod.fst <+: plan ∧
      (∀ journal, plan.forM (fun k => (perform k).journaled k) (s.journaling journal) =
        journalEnding (journal ++ calls) (plan.forM perform s)) ∧
      ((calls.map Prod.fst = plan ∧ (∀ k ∈ calls, k.2 = .ok ()) ∧
          plan.forM perform s = .ok () s') ∨
        ∃ k f, calls.getLast? = some (k, .error f) ∧ plan.forM perform s = .error f s') := by
  induction plan generalizing s with
  | nil =>
    refine ⟨[], s, .none s, List.prefix_refl _, fun journal => ?_, .inl ⟨rfl, by simp, rfl⟩⟩
    rw [List.append_nil]
    rfl
  | cons k plan ih =>
    cases hk : perform k s with
    | error f s₁ =>
      rw [Act.forM_cons_error hk]
      refine ⟨[(k, .error f)], s₁, .failed hk, by simp, fun journal => ?_, .inr ⟨k, f, rfl, rfl⟩⟩
      have noted := Act.journaled_apply k (perform k) s journal
      rw [hk] at noted
      rw [Act.forM_cons_error (f := fun k => (perform k).journaled k) noted]
      rfl
    | ok u s₁ =>
      obtain ⟨calls, s', made, beginning, journaled, ending⟩ := ih s₁
      rw [Act.forM_cons_ok hk]
      refine ⟨(k, .ok ()) :: calls, s', .succeeded hk made, ?_, fun journal => ?_, ?_⟩
      · rw [List.map_cons]
        exact (List.prefix_cons_inj k).2 beginning
      · have noted := Act.journaled_apply k (perform k) s journal
        rw [hk] at noted
        rw [Act.forM_cons_ok (f := fun k => (perform k).journaled k) noted, journaled,
          List.append_assoc]
        rfl
      · rcases ending with ⟨all, succeeded, done⟩ | ⟨k', f, last, done⟩
        · exact .inl ⟨by rw [List.map_cons, all], List.forall_mem_cons.2 ⟨rfl, succeeded⟩, done⟩
        · exact .inr ⟨k', f, by rw [List.getLast?_cons, last]; rfl, done⟩

namespace Rule

variable (c : Context ω δ) (d : ImportDecl) (s : Session ω)

/-- Going through the plan is going through the functions found and then through the names not
found. -/
theorem forM_plan (found : Resolution) (register : FunctionDecl → Act ω Unit)
    (onMissing : String → Option String → Act ω Unit) (publish : Event → Act ω Unit) :
    (d.plan found).forM (ImportCall.perform register onMissing publish) = (do
      found.resolved.forM (importFunction d.path register publish)
      found.missing.forM (reportMissing d.path d.origin onMissing publish)) := by
  have functions (f : FunctionDecl) :
      [ImportCall.register f, .publish (.functionImported d.path f)].forM
        (ImportCall.perform register onMissing publish) =
          importFunction d.path register publish f := by
    simp [importFunction, ImportCall.perform]
  have names (name : String) :
      [ImportCall.reportMissing name d.origin, .publish (.missingItem d.path name d.origin)].forM
        (ImportCall.perform register onMissing publish) =
          reportMissing d.path d.origin onMissing publish name := by
    simp [reportMissing, ImportCall.perform]
  rw [ImportDecl.plan, Act.forM_append, Act.forM_flatMap, Act.forM_flatMap]
  simp only [functions, names]

/-- What an import needs. -/
def importNeeds : List Key := [.registry, .registerFunction, .onMissingItem, .eventBus]

/-- The import rule applied to a declaration. -/
abbrev runImport : Act ω Outcome := importResolution.apply (.source (.importing d)) c

/-- If nothing is lacking, all four are there. -/
theorem exists_of_absent_eq_nil (h : c.absent importNeeds = []) :
    ∃ resolve register onMissing publish, c.registry? = some resolve ∧
      c.registerFunction? = some register ∧ c.onMissingItem? = some onMissing ∧
      c.eventBus? = some publish := by
  have has := (c.absent_eq_nil_iff _).1 h
  obtain ⟨resolve, hresolve⟩ := Option.isSome_iff_exists.1 (has .registry (by decide))
  obtain ⟨register, hregister⟩ := Option.isSome_iff_exists.1 (has .registerFunction (by decide))
  obtain ⟨onMissing, hmissing⟩ := Option.isSome_iff_exists.1 (has .onMissingItem (by decide))
  obtain ⟨publish, hpublish⟩ := Option.isSome_iff_exists.1 (has .eventBus (by decide))
  exact ⟨resolve, register, onMissing, publish, hresolve, hregister, hmissing, hpublish⟩

/-- Without one of the four an import fails before it does anything. -/
theorem runImport_absent (h : c.absent importNeeds ≠ []) :
    runImport c d s = .error (.lowering (.missing (c.absent importNeeds))) s := by
  change (do Act.ofExcept (c.require importNeeds); _ : Act ω Outcome) s = _
  rw [c.require_eq_error h]
  rfl

/-- With all four it asks the registry and then goes through the plan. -/
theorem runImport_present
    {resolve : String → ImportSelection → Act ω Resolution} {register : FunctionDecl → Act ω Unit}
    {onMissing : String → Option String → Act ω Unit} {publish : Event → Act ω Unit}
    (hresolve : c.registry? = some resolve) (hregister : c.registerFunction? = some register)
    (hmissing : c.onMissingItem? = some onMissing) (hpublish : c.eventBus? = some publish) :
    runImport c d = (do
      let found ← resolve d.path d.selection
      (d.plan found).forM (ImportCall.perform register onMissing publish)
      pure (.replaced (.high (.importing d.path (found.resolved.map (·.name)))))) := by
  have present : c.require importNeeds = .ok () := by
    refine c.require_eq_ok _ fun k hk => ?_
    simp only [importNeeds, List.mem_cons, List.not_mem_nil, or_false] at hk
    rcases hk with rfl | rfl | rfl | rfl <;> simp [Context.has, *]
  change (do
    Act.ofExcept (c.require importNeeds)
    let resolve ← Act.ofExcept c.registry
    let register ← Act.ofExcept c.registerFunction
    let onMissing ← Act.ofExcept c.onMissingItem
    let publish ← Act.ofExcept c.eventBus
    let found ← resolve d.path d.selection
    found.resolved.forM (importFunction d.path register publish)
    found.missing.forM (reportMissing d.path d.origin onMissing publish)
    pure (.replaced (.high (.importing d.path (found.resolved.map (·.name))))) : Act ω Outcome) = _
  rw [present, Context.registry, Context.registerFunction, Context.onMissingItem,
    Context.eventBus, hresolve, hregister, hmissing, hpublish]
  simp only [forM_plan, bind_assoc]
  rfl

/-- The journal does not change what is there. -/
theorem absent_journaled (others : Context (Journaled ω) δ) :
    (c.journaled others).absent importNeeds = c.absent importNeeds := by
  refine Context.absent_congr fun k hk => ?_
  simp only [importNeeds, List.mem_cons, List.not_mem_nil, or_false] at hk
  rcases hk with rfl | rfl | rfl | rfl <;> simp [Context.journaled, Context.has]

/-- A call on journaled collaborators is the call, journaled. -/
theorem perform_journaled (register : FunctionDecl → Act ω Unit)
    (onMissing : String → Option String → Act ω Unit) (publish : Event → Act ω Unit) :
    ImportCall.perform (fun function => (register function).journaled (.register function))
        (fun name origin => (onMissing name origin).journaled (.reportMissing name origin))
        (fun event => (publish event).journaled (.publish event)) =
      fun k => (ImportCall.perform register onMissing publish k).journaled k := by
  funext k
  cases k <;> rfl

/-- Without one of the collaborators the import fails before it calls anyone. -/
theorem runImport_refused (others : Context (Journaled ω) δ) {k : Key} (hk : k ∈ importNeeds)
    (h : c.has k = false) :
    ∃ calls,
      runImport (c.journaled others) d (s.journaling []) = journalEnding calls (runImport c d s) ∧
      calls = [] ∧ ∃ keys, keys ≠ [] ∧ runImport c d s = .error (.lowering (.missing keys)) s := by
  have lacking : c.absent importNeeds ≠ [] := by
    intro none
    rw [(c.absent_eq_nil_iff _).1 none k hk] at h
    cases h
  have lacking' : (c.journaled others).absent importNeeds ≠ [] := by rwa [absent_journaled]
  rw [runImport_absent c d s lacking, runImport_absent _ d _ lacking', absent_journaled]
  exact ⟨[], rfl, rfl, _, lacking, rfl⟩

section Present

variable {c}
variable {resolve : String → ImportSelection → Act ω Resolution}
  {register : FunctionDecl → Act ω Unit} {onMissing : String → Option String → Act ω Unit}
  {publish : Event → Act ω Unit}

/-- With a journal, the registry is asked all the same and the planned calls are journaled. -/
theorem runImport_journaled (others : Context (Journaled ω) δ)
    (hresolve : c.registry? = some resolve) (hregister : c.registerFunction? = some register)
    (hmissing : c.onMissingItem? = some onMissing) (hpublish : c.eventBus? = some publish) :
    runImport (c.journaled others) d = (do
      let found ← (resolve d.path d.selection).unjournaled
      (d.plan found).forM fun k => (ImportCall.perform register onMissing publish k).journaled k
      pure (.replaced (.high (.importing d.path (found.resolved.map (·.name)))))) := by
  rw [← perform_journaled]
  exact runImport_present (c.journaled others) d
    (congrArg (Option.map _) hresolve) (congrArg (Option.map _) hregister)
    (congrArg (Option.map _) hmissing) (congrArg (Option.map _) hpublish)

/-- If the registry fails, so does the import, and nobody else is called. -/
theorem runImport_unanswered (others : Context (Journaled ω) δ)
    (hresolve : c.registry? = some resolve) (hregister : c.registerFunction? = some register)
    (hmissing : c.onMissingItem? = some onMissing) (hpublish : c.eventBus? = some publish)
    {f : Failure} {s₁ : Session ω} (answer : resolve d.path d.selection s = .error f s₁) :
    runImport (c.journaled others) d (s.journaling []) = journalEnding [] (runImport c d s) ∧
      runImport c d s = .error f s₁ := by
  have answer' : (resolve d.path d.selection).unjournaled (s.journaling []) =
      .error f (s₁.journaling []) := by
    rw [Act.unjournaled_apply, answer]
    rfl
  rw [runImport_journaled d others hresolve hregister hmissing hpublish, Act.bind_error answer',
    runImport_present c d hresolve hregister hmissing hpublish, Act.bind_error answer]
  exact ⟨rfl, rfl⟩

/-- What an import comes to once the registry has answered. -/
theorem runImport_found (others : Context (Journaled ω) δ)
    (hresolve : c.registry? = some resolve) (hregister : c.registerFunction? = some register)
    (hmissing : c.onMissingItem? = some onMissing) (hpublish : c.eventBus? = some publish)
    {found : Resolution} {s₁ : Session ω} (answer : resolve d.path d.selection s = .ok found s₁) :
    ∃ calls s₂, Performed (ImportCall.perform register onMissing publish) calls s₁ s₂ ∧
      calls.map Prod.fst <+: d.plan found ∧
      runImport (c.journaled others) d (s.journaling []) = journalEnding calls (runImport c d s) ∧
      ((calls.map Prod.fst = d.plan found ∧ (∀ k ∈ calls, k.2 = .ok ()) ∧
          runImport c d s =
            .ok (.replaced (.high (.importing d.path (found.resolved.map (·.name))))) s₂) ∨
        ∃ k f, calls.getLast? = some (k, .error f) ∧ runImport c d s = .error f s₂) := by
  obtain ⟨calls, s₂, made, beginning, journaled, ending⟩ :=
    forM_performed (ImportCall.perform register onMissing publish) (d.plan found) s₁
  have answer' : (resolve d.path d.selection).unjournaled (s.journaling []) =
      .ok found (s₁.journaling []) := by
    rw [Act.unjournaled_apply, answer]
    rfl
  have journaled := journaled []
  rw [List.nil_append] at journaled
  refine ⟨calls, s₂, made, beginning, ?_⟩
  rw [runImport_journaled d others hresolve hregister hmissing hpublish, Act.bind_ok answer',
    runImport_present c d hresolve hregister hmissing hpublish, Act.bind_ok answer]
  rcases ending with ⟨all, succeeded, done⟩ | ⟨k, f, last, done⟩
  · rw [done] at journaled
    rw [Act.bind_ok journaled, Act.bind_ok done]
    exact ⟨rfl, .inl ⟨all, succeeded, rfl⟩⟩
  · rw [done] at journaled
    rw [Act.bind_error journaled, Act.bind_error done]
    exact ⟨rfl, .inr ⟨k, f, last, rfl⟩⟩

end Present

/-- The calls of an import are a beginning of the plan for what the registry finds. The import
succeeds exactly if all of the plan was carried out and every call succeeded; otherwise it ends with
the failure of the last call, and in the session that the calls left. Nothing is called if one of
the four collaborators is absent or the registry fails. -/
theorem runImport_follows_plan (others : Context (Journaled ω) δ) :
    ∃ calls,
      runImport (c.journaled others) d (s.journaling []) = journalEnding calls (runImport c d s) ∧
      match c.registry?, c.registerFunction?, c.onMissingItem?, c.eventBus? with
      | some resolve, some register, some onMissing, some publish =>
        match resolve d.path d.selection s with
        | .error f s₁ => calls = [] ∧ runImport c d s = .error f s₁
        | .ok found s₁ =>
          ∃ s₂, Performed (ImportCall.perform register onMissing publish) calls s₁ s₂ ∧
            calls.map Prod.fst <+: d.plan found ∧
            ((∃ o t, runImport c d s = .ok o t) ↔
              calls.map Prod.fst = d.plan found ∧ ∀ k ∈ calls, k.2 = .ok ()) ∧
            (∀ o t, runImport c d s = .ok o t →
              o = .replaced (.high (.importing d.path (found.resolved.map (·.name)))) ∧ t = s₂) ∧
            ∀ f t, runImport c d s = .error f t →
              (∃ k, calls.getLast? = some (k, .error f)) ∧ t = s₂
      | _, _, _, _ =>
        calls = [] ∧
          ∃ keys, keys ≠ [] ∧ runImport c d s = .error (.lowering (.missing keys)) s := by
  cases hresolve : c.registry? with
  | none =>
    have lacks : c.has .registry = false := by simp [Context.has, hresolve]
    exact runImport_refused c d s others (by decide) lacks
  | some resolve =>
  cases hregister : c.registerFunction? with
  | none =>
    have lacks : c.has .registerFunction = false := by simp [Context.has, hregister]
    exact runImport_refused c d s others (by decide) lacks
  | some register =>
  cases hmissing : c.onMissingItem? with
  | none =>
    have lacks : c.has .onMissingItem = false := by simp [Context.has, hmissing]
    exact runImport_refused c d s others (by decide) lacks
  | some onMissing =>
  cases hpublish : c.eventBus? with
  | none =>
    have lacks : c.has .eventBus = false := by simp [Context.has, hpublish]
    exact runImport_refused c d s others (by decide) lacks
  | some publish =>
  dsimp only
  cases answer : resolve d.path d.selection s with
  | error f s₁ =>
    obtain ⟨journaled, failed⟩ :=
      runImport_unanswered d s others hresolve hregister hmissing hpublish answer
    exact ⟨[], journaled, rfl, failed⟩
  | ok found s₁ =>
    obtain ⟨calls, s₂, made, beginning, journaled, ending⟩ :=
      runImport_found d s others hresolve hregister hmissing hpublish answer
    refine ⟨calls, journaled, s₂, made, beginning, ?_⟩
    rcases ending with ⟨all, succeeded, done⟩ | ⟨k, f, last, done⟩
    · rw [done]
      refine ⟨⟨fun _ => ⟨all, succeeded⟩, fun _ => ⟨_, _, rfl⟩⟩, ?_, ?_⟩
      · rintro o t ⟨⟩
        exact ⟨rfl, rfl⟩
      · rintro f t ⟨⟩
    · rw [done]
      refine ⟨⟨?_, ?_⟩, ?_, ?_⟩
      · rintro ⟨o, t, ⟨⟩⟩
      · rintro ⟨-, succeeded⟩
        cases succeeded _ (List.mem_of_getLast? last)
      · rintro o t ⟨⟩
      · rintro f' t ⟨⟩
        exact ⟨⟨k, last⟩, rfl⟩

end Rule

end StagedLowering
