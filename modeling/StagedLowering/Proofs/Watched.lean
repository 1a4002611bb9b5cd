import StagedLowering.Proofs.Conduct

/-!
Watching rules at work. A watched rule notes in the world every HighIR node it is tested against,
before it decides whether to claim the node, and then does what the rule itself does. So what the
rules of an engine get to see can be read off the world.
-/
namespace StagedLowering

variable {ω δ : Type}

/-- The rule, noting the HighIR nodes it is tested against. What the rule does not claim is left
unchanged by its application instead. -/
def Rule.watched (note : HighIR → ω → ω) (r : Rule ω δ) : Rule ω δ :=
  { r with
    applies := fun _ _ => true
    apply := fun n c => do
      match n with
      | .high e => Act.onWorld (modify (note e))
      | _ => pure ()
      if r.applies n c then r.apply n c else pure .unchanged }

def Entry.watched (note : HighIR → ω → ω) (entry : Entry ω δ) : Entry ω δ :=
  { entry with
    supply :=
      match entry.supply with
      | .shared r => .shared (r.watched note)
      | .fresh make => .fresh (do let r ← make; pure (r.watched note)) }

/-- The engine with all its rules watched. It does not count, since every test is an application. -/
def Engine.watched (note : HighIR → ω → ω) (E : Engine ω δ) : Engine ω δ :=
  { E with
    stages := E.stages.mapValues fun _ entries => entries.map (Entry.watched note)
    collectStats := false }

/-- What the rules see between two marks: a node that comes up is tested until it is claimed. -/
def Mark.tested : Mark → List HighIR
  | .begun e => List.replicate e.tests e
  | .ended _ _ => []

/-- Note nodes one after the other. -/
def noteAll (note : HighIR → ω → ω) (es : List HighIR) (world : ω) : ω :=
  es.foldl (fun world e => note e world) world

/-- The ledger of a watched engine. -/
def Ledger.watching (note : HighIR → ω → ω) : Ledger ω where
  count _ tally := tally
  note m world := noteAll note m.tested world

theorem Ledger.watching_enterAll (note : HighIR → ω → ω) (ms : List Mark) (s : Session ω) :
    (Ledger.watching note).enterAll ms s =
      { s with world := noteAll note (ms.flatMap Mark.tested) s.world } := by
  induction ms generalizing s with
  | nil => rfl
  | cons m ms ih =>
    rw [Ledger.enterAll_cons, ih, List.flatMap_cons]
    simp [Ledger.enter, Ledger.watching, noteAll]

/-- A watched rule notes a HighIR node first. -/
theorem Rule.watched_apply_high (note : HighIR → ω → ω) (r : Rule ω δ) (e : HighIR)
    (c : Context ω δ) (s : Session ω) :
    (r.watched note).apply (.high e) c s =
      (if r.applies (.high e) c then r.apply (.high e) c else pure .unchanged : Act ω Outcome)
        { s with world := note e s.world } := rfl

namespace Engine

variable (note : HighIR → ω → ω) (E : Engine ω δ)

theorem entries_watched (stage : String) :
    (E.watched note).entries stage = (E.entries stage).map (Entry.watched note) := by
  unfold entries watched
  rw [OrderedMap.get?_mapValues]
  cases E.stages.get? stage <;> rfl

variable (stage : String) (c : Context ω δ) (e : HighIR) (s : Session ω)

/-- Rules that decline a node each note it once. -/
theorem watched_foldlM_declined (rules : List (Rule ω δ))
    (h : ∀ r ∈ rules, r.applies (.high e) c = false) :
    ((rules.map (Rule.watched note)).map Entry.ofRule).foldlM
        ((E.watched note).applyEntry stage c) (.high e) s =
      .ok (.high e)
        { s with world := noteAll note (List.replicate rules.length e) s.world } := by
  induction rules generalizing s with
  | nil => rfl
  | cons r rules ih =>
    have done : (r.watched note).apply (.high e) c s =
        .ok .unchanged { s with world := note e s.world } := by
      rw [Rule.watched_apply_high, h r List.mem_cons_self]
      rfl
    rw [List.map_cons, List.map_cons, List.foldlM_cons,
      Act.bind_ok (applyEntry_claimed_ok _ stage c _ s rfl done)]
    exact ih _ fun r' hr' => h r' (List.mem_cons_of_mem r hr')

/-- Rules that decline a target expression note nothing. -/
theorem watched_foldlM_target (rules : List (Rule ω δ)) (t : Target)
    (h : ∀ r ∈ rules, r.applies (.target t) c = false) :
    ((rules.map (Rule.watched note)).map Entry.ofRule).foldlM
        ((E.watched note).applyEntry stage c) (.target t) s =
      .ok (.target t) s := by
  induction rules with
  | nil => rfl
  | cons r rules ih =>
    have done : (r.watched note).apply (.target t) c s = .ok .unchanged s := by
      change (if r.applies (.target t) c then _ else pure .unchanged : Act ω Outcome) s = _
      rw [h r List.mem_cons_self]
      rfl
    rw [List.map_cons, List.map_cons, List.foldlM_cons,
      Act.bind_ok (applyEntry_claimed_ok _ stage c _ s rfl done)]
    exact ih fun r' hr' => h r' (List.mem_cons_of_mem r hr')

/-- A node that one rule turns into a target expression is noted up to that rule. -/
theorem watched_foldlM_converted (before after : List (Rule ω δ)) {r : Rule ω δ}
    (hbefore : ∀ r ∈ before, r.applies (.high e) c = false) (h : r.applies (.high e) c = true)
    (hafter : ∀ r ∈ after, ∀ t, r.applies (.target t) c = false) {conversion : Act ω Target}
    (happly : r.apply (.high e) c = do let t ← conversion; pure (.replaced (.target t))) :
    (((before ++ r :: after).map (Rule.watched note)).map Entry.ofRule).foldlM
        ((E.watched note).applyEntry stage c) (.high e) s =
      match conversion
          { s with world := noteAll note (List.replicate (before.length + 1) e) s.world } with
      | .ok t s' => .ok (.target t) s'
      | .error f s' => .error f s' := by
  have noted : { s with world := noteAll note (List.replicate (before.length + 1) e) s.world } =
      { s with world := note e (noteAll note (List.replicate before.length e) s.world) } := by
    rw [List.replicate_succ']
    simp [noteAll]
  have claimed (s : Session ω) : (r.watched note).apply (.high e) c s =
      (do let t ← conversion; pure (Outcome.replaced (.target t)) : Act ω Outcome)
        { s with world := note e s.world } := by
    rw [Rule.watched_apply_high, h, ← happly]
    rfl
  rw [List.map_append, List.map_append, List.foldlM_append,
    Act.bind_ok (watched_foldlM_declined note E stage c e s before hbefore), List.map_cons,
    List.map_cons, List.foldlM_cons, noted]
  have done := claimed { s with world := noteAll note (List.replicate before.length e) s.world }
  cases hconversion : conversion
      { s with world := note e (noteAll note (List.replicate before.length e) s.world) } with
  | ok t s' =>
    rw [Act.bind_ok hconversion] at done
    rw [Act.bind_ok (applyEntry_claimed_ok _ stage c _ _ rfl done)]
    exact watched_foldlM_target note E stage c s' after t fun r hr => hafter r hr t
  | error f s' =>
    rw [Act.bind_error hconversion] at done
    rw [Act.bind_error (applyEntry_claimed_error _ stage c _ _ rfl done)]
    rfl

end Engine

namespace Pipeline

variable (note : HighIR → ω → ω) (config : Config)

/-- The pipeline of a configuration, with its rules watched. -/
def watched : Pipeline ω δ := ⟨config, (defaultEngine config).watched note⟩

theorem entries_codegen_watched :
    ((defaultEngine config : Engine ω δ).watched note).entries Stage.codegen =
      ((codegenRules config).map (Rule.watched note)).map Entry.ofRule := by
  rw [Engine.entries_watched, entries_codegen, List.map_map, List.map_map]
  rfl

/-- Watched rules lower as the rules themselves do. -/
theorem watched_conducts :
    (watched note config : Pipeline ω δ).emitter.Conducts config (.watching note) where
  maxDepth := rfl
  validate e lower s := by
    change ((defaultEngine config).watched note).validate _ _ _ s = _
    rw [Engine.validate_shared _ _ _ _ s _ (entries_codegen_watched note config),
      Context.require_eq_ok]
    · rfl
    · intro k hk
      obtain ⟨_, watched, hk⟩ := List.mem_flatMap.1 hk
      obtain ⟨r, hr, rfl⟩ := List.mem_map.1 watched
      exact Emitter.context_has _ lower k (codegenRules_requires config r hr k hk)
  apply e lower := by
    funext s
    change ((defaultEngine config).watched note).apply _ _ _ s = _
    rw [Engine.apply, entries_codegen_watched]
    have claim :=
      codegenRules_handle config (watched note config : Pipeline ω δ).emitter rfl lower e
    cases hconvert : e.convert config lower with
    | none =>
      rw [hconvert] at claim
      rw [Engine.watched_foldlM_declined note _ _ _ e s _ claim.2, claim.1]
      rfl
    | some conversion =>
      rw [hconvert] at claim
      obtain ⟨before, r, after, hrules, htests, -, hbefore, hclaims, happly⟩ := claim
      have hafter (r : Rule ω δ) (hr : r ∈ after) (t : Target) :=
        codegenRules_decline config (Emitter.context (watched note config).emitter lower) t r
          (by simp [hrules, hr])
      rw [hrules,
        Engine.watched_foldlM_converted note _ _ _ e s before after hbefore hclaims hafter happly,
        htests]
      rfl

end Pipeline

end StagedLowering
