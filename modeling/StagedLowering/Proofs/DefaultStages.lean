import StagedLowering.Proofs.Conduct

/-!
The default stages. Every rule of a stage claims kinds of nodes that no other rule of it claims, and
turns them into nodes of another family, which no rule of the stage claims. So a node has at most
one rule in a stage, and that rule's outcome is the outcome of the stage.
-/
namespace StagedLowering

variable {ω δ : Type}

namespace Act

variable {α β : Type}

/-- Whatever the action gives has the property. -/
def Yields (a : Act ω α) (P : α → Prop) : Prop := ∀ s x s', a s = .ok x s' → P x

namespace Yields

variable {P : β → Prop}

theorem pure {b : β} (h : P b) : Yields (pure b : Act ω β) P := by
  rintro s x s' ⟨⟩
  exact h

theorem fail (e : LoweringError) : Yields (Act.fail e : Act ω β) P := by
  rintro s x s' ⟨⟩

theorem andThen {a : Act ω α} {f : α → Act ω β} {Q : α → Prop} (ha : a.Yields Q)
    (h : ∀ x, Q x → (f x).Yields P) : (a >>= f).Yields P := by
  intro s y s' done
  cases hx : a s with
  | ok x s₁ =>
    rw [bind_ok hx] at done
    exact h x (ha s x s₁ hx) s₁ y s' done
  | error e s₁ =>
    rw [bind_error hx] at done
    cases done

/-- Where nothing is known of what comes before, the last action decides. -/
theorem bind {a : Act ω α} {f : α → Act ω β} (h : ∀ x, (f x).Yields P) : (a >>= f).Yields P :=
  andThen (fun _ _ _ _ => trivial) fun x (_ : True) => h x

end Yields

end Act

namespace Rule

/-- No node is claimed by both. -/
def Apart (r r' : Rule ω δ) : Prop := ∀ n c, r.applies n c = true → r'.applies n c = false

theorem Apart.symm {r r' : Rule ω δ} (h : r.Apart r') : r'.Apart r := by
  intro n c claimed
  rw [← Bool.not_eq_true]
  intro claimed'
  have declined := h n c claimed'
  rw [claimed] at declined
  cases declined

/-- Among rules of which no two claim the same node, one that claims it is the only one. -/
theorem split_of_claimed {rules : List (Rule ω δ)} (apart : rules.Pairwise Apart) {r : Rule ω δ}
    (hr : r ∈ rules) {n : Node} {c : Context ω δ} (claimed : r.applies n c = true) :
    ∃ before after, rules = before ++ r :: after ∧
      (∀ r' ∈ before, r'.applies n c = false) ∧ ∀ r' ∈ after, r'.applies n c = false := by
  obtain ⟨before, after, rfl⟩ := List.append_of_mem hr
  obtain ⟨-, later, across⟩ := List.pairwise_append.1 apart
  refine ⟨before, after, rfl, fun r' hr' => ?_, fun r' hr' => ?_⟩
  · exact (across r' hr' r List.mem_cons_self).symm n c claimed
  · exact (List.pairwise_cons.1 later).1 r' hr' n c claimed

/-- Some rule claims the node, or none does. -/
theorem unclaimed_or_claimed (rules : List (Rule ω δ)) (n : Node) (c : Context ω δ) :
    (∀ r ∈ rules, r.applies n c = false) ∨ ∃ r ∈ rules, r.applies n c = true := by
  by_cases h : ∃ r ∈ rules, r.applies n c = true
  · exact .inr h
  · refine .inl fun r hr => ?_
    rw [← Bool.not_eq_true]
    exact fun claimed => h ⟨r, hr, claimed⟩

/-- Rules that decline a node require nothing for it. -/
theorem requires_declined {rules : List (Rule ω δ)} {n : Node} {c : Context ω δ}
    (h : ∀ r ∈ rules, r.applies n c = false) :
    (rules.flatMap fun r => if r.applies n c then r.requires else []) = [] :=
  List.flatMap_eq_nil_iff.2 fun r hr => by rw [h r hr]; rfl

/-- Rules of which no two claim the same node, and none claims what one of them has made. -/
structure Exclusive (rules : List (Rule ω δ)) : Prop where
  apart : rules.Pairwise Apart
  declineMade : ∀ r ∈ rules, ∀ n c s o s', r.apply n c s = .ok o s' →
    ∀ r' ∈ rules, ∀ c', r'.applies (o.node n) c' = false

/-- The rule claims nodes of these kinds, whatever the context. -/
def ClaimsKinds (r : Rule ω δ) (kinds : List NodeKind) : Prop :=
  ∀ n c, r.applies n c = decide (n.kind ∈ kinds)

theorem ClaimsKinds.mem {r : Rule ω δ} {kinds : List NodeKind} (h : r.ClaimsKinds kinds) {n : Node}
    {c : Context ω δ} (claimed : r.applies n c = true) : n.kind ∈ kinds :=
  of_decide_eq_true ((h n c).symm.trans claimed)

theorem ClaimsKinds.apart {r r' : Rule ω δ} {kinds kinds' : List NodeKind}
    (h : r.ClaimsKinds kinds) (h' : r'.ClaimsKinds kinds') (disjoint : ∀ k ∈ kinds, k ∉ kinds') :
    r.Apart r' := by
  intro n c claimed
  rw [h' n c]
  exact decide_eq_false (disjoint n.kind (h.mem claimed))

theorem ClaimsKinds.family {r : Rule ω δ} {kinds : List NodeKind} {family : Family}
    (h : r.ClaimsKinds kinds) (hkinds : ∀ k ∈ kinds, k.family = family) {n : Node}
    {c : Context ω δ} (claimed : r.applies n c = true) : n.family = family := by
  rw [← n.family_kind]
  exact hkinds n.kind (h.mem claimed)

/-- The rules with a pattern of their own each claim one kind. -/
theorem patterned_claims (config : Config) :
    (matchDesugaring : Rule ω δ).ClaimsKinds [.sourceMatch] ∧
      (importResolution : Rule ω δ).ClaimsKinds [.sourceImport] ∧
      (binaryLowering : Rule ω δ).ClaimsKinds [.highBinary] ∧
      (regexLowering config : Rule ω δ).ClaimsKinds [.highRegex] := by
  simp only [ClaimsKinds, ← forall_and]
  intro n c
  cases n with
  | source tree => cases tree <;> exact ⟨rfl, rfl, rfl, rfl⟩
  | high tree => cases tree <;> exact ⟨rfl, rfl, rfl, rfl⟩
  | target tree => cases tree <;> exact ⟨rfl, rfl, rfl, rfl⟩

end Rule

namespace Engine

variable {E : Engine ω δ} {stage : String} {rules : List (Rule ω δ)}
  (hentries : E.entries stage = rules.map Entry.ofRule) {n : Node} {c : Context ω δ}

include hentries

/-- A node that no rule claims passes a stage as it is. -/
theorem apply_of_unclaimed (h : ∀ r ∈ rules, r.applies n c = false) :
    E.apply stage n c = pure n := by
  funext s
  rw [apply, hentries, E.foldlM_unclaimed stage c n s rules h, Act.pure_apply]

theorem validate_of_unclaimed (h : ∀ r ∈ rules, r.applies n c = false) :
    E.validate stage n c = pure () := by
  funext s
  rw [E.validate_shared stage c n s rules hentries, Rule.requires_declined h]
  rfl

variable {r : Rule ω δ} (hr : r ∈ rules) (h : r.applies n c = true)

include hr h

/-- Among exclusive rules, the one that claims the node is all there is to a stage. -/
theorem apply_of_claimed (exclusive : Rule.Exclusive rules) :
    E.apply stage n c = E.applyEntry stage c n (.ofRule r) := by
  obtain ⟨before, after, hrules, hbefore, -⟩ := Rule.split_of_claimed exclusive.apart hr h
  funext s
  rw [apply, hentries]
  cases done : r.apply n c s with
  | ok o s' =>
    -- The rules after it see what it has made, which none of them claims.
    have hafter : ∀ r' ∈ after, r'.applies (o.node n) c = false := fun r' hr' =>
      exclusive.declineMade r hr n c s o s' done r' (by simp [hrules, hr']) c
    rw [E.applyEntry_claimed_ok stage c n s h done, hrules,
      E.foldlM_claimed_ok stage c n s before after hbefore h done]
    exact E.foldlM_unclaimed stage c (o.node n) _ after hafter
  | error f s' =>
    rw [E.applyEntry_claimed_error stage c n s h done, hrules,
      E.foldlM_claimed_error stage c n s before after hbefore h done]

/-- Checking a stage asks for what the rule that claims the node requires. -/
theorem validate_of_claimed (apart : rules.Pairwise Rule.Apart) :
    E.validate stage n c = Act.ofExcept (c.require r.requires) := by
  obtain ⟨before, after, hrules, hbefore, hafter⟩ := Rule.split_of_claimed apart hr h
  funext s
  rw [E.validate_shared stage c n s rules hentries, hrules, List.flatMap_append,
    List.flatMap_cons, Rule.requires_declined hbefore, Rule.requires_declined hafter, h,
    if_pos rfl, List.nil_append, List.append_nil]

end Engine

/-- The rule claims nodes of one family and replaces them by nodes of another. -/
structure Rule.Converts (r : Rule ω δ) (given made : Family) : Prop where
  claims : ∀ n c, r.applies n c = true → n.family = given
  replaces : ∀ n c, (r.apply n c).Yields fun o => ∃ n', o = .replaced n' ∧ n'.family = made

theorem Rule.matchDesugaring_converts : (matchDesugaring : Rule ω δ).Converts .source .high where
  claims _ _ := (patterned_claims default).1.family (by decide)
  replaces n c := by
    simp only [matchDesugaring]
    split
    · exact .bind fun _ => .bind fun _ => .bind fun _ => .bind fun _ => .pure ⟨_, rfl, rfl⟩
    · exact .fail _

theorem Rule.importResolution_converts : (importResolution : Rule ω δ).Converts .source .high where
  claims _ _ := (patterned_claims default).2.1.family (by decide)
  replaces n c := by
    simp only [importResolution]
    split
    · exact .bind fun _ => .bind fun _ => .bind fun _ => .bind fun _ => .bind fun _ =>
        .bind fun _ => .bind fun _ => .bind fun _ => .pure ⟨_, rfl, rfl⟩
    · exact .fail _

theorem Rule.binaryLowering_converts : (binaryLowering : Rule ω δ).Converts .high .target where
  claims _ _ := (patterned_claims default).2.2.1.family (by decide)
  replaces n c := by
    simp only [binaryLowering]
    split
    · exact .bind fun _ => .bind fun _ => .bind fun _ => .pure ⟨_, rfl, rfl⟩
    · exact .fail _

theorem Rule.regexLowering_converts (config : Config) :
    (regexLowering config : Rule ω δ).Converts .high .target where
  claims _ _ := (patterned_claims config).2.2.2.family (by decide)
  replaces n c := by
    simp only [regexLowering]
    split
    · exact .pure ⟨_, rfl, rfl⟩
    · exact .fail _

theorem Delegation.rule_claims {D : Type} (d : Delegation ω δ D) (name : String) :
    (d.rule name).ClaimsKinds d.claims.kinds := fun _ _ => rfl

/-- A delegation converts nodes as the method of its delegate does. -/
theorem Delegation.rule_converts {D : Type} (d : Delegation ω δ D) (name : String)
    {kinds : List NodeKind} (claims : (d.rule name).ClaimsKinds kinds) {given made : Family}
    (hkinds : ∀ k ∈ kinds, k.family = given)
    (method : ∀ x n, (d.method x n).Yields fun n' => n'.family = made) :
    (d.rule name).Converts given made where
  claims _ _ := claims.family hkinds
  replaces n _ := .bind fun x => .andThen (method x n) fun n' hn' => .pure ⟨n', rfl, hn'⟩

theorem Emitter.leafLowering_claims (key : String) :
    (leafLowering key : Rule ω δ).ClaimsKinds [.highLiteral, .highIdentifier] :=
  Delegation.rule_claims _ _

theorem Emitter.callLowering_claims (key : String) :
    (callLowering key : Rule ω δ).ClaimsKinds [.highCall] :=
  Delegation.rule_claims _ _

theorem Emitter.leafLowering_converts (key : String) :
    (leafLowering key : Rule ω δ).Converts .high .target := by
  refine Delegation.rule_converts _ _ (leafLowering_claims key) (by decide) fun _ n => ?_
  change (leaf n).Yields _
  unfold leaf
  split
  · exact .bind fun _ => .pure rfl
  · exact .pure rfl
  · exact .fail _

theorem Emitter.callLowering_converts (key : String) :
    (callLowering key : Rule ω δ).Converts .high .target := by
  refine Delegation.rule_converts _ _ (callLowering_claims key) (by decide) fun lower n => ?_
  change (call lower n).Yields _
  unfold call
  split
  · exact .bind fun _ => .pure rfl
  · exact .fail _

namespace Pipeline

variable (config : Config)

/-- The rules of the core stage in order. -/
def coreRules : List (Rule ω δ) := [Rule.matchDesugaring, Rule.importResolution]

theorem entries_core :
    (defaultEngine config : Engine ω δ).entries Stage.coreIR = coreRules.map Entry.ofRule := by
  have other : Stage.codegen ≠ Stage.coreIR := by decide
  simp only [defaultEngine, Engine.entries_register, if_neg other, if_true]
  rfl

/-- The rules of any stage of the default engine; a stage of another name has none. -/
def rulesOf (stage : String) : List (Rule ω δ) :=
  if stage = Stage.coreIR then coreRules
  else if stage = Stage.codegen then codegenRules config else []

theorem rulesOf_codegen :
    (rulesOf config Stage.codegen : List (Rule ω δ)) = codegenRules config := by
  have other : Stage.codegen ≠ Stage.coreIR := by decide
  rw [rulesOf, if_neg other, if_pos rfl]

theorem entries_default (stage : String) :
    (defaultEngine config : Engine ω δ).entries stage =
      (rulesOf config stage).map Entry.ofRule := by
  unfold rulesOf
  split
  next h => rw [h, entries_core]
  next hcore =>
    split
    next h => rw [h, entries_codegen]
    next hcodegen =>
      simp only [defaultEngine, Engine.entries_register, if_neg (Ne.symm hcore),
        if_neg (Ne.symm hcodegen)]
      rfl

/-- Rules claim a node for its kind and without a look at the context. -/
theorem rulesOf_claimsKinds (stage : String) :
    ∀ r ∈ (rulesOf config stage : List (Rule ω δ)), ∃ kinds, r.ClaimsKinds kinds := by
  obtain ⟨hmatch, himport, hbinary, hregex⟩ := Rule.patterned_claims (ω := ω) (δ := δ) config
  unfold rulesOf
  split
  · simp only [coreRules, List.forall_mem_cons]
    exact ⟨⟨_, hmatch⟩, ⟨_, himport⟩, by simp⟩
  · split
    · simp only [codegenRules, List.forall_mem_cons]
      exact ⟨⟨_, Emitter.leafLowering_claims _⟩, ⟨_, Emitter.callLowering_claims _⟩,
        ⟨_, hbinary⟩, ⟨_, hregex⟩, by simp⟩
    · simp

/-- No two rules of a stage claim the same node. -/
theorem rulesOf_apart (stage : String) :
    (rulesOf config stage : List (Rule ω δ)).Pairwise Rule.Apart := by
  obtain ⟨hmatch, himport, hbinary, hregex⟩ := Rule.patterned_claims (ω := ω) (δ := δ) config
  have hleaf := Emitter.leafLowering_claims (ω := ω) (δ := δ) config.delegateKey
  have hcall := Emitter.callLowering_claims (ω := ω) (δ := δ) config.delegateKey
  unfold rulesOf
  split
  · simp only [coreRules, List.pairwise_cons, List.forall_mem_singleton]
    exact ⟨hmatch.apart himport (by decide), by simp⟩
  · split
    · simp only [codegenRules, List.pairwise_cons, List.forall_mem_cons]
      exact ⟨⟨hleaf.apart hcall (by decide), hleaf.apart hbinary (by decide),
          hleaf.apart hregex (by decide), by simp⟩,
        ⟨hcall.apart hbinary (by decide), hcall.apart hregex (by decide), by simp⟩,
        ⟨hbinary.apart hregex (by decide), by simp⟩, by simp⟩
    · exact .nil

/-- The rules of a stage take nodes of one family and make nodes of another. -/
theorem rulesOf_convert (stage : String) :
    ∃ given made, given ≠ made ∧
      ∀ r ∈ (rulesOf config stage : List (Rule ω δ)), r.Converts given made := by
  unfold rulesOf
  split
  · refine ⟨.source, .high, by decide, ?_⟩
    simp only [coreRules, List.forall_mem_cons]
    exact ⟨Rule.matchDesugaring_converts, Rule.importResolution_converts, by simp⟩
  · split
    · refine ⟨.high, .target, by decide, ?_⟩
      simp only [codegenRules, List.forall_mem_cons]
      exact ⟨Emitter.leafLowering_converts _, Emitter.callLowering_converts _,
        Rule.binaryLowering_converts, Rule.regexLowering_converts config, by simp⟩
    · exact ⟨.source, .high, by decide, by simp⟩

/-- What a rule makes of a node is claimed by no rule of its stage. -/
theorem rulesOf_decline_made {stage : String} {r r' : Rule ω δ} (hr : r ∈ rulesOf config stage)
    (hr' : r' ∈ rulesOf config stage) {n : Node} {c : Context ω δ} {s s' : Session ω} {o : Outcome}
    (done : r.apply n c s = .ok o s') (c' : Context ω δ) : r'.applies (o.node n) c' = false := by
  obtain ⟨given, made, differ, convert⟩ := rulesOf_convert (ω := ω) (δ := δ) config stage
  obtain ⟨n', rfl, hn'⟩ := (convert r hr).replaces n c s o s' done
  rw [← Bool.not_eq_true]
  intro claimed
  exact differ ((convert r' hr').claims n' c' claimed ▸ hn'.symm ▸ rfl)

theorem rulesOf_exclusive (stage : String) :
    Rule.Exclusive (rulesOf config stage : List (Rule ω δ)) where
  apart := rulesOf_apart config stage
  declineMade _ hr _ _ _ _ _ done _ hr' c' := rulesOf_decline_made config hr hr' done c'

section Engine

variable (stage : String) (n : Node) (c : Context ω δ) (s : Session ω)

theorem unclaimed_or_claimed :
    (∀ r ∈ (rulesOf config stage : List (Rule ω δ)), r.applies n c = false) ∨
      ∃ r ∈ (rulesOf config stage : List (Rule ω δ)), r.applies n c = true :=
  Rule.unclaimed_or_claimed _ n c

theorem apply_unclaimed
    (h : ∀ r ∈ (rulesOf config stage : List (Rule ω δ)), r.applies n c = false) :
    (defaultEngine config).apply stage n c s = .ok n s := by
  rw [Engine.apply_of_unclaimed (entries_default config stage) h, Act.pure_apply]

/-- A stage comes to what the rule that claims the node comes to, and counts that. -/
theorem apply_claimed {r : Rule ω δ} (hr : r ∈ rulesOf config stage) (h : r.applies n c = true) :
    (defaultEngine config).apply stage n c s =
      match r.apply n c s with
      | .ok o s' => .ok (o.node n)
          ((defaultEngine config : Engine ω δ).counted stage r.name (.ofOutcome (.ok o)) s')
      | .error f s' =>
        .error f ((defaultEngine config : Engine ω δ).counted stage r.name .failed s') := by
  rw [Engine.apply_of_claimed (entries_default config stage) hr h (rulesOf_exclusive config stage)]
  cases done : r.apply n c s with
  | ok o s' => exact Engine.applyEntry_claimed_ok _ stage c n s h done
  | error f s' => exact Engine.applyEntry_claimed_error _ stage c n s h done

theorem validate_unclaimed
    (h : ∀ r ∈ (rulesOf config stage : List (Rule ω δ)), r.applies n c = false) :
    (defaultEngine config).validate stage n c s = .ok () s := by
  rw [Engine.validate_of_unclaimed (entries_default config stage) h, Act.pure_apply]

theorem validate_claimed {r : Rule ω δ} (hr : r ∈ rulesOf config stage)
    (h : r.applies n c = true) :
    (defaultEngine config).validate stage n c s = Act.ofExcept (c.require r.requires) s := by
  rw [Engine.validate_of_claimed (entries_default config stage) hr h (rulesOf_apart config stage)]

end Engine

section CoreStage

variable {config : Config} {source : Source} {c : Context ω δ} {s : Session ω}

/-- A source node that no rule claims is left unlowered. -/
theorem intoHighIR_unclaimed
    (h : ∀ r ∈ (rulesOf config Stage.coreIR : List (Rule ω δ)),
      r.applies (.source source) c = false) :
    (unchecked config : Pipeline ω δ).intoHighIR source c s =
      .error (.lowering (.notLowered Stage.coreIR source.kind)) s :=
  (Act.bind_ok (validate_unclaimed config _ _ c s h)).trans
    (Act.bind_ok (apply_unclaimed config _ _ c s h))

variable {r : Rule ω δ} (hr : r ∈ rulesOf config Stage.coreIR)
  (claimed : r.applies (.source source) c = true)

include hr claimed

theorem intoHighIR_refused {e : LoweringError} (absent : c.require r.requires = .error e) :
    (unchecked config : Pipeline ω δ).intoHighIR source c s = .error (.lowering e) s := by
  have checked := validate_claimed config Stage.coreIR (.source source) c s hr claimed
  rw [absent] at checked
  exact Act.bind_error checked

variable (present : c.require r.requires = .ok ())

include present

/-- With its collaborators there, a source node comes to what the rule that claims it comes to. -/
theorem intoHighIR_ok {e : HighIR} {s' : Session ω}
    (done : r.apply (.source source) c s = .ok (.replaced (.high e)) s') :
    (unchecked config : Pipeline ω δ).intoHighIR source c s =
      .ok e ((defaultEngine config : Engine ω δ).counted Stage.coreIR r.name .replaced s') := by
  have checked := validate_claimed config Stage.coreIR (.source source) c s hr claimed
  have applied := apply_claimed config Stage.coreIR (.source source) c s hr claimed
  rw [present] at checked
  rw [done] at applied
  exact (Act.bind_ok checked).trans (Act.bind_ok applied)

theorem intoHighIR_error {f : Failure} {s' : Session ω}
    (failed : r.apply (.source source) c s = .error f s') :
    (unchecked config : Pipeline ω δ).intoHighIR source c s =
      .error f ((defaultEngine config : Engine ω δ).counted Stage.coreIR r.name .failed s') := by
  have checked := validate_claimed config Stage.coreIR (.source source) c s hr claimed
  have applied := apply_claimed config Stage.coreIR (.source source) c s hr claimed
  rw [present] at checked
  rw [failed] at applied
  exact (Act.bind_ok checked).trans (Act.bind_error applied)

end CoreStage

end Pipeline

end StagedLowering
