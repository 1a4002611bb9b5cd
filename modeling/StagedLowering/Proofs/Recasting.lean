import StagedLowering.Proofs.Absence
import StagedLowering.Proofs.Registrations
import StagedLowering.Proofs.Respect
import StagedLowering.Proofs.Tallies

/-!
Rules without a state of their own. An engine is recast when some of its rules, so far one for every
use, are made anew for each use instead, to the same effect. What the makers of rules keep for
themselves may come to differ, so two runs are compared up to a relation between worlds, and as a
rule may turn to collaborators that use the engine it belongs to, up to a relation between contexts.
Apart from its policies a recast engine cannot be told from the one it was.
-/
namespace StagedLowering

variable {ω δ α : Type}

/-- The sessions differ in their worlds at most, and these are related. -/
structure Session.Matches (W : ω → ω → Prop) (s t : Session ω) : Prop where
  tally : s.tally = t.tally
  depth : s.depth = t.depth
  world : W s.world t.world

section

variable (W : ω → ω → Prop) (C : Context ω δ → Context ω δ → Prop)

/-- The rules claim, require and do the same in related contexts, from related worlds on. -/
structure Rule.Alike (r r' : Rule ω δ) : Prop where
  requires : r.requires = r'.requires
  applies : ∀ {c c'}, C c c' → ∀ n, r.applies n c = r'.applies n c'
  apply : ∀ {c c'}, C c c' → ∀ n, (r.apply n c).Accords (Session.Matches W) (r'.apply n c')

/-- An entry that is left as it is, or one with a single rule that becomes one with a new rule for
each use. To make a rule leaves the worlds related, and so does leaving it. -/
inductive Entry.Recast : Entry ω δ → Entry ω δ → Prop
  | kept {entry : Entry ω δ}
      (h : ∀ {w w'}, W w w' →
        W (entry.draw w).2 (entry.draw w').2 ∧
          (entry.draw w).1.Alike W C (entry.draw w').1) :
      Recast entry entry
  | renewed {name : String} {r : Rule ω δ} {make : StateM ω (Rule ω δ)}
      (h : ∀ {w w'}, W w w' → W w (make w').2 ∧ r.Alike W C (make w').1) :
      Recast ⟨name, .shared r⟩ ⟨name, .fresh make⟩

/-- The engines have the same stages and counters, and their entries correspond one by one. -/
structure Engine.Recast (E E' : Engine ω δ) : Prop where
  collectStats : E.collectStats = E'.collectStats
  tally : E.tally = E'.tally
  stageNames : E.stageNames = E'.stageNames
  entries : ∀ stage, ∃ pairs : List (Entry ω δ × Entry ω δ),
    E.entries stage = pairs.map Prod.fst ∧ E'.entries stage = pairs.map Prod.snd ∧
      ∀ p ∈ pairs, p.1.Recast W C p.2

/-- Contexts, one for each engine, with the same collaborators present. -/
structure Context.Pair where
  left : Context ω δ
  right : Context ω δ
  related : C left right
  has : ∀ k, left.has k = right.has k

end

variable {W : ω → ω → Prop} {C : Context ω δ → Context ω δ → Prop}

namespace Entry.Recast

variable {entry entry' : Entry ω δ}

theorem name (h : entry.Recast W C entry') : entry.name = entry'.name := by
  cases h <;> rfl

theorem drawn (h : entry.Recast W C entry') {s t : Session ω} (hst : s.Matches W t) :
    (entry.drawn s).Matches W (entry'.drawn t) ∧
      (entry.draw s.world).1.Alike W C (entry'.draw t.world).1 := by
  have draws : W (entry.draw s.world).2 (entry'.draw t.world).2 ∧
      (entry.draw s.world).1.Alike W C (entry'.draw t.world).1 := by
    cases h with
    | kept h => exact h hst.world
    | renewed h => exact h hst.world
  exact ⟨⟨hst.tally, hst.depth, draws.1⟩, draws.2⟩

theorem requirements (h : entry.Recast W C entry') {c c' : Context ω δ} (hc : C c c') (n : Node) :
    (Engine.requirements n c entry).Accords (Session.Matches W)
      (Engine.requirements n c' entry') := by
  intro s t hst
  obtain ⟨after, alike⟩ := h.drawn hst
  rw [Engine.requirements, Engine.requirements, Act.bind_ok (entry.rule_apply s),
    Act.bind_ok (entry'.rule_apply t), alike.applies hc n, alike.requires]
  exact .ok _ after

/-- An entry and its recast take their turns alike. -/
theorem applyEntry (h : entry.Recast W C entry') {E E' : Engine ω δ}
    (counts : E.collectStats = E'.collectStats) (stage : String) {c c' : Context ω δ} (hc : C c c')
    (n : Node) :
    (E.applyEntry stage c n entry).Accords (Session.Matches W)
      (E'.applyEntry stage c' n entry') := by
  refine Engine.applyEntry_accords (fun s t hst => (h.drawn hst).2.applies hc n)
    (fun s t hst => (h.drawn hst).1) fun s t hst => ?_
  obtain ⟨after, alike⟩ := h.drawn hst
  obtain ⟨outcome, s', t', hs, ht, hst'⟩ := (alike.apply hc n).attempted after
  refine ⟨outcome, s', t', hs, ht, ?_, by simpa using hst'.depth, by simpa using hst'.world⟩
  simp only [Engine.counted, counts, h.name]
  split
  · exact congrArg (Tally.record · _ _ _) hst'.tally
  · exact hst'.tally

end Entry.Recast

namespace Engine

/-- What is asked of an engine, in contexts or pairs of contexts. -/
inductive Call (κ : Type) where
  | apply (stage : String) (n : Node) (c : κ)
  | applyAll (stages : List String) (n : Node) (c : κ)
  | validate (stage : String) (n : Node) (c : κ)
  | stats
  | resetStats

def Call.map {κ κ' : Type} (f : κ → κ') : Call κ → Call κ'
  | .apply stage n c => .apply stage n (f c)
  | .applyAll stages n c => .applyAll stages n (f c)
  | .validate stage n c => .validate stage n (f c)
  | .stats => .stats
  | .resetStats => .resetStats

inductive Answer where
  | node (result : Except Failure Node)
  | checked (result : Except Failure Unit)
  | rows (stats : List RuleStats)
  | done

/-- The answer to a call, with the engine and the world that it leaves. -/
def answer (E : Engine ω δ) (world : ω) : Call (Context ω δ) → Answer × Engine ω δ × ω
  | .apply stage n c => (E.during (E.apply stage n c) world).map .node id
  | .applyAll stages n c => (E.during (E.applyAll stages n c) world).map .node id
  | .validate stage n c => (E.during (E.validate stage n c) world).map .checked id
  | .stats => (.rows E.stats, E, world)
  | .resetStats => (.done, E.resetStats, world)

/-- The answers to calls one after the other. -/
def answers (E : Engine ω δ) (world : ω) :
    List (Call (Context ω δ)) → List Answer × Engine ω δ × ω
  | [] => ([], E, world)
  | call :: calls =>
    let first := E.answer world call
    (first.2.1.answers first.2.2 calls).map (first.1 :: ·) id

/-- The same answer, with engines that are recast and worlds that are related behind it. -/
structure SameAnswer (W : ω → ω → Prop) (C : Context ω δ → Context ω δ → Prop)
    (run run' : α × Engine ω δ × ω) : Prop where
  answer : run.1 = run'.1
  engine : run.2.1.Recast W C run'.2.1
  world : W run.2.2 run'.2.2

theorem SameAnswer.map {run run' : α × Engine ω δ × ω} (h : SameAnswer W C run run')
    {β : Type} (f : α → β) : SameAnswer W C (run.map f id) (run'.map f id) :=
  ⟨congrArg f h.answer, h.engine, h.world⟩

namespace Recast

variable {E E' : Engine ω δ} (h : E.Recast W C E')

include h

theorem withTally (tally : Tally) :
    Recast W C { E with tally := tally } { E' with tally := tally } :=
  ⟨h.collectStats, rfl, h.stageNames, h.entries⟩

theorem ruleNames (stage : String) : E.ruleNames stage = E'.ruleNames stage := by
  obtain ⟨pairs, left, right, recast⟩ := h.entries stage
  rw [Engine.ruleNames, Engine.ruleNames, left, right, List.map_map, List.map_map]
  exact List.map_congr_left fun p hp => (recast p hp).name

theorem register (stage : String) {entry entry' : Entry ω δ} (recast : entry.Recast W C entry') :
    (E.register stage entry).Recast W C (E'.register stage entry') where
  collectStats := h.collectStats
  tally := by
    change E.tally.enroll stage entry.name = E'.tally.enroll stage entry'.name
    rw [h.tally, recast.name]
  stageNames := by
    rw [stageNames_register, stageNames_register, h.stageNames]
  entries stage' := by
    obtain ⟨pairs, left, right, all⟩ := h.entries stage'
    rw [entries_register, entries_register, left, right]
    by_cases same : stage = stage'
    · refine ⟨pairs ++ [(entry, entry')], by simp [same], by simp [same], ?_⟩
      exact List.forall_mem_append.2 ⟨all, List.forall_mem_singleton.2 recast⟩
    · exact ⟨pairs, if_neg same, if_neg same, all⟩

/-- Engines stay recast as entries and their recasts are registered in the same places. -/
theorem registerAll (regs : List (String × Entry ω δ × Entry ω δ))
    (recast : ∀ r ∈ regs, r.2.1.Recast W C r.2.2) :
    (E.registerAll (regs.map fun r => (r.1, r.2.1))).Recast W C
      (E'.registerAll (regs.map fun r => (r.1, r.2.2))) := by
  induction regs generalizing E E' with
  | nil => exact h
  | cons r regs ih =>
    obtain ⟨first, rest⟩ := List.forall_mem_cons.1 recast
    exact ih (h.register r.1 first) rest

theorem apply (stage : String) (n : Node) {c c' : Context ω δ} (hc : C c c') :
    (E.apply stage n c).Accords (Session.Matches W) (E'.apply stage n c') := by
  -- Both folds are over the same list of pairs, each with its own side of them.
  obtain ⟨pairs, left, right, recast⟩ := h.entries stage
  rw [Engine.apply, Engine.apply, left, right, List.foldlM_map, List.foldlM_map]
  exact .foldlM pairs (fun p hp n => (recast p hp).applyEntry h.collectStats stage hc n) n

theorem applyAll (stages : List String) (n : Node) {c c' : Context ω δ} (hc : C c c') :
    (E.applyAll stages n c).Accords (Session.Matches W) (E'.applyAll stages n c') :=
  .foldlM stages (fun stage _ n => h.apply stage n hc) n

theorem validate (stage : String) (n : Node) {c c' : Context ω δ} (hc : C c c')
    (has : ∀ k, c.has k = c'.has k) :
    (E.validate stage n c).Accords (Session.Matches W) (E'.validate stage n c') := by
  obtain ⟨pairs, left, right, recast⟩ := h.entries stage
  have require (keys : List Key) : c.require keys = c'.require keys := by
    rw [Context.require, Context.require, Context.absent_congr fun k _ => has k]
  simp only [Engine.validate, left, right, List.mapM_map, require]
  exact .bind (.mapM pairs fun p hp => (recast p hp).requirements hc n) fun _ => .ofExcept _

/-- Actions in accord that are put to the engines come to the same. -/
theorem during {a b : Act ω α} (accord : a.Accords (Session.Matches W) b) {world world' : ω}
    (related : W world world') : SameAnswer W C (E.during a world) (E'.during b world') := by
  obtain ⟨outcome, s, t, left, right, hst⟩ :=
    during_accords E E' accord ⟨h.tally, rfl, related⟩
  rw [left, right, hst.tally]
  exact ⟨rfl, h.withTally t.tally, hst.world⟩

/-- One call is answered alike. -/
theorem answer {world world' : ω} (related : W world world') (call : Call (Context.Pair C)) :
    SameAnswer W C (E.answer world (call.map Context.Pair.left))
      (E'.answer world' (call.map Context.Pair.right)) := by
  cases call with
  | apply stage n c => exact (h.during (h.apply stage n c.related) related).map _
  | applyAll stages n c => exact (h.during (h.applyAll stages n c.related) related).map _
  | validate stage n c => exact (h.during (h.validate stage n c.related c.has) related).map _
  | stats => exact ⟨congrArg (fun tally : Tally => Answer.rows tally.rows) h.tally, h, related⟩
  | resetStats =>
    refine ⟨rfl, ?_, related⟩
    simp only [Call.map, Engine.answer, resetStats, h.tally]
    exact h.withTally _

/-- And so are any number of them. -/
theorem answers {world world' : ω} (related : W world world')
    (calls : List (Call (Context.Pair C))) :
    SameAnswer W C (E.answers world (calls.map (Call.map Context.Pair.left)))
      (E'.answers world' (calls.map (Call.map Context.Pair.right))) := by
  induction calls generalizing E E' world world' with
  | nil => exact ⟨rfl, h, related⟩
  | cons call calls ih =>
    obtain ⟨same, recast, related⟩ := h.answer related call
    simp only [List.map_cons, Engine.answers, same]
    exact (ih recast related).map _

end Recast

theorem Recast.new (counts : Bool) :
    Recast W C { collectStats := counts } { collectStats := counts } :=
  ⟨rfl, rfl, rfl, fun _ => ⟨[], rfl, rfl, nofun⟩⟩

/-- Whether a rule is shared or made for each use does not show. Let one engine be recast to the
other, in worlds that differ in what makers of rules keep for themselves at most. Whatever is called
and in whatever contexts, also those with collaborators that use the engine themselves, the answers
are the same, results and failures and statistics; the worlds stay related, with all notes that
collaborators take of being called; and what the engines list is the same but for the policies. If
making a rule does nothing else both relations can be equality, and then nothing is asked of the
other rules and of the contexts. -/
theorem policies_unobservable {E E' : Engine ω δ} (recast : E.Recast W C E') {world world' : ω}
    (related : W world world') (calls : List (Call (Context.Pair C))) :
    let run := E.answers world (calls.map (Call.map Context.Pair.left))
    let run' := E'.answers world' (calls.map (Call.map Context.Pair.right))
    run.1 = run'.1 ∧ W run.2.2 run'.2.2 ∧ run.2.1.stats = run'.2.1.stats ∧
      run.2.1.stageNames = run'.2.1.stageNames ∧
      ∀ stage, run.2.1.statsOf stage = run'.2.1.statsOf stage ∧
        run.2.1.ruleNames stage = run'.2.1.ruleNames stage ∧
        run.2.1.ruleCount stage = run'.2.1.ruleCount stage := by
  intro run run'
  have same := recast.answers related calls
  refine ⟨same.answer, same.world, congrArg Tally.rows same.engine.tally, same.engine.stageNames,
    fun stage => ⟨congrArg (Tally.stageRows · stage) same.engine.tally, ?_, ?_⟩⟩
  · exact same.engine.ruleNames stage
  · simpa [ruleNames, ruleCount] using congrArg List.length (same.engine.ruleNames stage)

end Engine

/-! ### Makers that keep nothing -/

/-- The rules claim, require and do the same. -/
structure Rule.Same (r r' : Rule ω δ) : Prop where
  requires : r.requires = r'.requires
  applies : r.applies = r'.applies
  apply : r.apply = r'.apply

theorem Act.accords_self (a : Act ω α) : a.Accords (Session.Matches Eq) a := by
  rintro ⟨tally, depth, world⟩ ⟨_, _, _⟩ ⟨⟨⟩, ⟨⟩, ⟨⟩⟩
  cases a ⟨tally, depth, world⟩ with
  | ok x s => exact .ok x ⟨rfl, rfl, rfl⟩
  | error f s => exact .error f ⟨rfl, rfl, rfl⟩

theorem Rule.Same.alike {r r' : Rule ω δ} (h : r.Same r') : r.Alike Eq Eq r' where
  requires := h.requires
  applies := by
    rintro c _ rfl n
    rw [h.applies]
  apply := by
    rintro c _ rfl n
    rw [h.apply]
    exact Act.accords_self _

/-- The entry with its rule made anew for each use, if it has a single rule and is given a maker. -/
def Entry.renewed (entry : Entry ω δ) (make? : Option (StateM ω (Rule ω δ))) : Entry ω δ :=
  match entry.supply, make? with
  | .shared _, some make => ⟨entry.name, .fresh make⟩
  | _, _ => entry

theorem Entry.recast_renewed {entry : Entry ω δ} {make? : Option (StateM ω (Rule ω δ))}
    (same : ∀ r make, entry.supply = .shared r → make? = some make →
      ∀ w, (make w).2 = w ∧ r.Same (make w).1) :
    entry.Recast Eq Eq (entry.renewed make?) := by
  have kept : entry.Recast Eq Eq entry := by
    refine .kept fun {w w'} related => ?_
    subst related
    exact ⟨rfl, Rule.Same.alike ⟨rfl, rfl, rfl⟩⟩
  obtain ⟨name, supply⟩ := entry
  cases supply with
  | fresh make => exact kept
  | shared r =>
    cases make? with
    | none => exact kept
    | some make =>
      refine .renewed fun {w w'} related => ?_
      subst related
      obtain ⟨still, alike⟩ := same r make rfl rfl w
      exact ⟨still.symm, alike.alike⟩

namespace Engine

/-- The engine with some of its single rules, chosen by stage and position, made anew for each use.
-/
def renewed (E : Engine ω δ) (choose : String → Nat → Option (StateM ω (Rule ω δ))) : Engine ω δ :=
  { E with
    stages := E.stages.mapValues fun stage entries =>
      entries.mapIdx fun i entry => entry.renewed (choose stage i) }

theorem entries_renewed (E : Engine ω δ) (choose : String → Nat → Option (StateM ω (Rule ω δ)))
    (stage : String) : (E.renewed choose).entries stage =
      (E.entries stage).mapIdx fun i entry => entry.renewed (choose stage i) := by
  unfold entries renewed
  rw [OrderedMap.get?_mapValues]
  cases E.stages.get? stage <;> rfl

section

variable {E : Engine ω δ} {choose : String → Nat → Option (StateM ω (Rule ω δ))}
  (same : ∀ stage i name r make, (E.entries stage)[i]? = some ⟨name, .shared r⟩ →
    choose stage i = some make → ∀ w, (make w).2 = w ∧ r.Same (make w).1)

include same

theorem recast_renewed : E.Recast Eq Eq (E.renewed choose) where
  collectStats := rfl
  tally := rfl
  stageNames := (OrderedMap.keys_mapValues ..).symm
  entries stage := by
    refine ⟨(E.entries stage).mapIdx fun i entry => (entry, entry.renewed (choose stage i)), ?_, ?_,
      fun p hp => ?_⟩
    · exact List.ext_getElem? fun i => by simp [Function.comp_def]
    · rw [entries_renewed]
      exact List.ext_getElem? fun i => by simp [Function.comp_def]
    · obtain ⟨i, hi, rfl⟩ := List.mem_mapIdx.1 hp
      refine Entry.recast_renewed fun r make shared chosen => ?_
      refine same stage i (E.entries stage)[i].name r make ?_ chosen
      rw [List.getElem?_eq_getElem hi, ← shared]

/-- To make some rules anew, where making does nothing else, changes no answer and no world. -/
theorem answers_renewed (world : ω) (calls : List (Call (Context ω δ))) :
    ((E.renewed choose).answers world calls).1 = (E.answers world calls).1 ∧
      ((E.renewed choose).answers world calls).2.2 = (E.answers world calls).2.2 := by
  let twice (c : Context ω δ) : Context.Pair (ω := ω) (δ := δ) Eq := ⟨c, c, rfl, fun _ => rfl⟩
  have plain (side : Context.Pair (ω := ω) (δ := δ) Eq → Context ω δ)
      (h : ∀ c, side (twice c) = c) :
      (calls.map (Call.map twice)).map (Call.map side) = calls := by
    rw [List.map_map]
    refine List.map_id'' (fun call => ?_) calls
    cases call <;> simp [Call.map, h]
  obtain ⟨answers, -, worlds⟩ :=
    (recast_renewed same).answers (rfl : world = world) (calls.map (Call.map twice))
  rw [plain _ fun _ => rfl, plain _ fun _ => rfl] at answers worlds
  exact ⟨answers.symm, worlds.symm⟩

end

end Engine

/-! ### Engines that are used from inside -/

namespace Emitter

variable (config : Config)

/-- Contexts of emitters that lower in accord. -/
inductive Contexts (R : Session ω → Session ω → Prop) : Context ω δ → Context ω δ → Prop
  | of {E E' : Engine ω δ} {lower lower' : HighIR → Act ω Target}
      (h : ∀ e, (lower e).Accords R (lower' e)) :
      Contexts R ((ofConfig E config).context lower) ((ofConfig E' config).context lower')

theorem Contexts.has {R : Session ω → Session ω → Prop} {c c' : Context ω δ}
    (h : Contexts config R c c') (k : Key) : c.has k = c'.has k := by
  cases h
  cases k <;> rfl

theorem codegenRules_accord {R : Session ω → Session ω → Prop} {E E' : Engine ω δ}
    {lower lower' : HighIR → Act ω Target} (h : ∀ e, (lower e).Accords R (lower' e)) (n : Node) :
    ∀ r ∈ Pipeline.codegenRules config, (r.apply n ((ofConfig E config).context lower)).Accords R
      (r.apply n ((ofConfig E' config).context lower')) := by
  have delegated (d : Delegation ω δ (HighIR → Act ω Target)) (name : String)
      (htype : d.type = delegateType) (hkey : d.key = config.delegateKey)
      (method : (d.method lower n).Accords R (d.method lower' n)) :
      ((d.rule name).apply n ((ofConfig E config).context lower)).Accords R
        ((d.rule name).apply n ((ofConfig E' config).context lower')) := by
    rw [Pipeline.delegation_apply (ofConfig E config) lower d htype hkey,
      Pipeline.delegation_apply (ofConfig E' config) lower' d htype hkey]
    exact .bind method fun _ => .pure _
  simp only [Pipeline.codegenRules, List.forall_mem_cons]
  refine ⟨delegated _ _ rfl rfl (leaf_accords R n), delegated _ _ rfl rfl (call_accords R h n),
    ?_, ?_, by simp⟩
  · simp only [Rule.binaryLowering, context_lowerer, Act.ofExcept, pure_bind]
    split
    · exact .bind (h _) fun _ => .bind (h _) fun _ => .pure _
    · exact .fail _
  · simp only [Rule.regexLowering]
    split
    · exact .pure _
    · exact .fail _

/-- The codegen rules have no state of their own. -/
theorem codegenRules_alike : ∀ r ∈ (Pipeline.codegenRules config : List (Rule ω δ)),
    r.Alike W (Contexts config (Session.Matches W)) r := by
  intro r hr
  obtain ⟨kinds, claims⟩ := Pipeline.rulesOf_claimsKinds config Stage.codegen r
    (by rwa [Pipeline.rulesOf_codegen])
  refine ⟨rfl, fun _ n => (claims n _).trans (claims n _).symm, ?_⟩
  rintro _ _ ⟨h⟩ n
  exact codegenRules_accord config h n r hr

/-- An emitter over a recast engine lowers in accord with the one over the engine it was. -/
theorem lowerWithin_recast {E E' : Engine ω δ}
    (h : E.Recast W (Contexts config (Session.Matches W)) E') (levels : Nat) (e : HighIR) :
    ((ofConfig E config).lowerWithin levels e).Accords (Session.Matches W)
      ((ofConfig E' config).lowerWithin levels e) := by
  have limit : (ofConfig E config).maxDepth = (ofConfig E' config).maxDepth := rfl
  refine lowerWithin_accords limit (fun _ _ hst => hst.depth)
    (fun _ _ hst _ => ⟨hst.tally, rfl, hst.world⟩) (fun levels ih n => ?_) levels e
  -- The rules are handed the emitters one level down, which are in accord already.
  have hc : Contexts config (Session.Matches W) ((ofConfig E config).context _)
    ((ofConfig E' config).context _) := .of ih
  exact ⟨h.validate Stage.codegen n hc hc.has, h.apply Stage.codegen n hc⟩

end Emitter

namespace Engine

/-- The codegen stage on `1 + 2`, where the operator rule has the emitter lower the operands, and
the emitter comes back to the engine. In one engine the rules for leaves and for operators are made
anew each time, which is counted in the world; the lowerings asked for are noted there as well. -/
theorem policies_unobservable_sum :
    let config : Config := {}
    let leaves : Rule (List String × Nat) Unit := Emitter.leafLowering config.delegateKey
    let operators : Rule (List String × Nat) Unit := Rule.binaryLowering
    let made (r : Rule (List String × Nat) Unit) : Entry (List String × Nat) Unit :=
      .ofFactory r.name fun world => (r, world.1, world.2 + 1)
    let E : Engine (List String × Nat) Unit := ofRegistrations true
      [(Stage.codegen, .ofRule leaves), (Stage.codegen, .ofRule operators)]
    let E' : Engine (List String × Nat) Unit := ofRegistrations true
      [(Stage.codegen, made leaves), (Stage.codegen, made operators)]
    let sum : HighIR := .binary (.literal (.int 1)) "+" (.literal (.int 2)) .int
    let noting (E : Engine (List String × Nat) Unit) (e : HighIR) : Act _ Target := do
      Act.onWorld (modify fun world => (world.1 ++ ["lower"], world.2))
      (Emitter.ofConfig E config).lower e
    let calls (E : Engine (List String × Nat) Unit) : List (Call (Context _ Unit)) :=
      let c := (Emitter.ofConfig E config).context (noting E)
      [.validate Stage.codegen (.high sum) c, .apply Stage.codegen (.high sum) c, .stats]
    let run := E.answers ([], 0) (calls E)
    let run' := E'.answers ([], 0) (calls E')
    E.policies Stage.codegen = [true, true] ∧ E'.policies Stage.codegen = [false, false] ∧
      run.1 = run'.1 ∧ run.2.2 = (["lower", "lower"], 0) ∧
      run'.2.2.1 = ["lower", "lower"] ∧ 0 < run'.2.2.2 := by
  intro config leaves operators made E E' sum noting calls run run'
  have left : run.2.2 = (["lower", "lower"], 0) := by decide +kernel
  have right : 0 < run'.2.2.2 := by decide +kernel
  have policies : E.policies Stage.codegen = [true, true] := rfl
  have policies' : E'.policies Stage.codegen = [false, false] := rfl
  let W (world world' : List String × Nat) : Prop := world.1 = world'.1
  have recast : E.Recast W (Emitter.Contexts config (Session.Matches W)) E' := by
    have alike := Emitter.codegenRules_alike (ω := List String × Nat) (δ := Unit) (W := W) config
    refine (Recast.new true).registerAll [(Stage.codegen, .ofRule leaves, made leaves),
      (Stage.codegen, .ofRule operators, made operators)]
      (List.forall_mem_cons.2 ⟨?_, List.forall_mem_singleton.2 ?_⟩)
    · exact .renewed fun related => ⟨related, alike leaves (.head _)⟩
    · exact .renewed fun related => ⟨related, alike operators (.tail _ (.tail _ (.head _)))⟩
  -- All that is needed of the engines is that one is recast to the other.
  clear_value E E'
  have noted (e : HighIR) : (noting E e).Accords (Session.Matches W) (noting E' e) := by
    refine .bind (fun s t hst => .ok () ⟨hst.tally, hst.depth, ?_⟩) fun _ =>
      Emitter.lowerWithin_recast config recast _ e
    exact congrArg (· ++ ["lower"]) hst.world
  have related : Emitter.Contexts config (Session.Matches W)
      ((Emitter.ofConfig E config).context (noting E))
      ((Emitter.ofConfig E' config).context (noting E')) := .of noted
  let c : Context.Pair (Emitter.Contexts config (Session.Matches W)) := ⟨_, _, related, related.has⟩
  have start : W ([], 0) ([], 0) := rfl
  obtain ⟨same, ended, -⟩ := policies_unobservable recast start
    [.validate Stage.codegen (.high sum) c, .apply Stage.codegen (.high sum) c, .stats]
  have notes : run.2.2.1 = run'.2.2.1 := ended
  rw [left] at notes
  exact ⟨policies, policies', same, left, notes.symm, right⟩

end Engine

end StagedLowering
