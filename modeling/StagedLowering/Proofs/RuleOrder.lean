import StagedLowering.Proofs.Composition
import StagedLowering.Proofs.Respect

/-!
The default stages settle a node in one step, and the order of their rules does not matter. At most
one rule of a stage is applied, and no rule claims what it made; so the same rules in another order
do the same, also where an emitter runs them over and over. Only the rows of the counters stand in
another order then, which is no matter to collaborators that do not look at it.
-/
namespace StagedLowering

variable {ω δ α : Type}

namespace Tally

/-- The same rows, in whatever order. -/
def Agrees (t t' : Tally) : Prop := ∀ key, t.get? key = t'.get? key

theorem Agrees.record {t t' : Tally} (h : t.Agrees t') (stage rule : String) (v : Verdict) :
    (t.record stage rule v).Agrees (t'.record stage rule v) := by
  intro key
  rw [Tally.record, Tally.record, OrderedMap.get?_modify, OrderedMap.get?_modify, h, h]

theorem rows_eq (t : Tally) : t.rows = t.keys.map fun key => (t.get? key).getD default := by
  have found (key : String × String) (hkey : key ∈ t.keys) :
      t.get? key = some ((t.get? key).getD default) := by
    obtain ⟨row, hrow⟩ := Option.isSome_iff_exists.1 ((t.isSome_get? key).2 hkey)
    rw [hrow, Option.getD_some]
  rw [rows, OrderedMap.values, t.entries_eq_map found, List.map_map]
  rfl

theorem Agrees.rows_perm {t t' : Tally} (h : t.Agrees t') : t.rows.Perm t'.rows := by
  have keys : t.keys.Perm t'.keys := by
    refine (List.perm_ext_iff_of_nodup t.nodup t'.nodup).2 fun key => ?_
    rw [← OrderedMap.keys, ← OrderedMap.keys, ← t.isSome_get?, ← t'.isSome_get?, h]
  have values : (fun key => (t.get? key).getD default) = fun key => (t'.get? key).getD default :=
    funext fun key => by rw [h]
  rw [rows_eq, rows_eq, values]
  exact keys.map _

/-- Which rows registrations enrol does not turn on their order. -/
theorem get?_registerAll (E : Engine ω δ) (regs : List (Registration ω δ)) (key : String × String) :
    (E.registerAll regs).tally.get? key =
      (E.tally.get? key).or
        (if key ∈ regs.map fun r => (r.1, r.2.name) then some (blank key.1 key.2) else none) := by
  induction regs generalizing E with
  | nil => simp
  | cons r regs ih =>
    rw [Engine.registerAll_cons, ih, Engine.register, enroll, OrderedMap.get?_ensure,
      Option.or_assoc]
    simp only [List.map_cons, List.mem_cons]
    by_cases h : (r.1, r.2.name) = key
    · subst h
      simp
    · have other : ¬ key = (r.1, r.2.name) := fun same => h same.symm
      rw [if_neg h, Option.none_or]
      simp only [other, false_or]

end Tally

/-- The sessions differ in the order of their counters at most. -/
structure Session.SameRows (s t : Session ω) : Prop where
  rows : s.tally.Agrees t.tally
  depth : s.depth = t.depth
  world : s.world = t.world

theorem Session.SameRows.counted {s t : Session ω} (h : s.SameRows t) (E : Engine ω δ)
    (stage rule : String) (v : Verdict) :
    (E.counted stage rule v s).SameRows (E.counted stage rule v t) := by
  unfold Engine.counted
  split
  · exact ⟨h.rows.record stage rule v, h.depth, h.world⟩
  · exact h

/-! ### Exclusive rules in any order -/

theorem Rule.Exclusive.perm {rules rules' : List (Rule ω δ)} (h : rules.Perm rules')
    (exclusive : Exclusive rules) : Exclusive rules' where
  apart := (h.pairwise_iff Apart.symm).1 exclusive.apart
  declineMade r hr n c s o s' done r' hr' :=
    exclusive.declineMade r (h.mem_iff.2 hr) n c s o s' done r' (h.mem_iff.2 hr')

theorem Rule.Exclusive.tail {r : Rule ω δ} {rules : List (Rule ω δ)}
    (exclusive : Exclusive (r :: rules)) : Exclusive rules where
  apart := (List.pairwise_cons.1 exclusive.apart).2
  declineMade r hr n c s o s' done r' hr' :=
    exclusive.declineMade r (List.mem_cons_of_mem _ hr) n c s o s' done r'
      (List.mem_cons_of_mem _ hr')

namespace Walk

variable {c : Context ω δ} {rules : List (Rule ω δ)} {n : Node} {seen : List Sight}
  {result : Except Failure Node}

theorem none_applied (h : ∀ r ∈ rules, r.applies n c = false)
    (walk : Walk c (rules.map Entry.ofRule) n seen result) : seen.countP Sight.isApplied = 0 := by
  induction rules generalizing seen with
  | nil =>
    cases walk
    rfl
  | cons r rules ih =>
    obtain ⟨first, rest⟩ := List.forall_mem_cons.1 h
    cases walk with
    | declined _ walk => simpa [Sight.isApplied] using ih rest walk
    | applied claimed _ _ => exact absurd (claimed.symm.trans first) (by simp)
    | failed claimed _ => exact absurd (claimed.symm.trans first) (by simp)

/-- Exclusive rules are applied once at most: the first that claims the node is the last to claim
anything. -/
theorem applied_le_one (exclusive : Rule.Exclusive rules)
    (walk : Walk c (rules.map Entry.ofRule) n seen result) :
    seen.countP Sight.isApplied ≤ 1 := by
  induction rules generalizing seen with
  | nil =>
    cases walk
    exact Nat.zero_le 1
  | cons r rules ih =>
    cases walk with
    | declined _ walk => simpa [Sight.isApplied] using ih exclusive.tail walk
    | applied _ done walk =>
      have declined : ∀ r' ∈ rules, r'.applies _ c = false := fun r' hr' =>
        exclusive.declineMade r List.mem_cons_self _ _ _ _ _ done r' (List.mem_cons_of_mem _ hr') c
      refine Nat.le_of_eq ?_
      rw [List.countP_cons_of_neg (by simp [Sight.isApplied]), List.countP_cons_of_pos rfl,
        walk.none_applied declined]
    | failed _ _ => simp [Sight.isApplied]

end Walk

namespace Engine

variable {E E' : Engine ω δ} {stage : String} {rules rules' : List (Rule ω δ)}

section

variable (hentries : E.entries stage = rules.map Entry.ofRule) (exclusive : Rule.Exclusive rules)
  (n : Node) (c : Context ω δ)

include hentries exclusive

/-- The one rule of a stage that is applied, under observation and counted. -/
theorem applied_le_one (s : Session ω) :
    ∃ (seen : List Sight) (result : Except Failure Node) (s' : Session ω),
      (E.observed c).apply stage n {} (s.observing []) = Act.resume result (s'.observing seen) ∧
      SameEnd Session.Alike (E.apply stage n c s) (Act.resume result s') ∧
      seen.countP Sight.isApplied ≤ 1 := by
  obtain ⟨seen, result, s', walk, shown, run⟩ := observed_walk (O := E.observed c) rfl stage c {} n
    s [] (E := E.silenced) rfl stage (E.entries stage)
  rw [← entries_observed] at shown
  rw [hentries] at walk
  refine ⟨seen, result, s', shown, ?_, walk.applied_le_one exclusive⟩
  change E.silenced.apply stage n c s = _ at run
  rw [← run]
  have quiet : E.silenced.entries stage = rules.map Entry.ofRule := hentries
  rcases Rule.unclaimed_or_claimed rules n c with unclaimed | ⟨r, hr, claimed⟩
  · rw [apply_of_unclaimed hentries unclaimed, apply_of_unclaimed quiet unclaimed]
    exact .ok n ⟨rfl, rfl⟩
  · rw [apply_of_claimed hentries hr claimed exclusive, apply_of_claimed quiet hr claimed exclusive]
    cases done : r.apply n c s with
    | ok o s₁ =>
      rw [applyEntry_claimed_ok _ stage c n s claimed done,
        applyEntry_claimed_ok _ stage c n s claimed done]
      exact .ok _ ⟨by simp, by simp⟩
    | error f s₁ =>
      rw [applyEntry_claimed_error _ stage c n s claimed done,
        applyEntry_claimed_error _ stage c n s claimed done]
      exact .error _ ⟨by simp, by simp⟩

/-- What a stage has made of a node no rule of it claims, in whatever context. -/
theorem settled {s s' : Session ω} {n' : Node} (fixed : ∀ r ∈ rules, ∀ n c c',
      r.applies n c = r.applies n c')
    (done : E.apply stage n c s = .ok n' s') : ∀ r ∈ rules, ∀ c', r.applies n' c' = false := by
  rcases Rule.unclaimed_or_claimed rules n c with unclaimed | ⟨r, hr, claimed⟩
  · rw [apply_of_unclaimed hentries unclaimed] at done
    cases done
    intro r hr c'
    rw [fixed r hr n c' c, unclaimed r hr]
  · rw [apply_of_claimed hentries hr claimed exclusive] at done
    cases ended : r.apply n c s with
    | ok o s₁ =>
      rw [applyEntry_claimed_ok _ stage c n s claimed ended] at done
      cases done
      exact exclusive.declineMade r hr n c s o s₁ ended
    | error f s₁ =>
      rw [applyEntry_claimed_error _ stage c n s claimed ended] at done
      cases done

/-- A stage takes sessions with the same rows to sessions with the same rows. -/
theorem apply_sameRows (respect : ∀ r ∈ rules, r.Respects Session.SameRows)
    (hc : c.Respects Session.SameRows) :
    (E.apply stage n c).Accords Session.SameRows (E.apply stage n c) := by
  rcases Rule.unclaimed_or_claimed rules n c with unclaimed | ⟨r, hr, claimed⟩
  · rw [apply_of_unclaimed hentries unclaimed]
    exact .pure n
  · rw [apply_of_claimed hentries hr claimed exclusive]
    refine applyEntry_accords (fun _ _ _ => rfl) (fun _ _ h => h) fun s t h => ?_
    obtain ⟨outcome, s', t', hs, ht, h'⟩ := (respect r hr n c hc).attempted h
    exact ⟨outcome, s', t', hs, ht, h'.counted E stage r.name _⟩

theorem validate_sameRows :
    (E.validate stage n c).Accords Session.SameRows (E.validate stage n c) := by
  rcases Rule.unclaimed_or_claimed rules n c with unclaimed | ⟨r, hr, claimed⟩
  · rw [validate_of_unclaimed hentries unclaimed]
    exact .pure ()
  · rw [validate_of_claimed hentries hr claimed exclusive.apart]
    exact .ofExcept _

variable (hentries' : E'.entries stage = rules'.map Entry.ofRule) (perm : rules'.Perm rules)

include hentries' perm

theorem apply_perm (counts : E'.collectStats = E.collectStats) :
    E'.apply stage n c = E.apply stage n c := by
  rcases Rule.unclaimed_or_claimed rules n c with unclaimed | ⟨r, hr, claimed⟩
  · have unclaimed' : ∀ r ∈ rules', r.applies n c = false := fun r hr =>
      unclaimed r (perm.mem_iff.1 hr)
    rw [apply_of_unclaimed hentries unclaimed, apply_of_unclaimed hentries' unclaimed']
  · rw [apply_of_claimed hentries hr claimed exclusive,
      apply_of_claimed hentries' (perm.mem_iff.2 hr) claimed (exclusive.perm perm.symm),
      applyEntry_congr counts]

theorem validate_perm : E'.validate stage n c = E.validate stage n c := by
  rcases Rule.unclaimed_or_claimed rules n c with unclaimed | ⟨r, hr, claimed⟩
  · have unclaimed' : ∀ r ∈ rules', r.applies n c = false := fun r hr =>
      unclaimed r (perm.mem_iff.1 hr)
    rw [validate_of_unclaimed hentries unclaimed, validate_of_unclaimed hentries' unclaimed']
  · rw [validate_of_claimed hentries hr claimed exclusive.apart,
      validate_of_claimed hentries' (perm.mem_iff.2 hr) claimed (exclusive.perm perm.symm).apart]

end

end Engine

namespace Emitter

/-- An emitter sees of its engine what the codegen stage does. -/
theorem lowerWithin_congr (m m' : Emitter ω δ) (key : m'.delegateKey = m.delegateKey)
    (depth : m'.maxDepth = m.maxDepth)
    (apply : ∀ n c, m'.engine.apply Stage.codegen n c = m.engine.apply Stage.codegen n c)
    (validate : ∀ n c, m'.engine.validate Stage.codegen n c = m.engine.validate Stage.codegen n c)
    (levels : Nat) : m'.lowerWithin levels = m.lowerWithin levels := by
  induction levels with
  | zero =>
    funext e
    rw [lowerWithin, lowerWithin, depth]
  | succ levels ih =>
    funext e
    have same : m'.context (m'.lowerWithin levels) = m.context (m.lowerWithin levels) := by
      rw [ih, context, context, key]
    simp only [lowerWithin, depth, same, apply, validate]

theorem lowerWithin_sameRows {m : Emitter ω δ} {rules : List (Rule ω δ)}
    (hentries : m.engine.entries Stage.codegen = rules.map Entry.ofRule)
    (exclusive : Rule.Exclusive rules) (respect : ∀ r ∈ rules, r.Respects Session.SameRows)
    (levels : Nat) (e : HighIR) :
    (m.lowerWithin levels e).Accords Session.SameRows (m.lowerWithin levels e) := by
  refine lowerWithin_accords rfl (fun _ _ h => h.depth) (fun _ _ h _ => ⟨h.rows, rfl, h.world⟩)
    (fun levels ih n => ⟨Engine.validate_sameRows hentries exclusive _ _, ?_⟩) levels e
  exact Engine.apply_sameRows hentries exclusive _ _ respect (context_respects _ m ih)

end Emitter

/-- The same outcome and world, and the same counters for every rule. -/
structure SameRun (x y : Except Failure α × Engine ω δ × ω) : Prop where
  outcome : x.1 = y.1
  world : x.2.2 = y.2.2
  counters : x.2.1.tally.Agrees y.2.1.tally
  stats : x.2.1.stats.Perm y.2.1.stats

theorem Engine.during_sameRun {E E' : Engine ω δ} {a b : Act ω α}
    (h : a.Accords Session.SameRows b) (agrees : E.tally.Agrees E'.tally) (world : ω) :
    SameRun (E.during a world) (E'.during b world) := by
  have start : Session.SameRows ⟨E.tally, 0, world⟩ ⟨E'.tally, 0, world⟩ := ⟨agrees, rfl, rfl⟩
  obtain ⟨outcome, s, t, hs, ht, h'⟩ := during_accords E E' h start
  rw [hs, ht]
  exact ⟨rfl, h'.world, h'.rows, h'.rows.rows_perm⟩

namespace Pipeline

variable (config : Config)

/-- The default rules, each with its stage. -/
def placements : List (String × Rule ω δ) :=
  coreRules.map (Stage.coreIR, ·) ++ (codegenRules config).map (Stage.codegen, ·)

/-- The engine that has rules registered in this order. -/
def engineOf (placed : List (String × Rule ω δ)) : Engine ω δ :=
  .ofRegistrations config.collectStats (placed.map fun p => (p.1, .ofRule p.2))

theorem engineOf_placements :
    (engineOf config (placements config) : Engine ω δ) = defaultEngine config := rfl

theorem entries_engineOf (placed : List (String × Rule ω δ)) (stage : String) :
    (engineOf config placed).entries stage =
      ((placed.filter (·.1 = stage)).map Prod.snd).map Entry.ofRule := by
  rw [engineOf, Engine.entries_ofRegistrations, registeredFor, List.filter_map, List.map_map,
    List.map_map]
  rfl

theorem placements_rulesOf (stage : String) :
    ((placements config : List (String × Rule ω δ)).filter (·.1 = stage)).map Prod.snd =
      rulesOf config stage := by
  unfold rulesOf
  split
  next h =>
    rw [h]
    rfl
  next hcore =>
    split
    next h =>
      rw [h]
      rfl
    next hcodegen => simp [placements, Ne.symm hcore, Ne.symm hcodegen]

section Permuted

variable {config : Config} {placed : List (String × Rule ω δ)}
  (perm : placed.Perm (placements config))

include perm

theorem placed_perm (stage : String) :
    ((placed.filter (·.1 = stage)).map Prod.snd).Perm (rulesOf config stage) := by
  rw [← placements_rulesOf]
  exact (perm.filter _).map _

theorem tally_engineOf :
    (engineOf config placed).tally.Agrees (defaultEngine config : Engine ω δ).tally := by
  intro key
  have names := (perm.map fun p => (p.1, p.2.name)).mem_iff (a := key)
  rw [← engineOf_placements, engineOf, engineOf, Engine.ofRegistrations, Engine.ofRegistrations,
    Tally.get?_registerAll, Tally.get?_registerAll, List.map_map, List.map_map]
  congr 2
  exact propext names

end Permuted

/-- The default rules, registered in any order. A stage applies at most one rule, and settles what
it is given: no rule claims what it came to, and it does nothing to that. It is the same action in
whatever order its rules stand, and so is lowering by an emitter; the counters that come of either
are the same, too, if the collaborators do not tell sessions apart by the order of counters. -/
theorem stages_settle_in_any_order (config : Config) (placed : List (String × Rule ω δ))
    (perm : placed.Perm (placements config)) :
    let E : Engine ω δ := defaultEngine config
    let E' : Engine ω δ := engineOf config placed
    E'.tally.Agrees E.tally ∧
    (∀ stage n c,
      (∀ s, ∃ (seen : List Sight) (result : Except Failure Node) (s' : Session ω),
        (E'.observed c).apply stage n {} (s.observing []) = Act.resume result (s'.observing seen) ∧
        SameEnd Session.Alike (E'.apply stage n c s) (Act.resume result s') ∧
        seen.countP Sight.isApplied ≤ 1) ∧
      (∀ s n' s', E'.apply stage n c s = .ok n' s' →
        (∀ entry ∈ E'.entries stage, ∀ world c', (entry.draw world).1.applies n' c' = false) ∧
        ∀ c' t, E'.apply stage n' c' t = .ok n' t) ∧
      E'.apply stage n c = E.apply stage n c ∧ E'.validate stage n c = E.validate stage n c ∧
      (c.Respects Session.SameRows → ∀ (t t' : Tally) world, t'.Agrees t →
        SameRun ({ E' with tally := t' }.during (E'.apply stage n c) world)
          ({ E with tally := t }.during (E.apply stage n c) world))) ∧
    ∀ e,
      (Emitter.ofConfig E' config).lower e = (Emitter.ofConfig E config).lower e ∧
      ∀ (t t' : Tally) world, t'.Agrees t →
        SameRun ({ E' with tally := t' }.during ((Emitter.ofConfig E' config).lower e) world)
          ({ E with tally := t }.during ((Emitter.ofConfig E config).lower e) world) := by
  intro E E'
  have hentries (stage : String) : E.entries stage = (rulesOf config stage).map Entry.ofRule :=
    entries_default config stage
  have hentries' := entries_engineOf config placed
  have exclusive (stage : String) := rulesOf_exclusive (ω := ω) (δ := δ) config stage
  have exclusive' (stage : String) := (exclusive stage).perm (placed_perm perm stage).symm
  have respect (stage : String) := rulesOf_respect (ω := ω) (δ := δ) config Session.SameRows stage
  have apply (stage : String) (n : Node) (c : Context ω δ) :
      E'.apply stage n c = E.apply stage n c :=
    Engine.apply_perm (hentries stage) (exclusive stage) n c (hentries' stage)
      (placed_perm perm stage) (Engine.collectStats_ofRegistrations ..)
  have validate (stage : String) (n : Node) (c : Context ω δ) :
      E'.validate stage n c = E.validate stage n c :=
    Engine.validate_perm (hentries stage) (exclusive stage) n c (hentries' stage)
      (placed_perm perm stage)
  have lower : (Emitter.ofConfig E' config).lower = (Emitter.ofConfig E config).lower :=
    Emitter.lowerWithin_congr (.ofConfig E config) (.ofConfig E' config) rfl rfl (apply _)
      (validate _) _
  refine ⟨tally_engineOf perm, fun stage n c => ⟨fun s => ?_, fun s n' s' done => ?_,
    apply stage n c, validate stage n c, fun hc t t' world agrees => ?_⟩, fun e =>
    ⟨congrFun lower e, fun t t' world agrees => ?_⟩⟩
  · exact Engine.applied_le_one (hentries' stage) (exclusive' stage) n c s
  · have fixed : ∀ r ∈ (placed.filter (·.1 = stage)).map Prod.snd, ∀ n c c',
        r.applies n c = r.applies n c' := by
      intro r hr n c c'
      obtain ⟨kinds, claims⟩ :=
        rulesOf_claimsKinds config stage r ((placed_perm perm stage).mem_iff.1 hr)
      rw [claims, claims]
    have settled := Engine.settled (hentries' stage) (exclusive' stage) n c fixed done
    refine ⟨fun entry hentry world c' => ?_, fun c' t => ?_⟩
    · rw [hentries' stage] at hentry
      obtain ⟨r, hr, rfl⟩ := List.mem_map.1 hentry
      exact settled r hr c'
    · rw [Engine.apply_of_unclaimed (hentries' stage) fun r hr => settled r hr c', Act.pure_apply]
  · rw [apply]
    exact Engine.during_sameRun
      (Engine.apply_sameRows (hentries stage) (exclusive stage) n c (respect stage) hc) agrees world
  · rw [lower]
    exact Engine.during_sameRun (Emitter.lowerWithin_sameRows (hentries _) (exclusive _)
      (respect _) _ e) agrees world

/-- The rules backwards, with the import rule in front of the match rule and after the others. -/
theorem stages_settle_in_any_order_reversed :
    let config : Config := default
    let placed : List (String × Rule Unit Unit) := (placements config).reverse
    let E : Engine Unit Unit := defaultEngine config
    let E' : Engine Unit Unit := engineOf config placed
    placed.Perm (placements config) ∧
      E'.ruleNames Stage.codegen = (E.ruleNames Stage.codegen).reverse ∧
      (∀ n c, E'.apply Stage.coreIR n c = E.apply Stage.coreIR n c) ∧
      ∀ e, (Emitter.ofConfig E' config).lower e = (Emitter.ofConfig E config).lower e := by
  intro config placed E E'
  have perm : placed.Perm (placements config) := List.reverse_perm _
  obtain ⟨-, stages, lowering⟩ := stages_settle_in_any_order config placed perm
  exact ⟨perm, rfl, fun n c => (stages Stage.coreIR n c).2.2.1, fun e => (lowering e).1⟩

end Pipeline

end StagedLowering
