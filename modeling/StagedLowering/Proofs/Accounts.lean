import StagedLowering.Proofs.Absence
import StagedLowering.Proofs.DefaultStages
import StagedLowering.Proofs.Logs

/-!
The counters of an engine account for what it did. They are what the log says of each rule since
they were last cleared, however registrations and uses of the engine follow each other and are
nested in one another; and an engine that does not count does everything else the same.
-/
namespace StagedLowering

variable {ω δ α β : Type}

/-- The rule that an entry uses in a world, and the world once it is there, whatever the log. -/
def Entry.drawIn (entry : Entry (Logged ω) δ) (world : ω) : Rule (Logged ω) δ × ω :=
  ((entry.draw ⟨world, []⟩).1, (entry.draw ⟨world, []⟩).2.world)

/-- An entry in each version of a program. The versions are not told apart by what the rules claim
or require, nor by what it takes to make them, and none of this has to do with the log. -/
structure Entry.Uniform (p : Version → Entry (Logged ω) δ) (c : Version → Context (Logged ω) δ) :
    Prop where
  name : ∀ v v', (p v).name = (p v').name
  draw : ∀ v x, (p v).draw x = (((p v).drawIn x.world).1, ⟨((p v).drawIn x.world).2, x.log⟩)
  world : ∀ v v' x, ((p v).drawIn x).2 = ((p v').drawIn x).2
  claims : ∀ v v' x n,
    ((p v).drawIn x).1.applies n (c v) = ((p v').drawIn x).1.applies n (c v')
  requires : ∀ v v' x, ((p v).drawIn x).1.requires = ((p v').drawIn x).1.requires

/-- A program in all versions. It may use the engine whose history is told, with entries that are
registered under the given keys, at any time, also from inside a rule, whose applications are such
programs themselves; and it may clear the counters. Each engine that is named here stands for that
one, since the session counts what is applied. Otherwise the program works on the world and the
depth: a foreign engine keeps counters of its own, and they are part of the world. -/
inductive Act.Uniform (keys : List (String × String)) :
    {α : Type} → (Version → Act (Logged ω) α) → Prop
  | own {α : Type} (f : Nat → ω → Except Failure α × Nat × ω) : Uniform keys fun _ => Act.own f
  | bind {α β : Type} {a : Version → Act (Logged ω) α} {f : Version → α → Act (Logged ω) β}
      (first : Uniform keys a) (rest : ∀ x, Uniform keys fun v => f v x) :
      Uniform keys fun v => a v >>= f v
  | attempt {α : Type} {a : Version → Act (Logged ω) α} (h : Uniform keys a) :
      Uniform keys fun v => Act.attempt (a v)
  | clear : Uniform keys fun v => Act.clear v
  | apply {δ : Type} {E : Version → Engine (Logged ω) δ} {c : Version → Context (Logged ω) δ}
      {stage : String} {parts : List (Version → Entry (Logged ω) δ)} (n : Node)
      (counts : ∀ v, (E v).collectStats = v.counts)
      (entries : ∀ v, (E v).entries stage = parts.map fun p => v.entry stage (p v))
      (known : ∀ p ∈ parts, ∀ v, (stage, (p v).name) ∈ keys)
      (uniform : ∀ p ∈ parts, Entry.Uniform p c)
      (rules : ∀ p ∈ parts, ∀ world n, Uniform keys fun v => ((p v).drawIn world).1.apply n (c v)) :
      Uniform keys fun v => (E v).apply stage n (c v)
  | validate {δ : Type} {E : Version → Engine (Logged ω) δ} {c : Version → Context (Logged ω) δ}
      {stage : String} {parts : List (Version → Entry (Logged ω) δ)} (n : Node)
      (entries : ∀ v, (E v).entries stage = parts.map fun p => v.entry stage (p v))
      (uniform : ∀ p ∈ parts, Entry.Uniform p c) (has : ∀ v v' k, (c v).has k = (c v').has k) :
      Uniform keys fun v => (E v).validate stage n (c v)

namespace Act.Uniform

variable {keys : List (String × String)}

theorem pure (x : α) : Uniform keys fun _ => (pure x : Act (Logged ω) α) :=
  .own fun depth world => (.ok x, depth, world)

theorem resume (outcome : Except Failure α) :
    Uniform keys fun _ => (Act.resume outcome : Act (Logged ω) α) := by
  cases outcome with
  | ok x => exact .pure x
  | error f => exact .own fun depth world => (.error f, depth, world)

theorem fail (e : LoweringError) : Uniform keys fun _ => (Act.fail e : Act (Logged ω) α) :=
  .own fun depth world => (.error (.lowering e), depth, world)

theorem ofExcept (x : Except LoweringError α) :
    Uniform keys fun _ => (Act.ofExcept x : Act (Logged ω) α) := by
  cases x with
  | ok x => exact .pure x
  | error e => exact .fail e

theorem mapM {κ : Type} {f : Version → κ → Act (Logged ω) α} (h : ∀ k, Uniform keys fun v => f v k)
    (ks : List κ) : Uniform keys fun v => ks.mapM (f v) := by
  induction ks with
  | nil => exact .pure []
  | cons k ks ih =>
    simp only [List.mapM_cons]
    exact .bind (h k) fun _ => .bind ih fun _ => .pure _

/-- Stages that may be used may be used one after the other. -/
theorem applyAll {E : Version → Engine (Logged ω) δ} {c : Version → Context (Logged ω) δ}
    (stages : List String)
    (h : ∀ stage ∈ stages, ∀ n, Uniform keys fun v => (E v).apply stage n (c v)) (n : Node) :
    Uniform keys fun v => (E v).applyAll stages n (c v) := by
  induction stages generalizing n with
  | nil => exact .pure n
  | cons stage stages ih =>
    obtain ⟨first, rest⟩ := List.forall_mem_cons.1 h
    exact .bind (first n) fun n' => ih rest n'

end Act.Uniform

section Entries

variable {keys : List (String × String)} {p : Version → Entry (Logged ω) δ}
  {c : Version → Context (Logged ω) δ} (uniform : Entry.Uniform p c) {v v' : Version}
  (stage : String) (n : Node)

include uniform

theorem Entry.Uniform.drawn {s t : Session (Logged ω)} (h : Books keys v v' s t) :
    Books keys v v' ((v.entry stage (p v)).drawn s) ((v'.entry stage (p v')).drawn t) := by
  have moved := h.moved t.depth ((p v').drawIn t.world.world).2
  rw [Entry.drawn, Entry.drawn, Version.draw_entry, Version.draw_entry, uniform.draw v,
    uniform.draw v', h.depth, h.world, uniform.world v v']
  exact moved

theorem Entry.Uniform.requirements :
    (Engine.requirements n (c v) (v.entry stage (p v))).Accords (Books keys v v')
      (Engine.requirements n (c v') (v'.entry stage (p v'))) := by
  intro s t h
  have drawn := uniform.drawn stage h
  rw [Engine.requirements, Engine.requirements, Act.bind_ok (rule_apply _ s),
    Act.bind_ok (rule_apply _ t), Version.draw_entry, Version.draw_entry, uniform.draw v,
    uniform.draw v', h.world]
  simp only [Version.rule_applies, Version.rule_requires, uniform.claims v v',
    uniform.requires v v']
  exact .ok _ drawn

/-- The turns of an entry in two versions are in accord, as long as its applications are. -/
theorem Entry.Uniform.applyEntry {E E' : Engine (Logged ω) δ} (counts : E.collectStats = v.counts)
    (counts' : E'.collectStats = v'.counts) (known : (stage, (p v).name) ∈ keys)
    (rules : ∀ world n, (((p v).drawIn world).1.apply n (c v)).Accords (Books keys v v')
      (((p v').drawIn world).1.apply n (c v'))) :
    (E.applyEntry stage (c v) n (v.entry stage (p v))).Accords (Books keys v v')
      (E'.applyEntry stage (c v') n (v'.entry stage (p v'))) := by
  refine Engine.applyEntry_accords (fun s t h => ?_) (fun s t h => uniform.drawn stage h)
    fun s t h => ?_
  · rw [Version.draw_entry, Version.draw_entry, uniform.draw v, uniform.draw v', h.world,
      Version.rule_applies, Version.rule_applies]
    exact uniform.claims v v' t.world.world n
  · obtain ⟨outcome, s', t', hs, ht, h'⟩ :=
      (rules t.world.world n).attempted (uniform.drawn stage h)
    -- The note comes before the count; in between the books are not in order.
    let step : LogStep := .applied stage (p v).name outcome
    refine ⟨outcome, s'.noting v step, t'.noting v' step, ?_, ?_, ?_⟩
    · rw [Version.draw_entry, uniform.draw v, h.world]
      exact v.attempt_rule hs
    · rw [Version.draw_entry, uniform.draw v', uniform.name v' v]
      exact v'.attempt_rule ht
    · rw [Version.entry_name, Version.entry_name, uniform.name v' v]
      exact h'.applied counts counts' known outcome

end Entries

/-- Any two versions of a program come to the same end, with the books in order. -/
theorem Act.Uniform.accords {keys : List (String × String)} {a : Version → Act (Logged ω) α}
    (uniform : Uniform keys a) (v v' : Version) : (a v).Accords (Books keys v v') (a v') := by
  -- By how the program is made up. A rule's applications are covered by the hypothesis for its own
  -- program, so however deep uses of engines are nested in one another, they are induction steps.
  induction uniform with
  | own f =>
    intro s t h
    change SameEnd _ (Act.own f s) (Act.own f t)
    unfold Act.own
    rw [← h.depth, ← h.world]
    split
    · exact .ok _ (h.moved _ _)
    · exact .error _ (h.moved _ _)
  | bind _ _ first rest => exact .bind first rest
  | attempt _ ih => exact .attempt ih
  | clear => exact fun s t h => .ok () h.cleared
  | @apply _ E c stage parts n counts entries known uniform _ rules =>
    simp only [Engine.apply, entries, List.foldlM_map]
    exact .foldlM parts (fun p hp n => (uniform p hp).applyEntry stage n (counts v) (counts v')
      (known p hp v) (rules p hp)) n
  | @validate _ E c stage parts n entries uniform has =>
    have require (required : List Key) : (c v).require required = (c v').require required := by
      rw [Context.require, Context.require, Context.absent_congr fun k _ => has v v' k]
    simp only [Engine.validate, entries, List.mapM_map, require]
    exact .bind (.mapM parts fun p hp => (uniform p hp).requirements stage n) fun _ => .ofExcept _

/-! ### Histories -/

/-- What an engine can go through, in all versions, with the worlds that its calls leave behind and
the stages and names that were registered, in order. -/
inductive History :
    (Version → Engine (Logged ω) δ) → (Version → Logged ω) → List (String × String) → Prop
  | start (world : ω) : History (fun v => { collectStats := v.counts }) (fun _ => ⟨world, []⟩) []
  | register {E : Version → Engine (Logged ω) δ} {w : Version → Logged ω}
      {keys : List (String × String)} (before : History E w keys) (stage name : String)
      (p : Version → Entry (Logged ω) δ) (names : ∀ v, (p v).name = name) :
      History (fun v => (E v).register stage (v.entry stage (p v))) w (keys ++ [(stage, name)])
  | clear {E : Version → Engine (Logged ω) δ} {w : Version → Logged ω}
      {keys : List (String × String)} (before : History E w keys) :
      History (fun v => (E v).resetStats) (fun v => (w v).noting v .cleared) keys
  | call {α : Type} {E : Version → Engine (Logged ω) δ} {w : Version → Logged ω}
      {keys : List (String × String)} (before : History E w keys) (a : Version → Act (Logged ω) α)
      (uniform : Act.Uniform keys a) :
      History (fun v => ((E v).during (a v) (w v)).2.1) (fun v => ((E v).during (a v) (w v)).2.2)
        keys

/-- The session in which an engine works next. -/
def Engine.opening (E : Engine (Logged ω) δ) (w : Logged ω) : Session (Logged ω) := ⟨E.tally, 0, w⟩

namespace History

variable {E : Version → Engine (Logged ω) δ} {w : Version → Logged ω}
  {keys : List (String × String)}

/-- A call ends alike in two versions and leaves the books in order. -/
theorem books_during {E E' : Engine (Logged ω) δ} {w w' : Logged ω} {a b : Act (Logged ω) α}
    {v v' : Version} (accords : a.Accords (Books keys v v') b)
    (h : Books keys v v' (E.opening w) (E'.opening w')) :
    (E.during a w).1 = (E'.during b w').1 ∧
      Books keys v v' ((E.during a w).2.1.opening (E.during a w).2.2)
        ((E'.during b w').2.1.opening (E'.during b w').2.2) := by
  obtain ⟨outcome, s, t, hs, ht, h'⟩ := Engine.during_accords E E' accords h
  obtain ⟨log, logged, first, second⟩ := h'.kept
  rw [hs, ht]
  exact ⟨rfl, rfl, h'.world, log, logged, ⟨first.log_eq, first.rows⟩, second.log_eq, second.rows⟩

theorem books (h : History E w keys) (v v' : Version) :
    Books keys v v' ((E v).opening (w v)) ((E v').opening (w v')) := by
  induction h with
  | start world =>
    exact ⟨rfl, rfl, [], by simp, ⟨by simp [Engine.opening], .empty _⟩,
      by simp [Engine.opening], .empty _⟩
  | register _ stage name p names ih =>
    have enrolled := ih.enrolled stage name
    have opened (v : Version) (E : Engine (Logged ω) δ) (w : Logged ω) :
        (E.register stage (v.entry stage (p v))).opening w =
          { E.opening w with tally := (E.opening w).tally.enroll stage name } := by
      rw [Engine.register, Version.entry_name, names]
      rfl
    rw [opened, opened]
    exact enrolled
  | clear _ ih => exact ih.cleared
  | call _ a uniform ih => exact (books_during (uniform.accords v v') ih).2

/-- The log of a version that keeps one. -/
theorem log_eq (h : History E w keys) {v v' : Version} (logs : v.logs = true)
    (logs' : v'.logs = true) : (w v).log = (w v').log := by
  obtain ⟨log, -, first, second⟩ := (h.books v v').kept
  have first := first.log_eq
  have second := second.log_eq
  rw [if_pos logs] at first
  rw [if_pos logs'] at second
  exact first.trans second.symm

/-- The counters are those of the log that another version keeps. -/
theorem lists (h : History E w keys) (v v' : Version) (logs : v'.logs = true) :
    (E v).tally.Lists keys (v.row (w v').log) := by
  obtain ⟨log, -, first, second⟩ := (h.books v v').kept
  have kept := second.log_eq
  rw [if_pos logs] at kept
  change (w v').log = log at kept
  rw [kept]
  exact first.rows

/-- Which rows there are is a matter of registrations alone. -/
theorem map_key_stats (h : History E w keys) (v : Version) :
    (E v).stats.map RuleStats.key = keys.eraseDups := by
  refine (h.lists v ⟨true, true⟩ rfl).map_key_rows fun key => ?_
  unfold Version.row
  split <;> rfl

/-- The counters of an engine are an account of what ran, and nothing turns on them. Let `log` be
what a version of the engine with logged rules has in its log. In every version there is one row for
each stage and name registered, in the order of first registration. Where applications are counted,
logged or not, each row has those that are in the log since the counters were last cleared; where
they are not, all is zero. The worlds are the same throughout; and so it goes on, with every call
ending alike in all versions and no row added, removed or moved. -/
theorem stats_account (h : History E w keys) :
    let log := (w ⟨true, true⟩).log
    (∀ v, v.counts = true → (E v).stats = keys.eraseDups.map (RuleStats.ofLog log)) ∧
    (∀ key, (RuleStats.ofLog log key).replacements + (RuleStats.ofLog log key).errors ≤
      (RuleStats.ofLog log key).applications) ∧
    (∀ v, v.counts = false →
      (E v).stats = keys.eraseDups.map (fun key => Tally.blank key.1 key.2)) ∧
    (∀ v, (w v).world = (w ⟨true, true⟩).world ∧ (v.logs = true → (w v).log = log)) ∧
    (∀ v, (E v).resetStats.stats.map RuleStats.key = (E v).stats.map RuleStats.key) ∧
    ∀ (α : Type) (a : Version → Act (Logged ω) α), Act.Uniform keys a →
      let run v := (E v).during (a v) (w v)
      ∀ v, (run v).2.1.stats.map RuleStats.key = (E v).stats.map RuleStats.key ∧
        ∀ v', (run v).1 = (run v').1 ∧ (run v).2.2.world = (run v').2.2.world := by
  intro log
  refine ⟨?_, RuleStats.ofLog_le log, ?_, ?_, ?_, ?_⟩
  · intro v counts
    rw [Engine.stats, (h.lists v ⟨true, true⟩ rfl).rows_eq]
    refine List.map_congr_left fun key _ => ?_
    rw [Version.row, if_pos counts]
  · intro v silent
    rw [Engine.stats, (h.lists v ⟨true, true⟩ rfl).rows_eq]
    refine List.map_congr_left fun key _ => ?_
    rw [Version.row, silent, if_neg Bool.false_ne_true]
  · intro v
    exact ⟨(h.books v ⟨true, true⟩).world, fun logs => h.log_eq logs rfl⟩
  · intro v
    exact (h.clear.map_key_stats v).trans (h.map_key_stats v).symm
  · intro α a uniform run v
    refine ⟨((h.call a uniform).map_key_stats v).trans (h.map_key_stats v).symm, fun v' => ?_⟩
    obtain ⟨outcome, after⟩ := books_during (uniform.accords v v') (h.books v v')
    exact ⟨outcome, after.world⟩

end History

/-! ### Pipelines under account -/

namespace Emitter

variable {keys : List (String × String)} (config : Config)

theorem leaf_uniform (n : Node) : Act.Uniform keys fun _ => (leaf n : Act (Logged ω) Node) := by
  unfold leaf
  split
  · exact .bind (.ofExcept _) fun _ => .pure _
  · exact .pure _
  · exact .fail _

theorem call_uniform {lower : Version → HighIR → Act (Logged ω) Target}
    (h : ∀ e, Act.Uniform keys fun v => lower v e) (n : Node) :
    Act.Uniform keys fun v => call (lower v) n := by
  unfold call
  split
  · exact .bind (.mapM h _) fun _ => .pure _
  · exact .fail _

/-- The rules of the codegen stage only do what the emitter does. -/
theorem codegenRules_uniform {E : Version → Engine (Logged ω) δ}
    {lower : Version → HighIR → Act (Logged ω) Target}
    (h : ∀ e, Act.Uniform keys fun v => lower v e) (n : Node) : ∀ r ∈ Pipeline.codegenRules config,
      Act.Uniform keys fun v => r.apply n ((ofConfig (E v) config).context (lower v)) := by
  have delegated (d : Delegation (Logged ω) δ (HighIR → Act (Logged ω) Target)) (name : String)
      (htype : d.type = delegateType) (hkey : d.key = config.delegateKey)
      (method : Act.Uniform keys fun v => d.method (lower v) n) :
      Act.Uniform keys fun v =>
        (d.rule name).apply n ((ofConfig (E v) config).context (lower v)) := by
    have handed (v : Version) :=
      Pipeline.delegation_apply (ofConfig (E v) config) (lower v) d htype hkey name n
    simp only [handed]
    exact .bind method fun _ => .pure _
  simp only [Pipeline.codegenRules, List.forall_mem_cons]
  refine ⟨delegated _ _ rfl rfl (leaf_uniform n), delegated _ _ rfl rfl (call_uniform h n), ?_, ?_,
    by simp⟩
  · simp only [Rule.binaryLowering, context_lowerer, Act.ofExcept, pure_bind]
    split
    · exact .bind (h _) fun _ => .bind (h _) fun _ => .pure _
    · exact .fail _
  · simp only [Rule.regexLowering]
    split
    · exact .pure _
    · exact .fail _

/-- The codegen rules, the same in every version. -/
def codegenParts : List (Version → Entry (Logged ω) δ) :=
  (Pipeline.codegenRules config).map fun r _ => Entry.ofRule r

theorem codegenParts_uniform (c : Version → Context (Logged ω) δ) :
    ∀ p ∈ codegenParts config, Entry.Uniform p c := by
  intro p hp
  obtain ⟨r, hr, rfl⟩ := List.mem_map.1 hp
  obtain ⟨kinds, claims⟩ := Pipeline.rulesOf_claimsKinds config Stage.codegen r
    (by rwa [Pipeline.rulesOf_codegen])
  exact ⟨fun _ _ => rfl, fun _ _ => rfl, fun _ _ _ => rfl,
    fun _ _ _ n => (claims n _).trans (claims n _).symm, fun _ _ _ => rfl⟩

section

variable {E : Version → Engine (Logged ω) δ} (counts : ∀ v, (E v).collectStats = v.counts)
  (entries : ∀ v, (E v).entries Stage.codegen =
    (codegenParts config).map fun p => v.entry Stage.codegen (p v))
  (known : ∀ r ∈ (Pipeline.codegenRules config : List (Rule (Logged ω) δ)),
    (Stage.codegen, r.name) ∈ keys)

include counts entries known

/-- The codegen stage of an emitter, which comes back to the emitter for operands and arguments. -/
theorem apply_uniform {lower : Version → HighIR → Act (Logged ω) Target}
    (h : ∀ e, Act.Uniform keys fun v => lower v e) (n : Node) :
    Act.Uniform keys fun v =>
      (E v).apply Stage.codegen n ((ofConfig (E v) config).context (lower v)) := by
  refine .apply n counts entries ?_ (codegenParts_uniform config _) ?_
  · intro p hp v
    obtain ⟨r, hr, rfl⟩ := List.mem_map.1 hp
    exact known r hr
  · intro p hp world n
    obtain ⟨r, hr, rfl⟩ := List.mem_map.1 hp
    exact codegenRules_uniform config h n r hr

/-- Lowering by an emitter whose codegen rules are logged. -/
theorem lowerWithin_uniform (levels : Nat) (e : HighIR) :
    Act.Uniform keys fun v => (ofConfig (E v) config).lowerWithin levels e := by
  induction levels generalizing e with
  | zero =>
    simp only [lowerWithin, ofConfig]
    exact .fail _
  | succ levels ih =>
    let c (v : Version) :=
      (ofConfig (E v) config).context ((ofConfig (E v) config).lowerWithin levels)
    have validated : Act.Uniform keys fun v => (E v).validate Stage.codegen (.high e) (c v) :=
      .validate (.high e) entries (codegenParts_uniform config c) fun v v' k => by cases k <;> rfl
    have applied : Act.Uniform keys fun v => (E v).apply Stage.codegen (.high e) (c v) :=
      apply_uniform config counts entries known ih (.high e)
    have depth : Act.Uniform keys fun _ => (Act.depth : Act (Logged ω) Nat) :=
      .own fun depth world => (.ok depth, depth, world)
    have setDepth (d : Nat) : Act.Uniform keys fun _ => (Act.setDepth d : Act (Logged ω) Unit) :=
      .own fun _ world => (.ok (), d, world)
    simp only [lowerWithin]
    refine .bind depth fun d => ?_
    by_cases deep : config.maxDepth.toNat ≤ d
    · simp only [ofConfig, deep, if_true]
      exact .fail _
    · simp only [ofConfig, deep, if_false]
      exact .bind validated fun _ => .bind (setDepth _) fun _ => .bind (.attempt applied) fun _ =>
        .bind (setDepth _) fun _ => .bind (.resume _) fun _ => .ofExcept _

end

end Emitter

namespace History

theorem registerAll {E : Version → Engine (Logged ω) δ} {w : Version → Logged ω}
    {keys : List (String × String)} (h : History E w keys) (stage : String)
    (entries : List (Entry (Logged ω) δ)) :
    History (fun v => (E v).registerAll (entries.map fun entry => (stage, v.entry stage entry))) w
      (keys ++ entries.map fun entry => (stage, entry.name)) := by
  induction entries generalizing E keys with
  | nil => simpa using h
  | cons entry entries ih =>
    have next := ih (h.register stage entry.name (fun _ => entry) fun _ => rfl)
    simpa using next

/-- The codegen stage twice on `1 + 2`, where the operator rule has the emitter lower the operands:
what the plain engine counts is in the log of the other. -/
theorem stats_account_sum :
    let config : Config := {}
    let entries : List (Entry (Logged Unit) Unit) :=
      (Pipeline.codegenRules config).map Entry.ofRule
    let E (v : Version) : Engine (Logged Unit) Unit := Engine.ofRegistrations v.counts
      (entries.map fun entry => (Stage.codegen, v.entry Stage.codegen entry))
    let keys := entries.map fun entry => (Stage.codegen, entry.name)
    let sum : HighIR := .binary (.literal (.int 1)) "+" (.literal (.int 2)) .int
    let m (v : Version) : Emitter (Logged Unit) Unit := .ofConfig (E v) config
    let run (v : Version) := (E v).during ((E v).applyAll [Stage.codegen, Stage.codegen]
      (.high sum) ((m v).context (m v).lower)) ⟨(), []⟩
    let log : List LogStep :=
      [.applied Stage.codegen "BinaryExpressionLowering"
          (.ok (.replaced (.target (.infixed (.ofInt 1) "+" (.ofInt 2))))),
        .applied Stage.codegen "TargetEmitter::emit_leaf" (.ok (.replaced (.target (.ofInt 2)))),
        .applied Stage.codegen "TargetEmitter::emit_leaf" (.ok (.replaced (.target (.ofInt 1))))]
    (run ⟨true, true⟩).2.2.log = log ∧
      (run ⟨true, false⟩).2.1.stats = keys.eraseDups.map (RuleStats.ofLog log) ∧
      (run ⟨false, false⟩).2.1.stats =
        keys.eraseDups.map (fun key => Tally.blank key.1 key.2) := by
  intro config entries E keys sum m run log
  have logged : (run ⟨true, true⟩).2.2.log = log := rfl
  have registered : History E (fun _ => ⟨(), []⟩) keys :=
    (History.start ()).registerAll Stage.codegen entries
  have listed (v : Version) : (E v).entries Stage.codegen =
      (Emitter.codegenParts config).map fun p => v.entry Stage.codegen (p v) := by
    rw [Engine.entries_ofRegistrations]
    rfl
  have known : ∀ r ∈ (Pipeline.codegenRules config : List (Rule (Logged Unit) Unit)),
      (Stage.codegen, r.name) ∈ keys := fun r hr =>
    List.mem_map.2 ⟨.ofRule r, List.mem_map_of_mem hr, rfl⟩
  have counts (v : Version) : (E v).collectStats = v.counts :=
    Engine.collectStats_ofRegistrations v.counts _
  clear_value E keys
  have lowering := Emitter.lowerWithin_uniform config counts listed known config.maxDepth.toNat
  have uniform := Act.Uniform.applyAll [Stage.codegen, Stage.codegen]
    (List.forall_mem_cons.2 ⟨Emitter.apply_uniform config counts listed known lowering,
      List.forall_mem_singleton.2 (Emitter.apply_uniform config counts listed known lowering)⟩)
    (.high sum)
  obtain ⟨rows, -, blanks, -⟩ := stats_account (registered.call _ uniform)
  have plain := rows ⟨true, false⟩ rfl
  exact ⟨logged, logged ▸ plain, blanks ⟨false, false⟩ rfl⟩

end History

end StagedLowering
