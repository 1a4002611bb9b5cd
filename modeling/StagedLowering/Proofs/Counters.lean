import StagedLowering.Proofs.Places
import StagedLowering.Proofs.Tallies

/-!
What one lowering adds to the counters of the default rules. The marks of an expression say how
often each rule came to an end and how: on a sound expression well and once for each of its nodes,
otherwise well for the nodes that come before the first offence, except for those above it, which
fail with it.
-/
namespace StagedLowering

/-- Whether the mark is the end of an application of this rule with this verdict. -/
def Mark.closes (rule : String) (v : Verdict) : Mark → Bool
  | .begun _ => false
  | .ended e v' => e.handler == rule && v' == v

/-- How often an application of the rule ended with the verdict. -/
def closings (rule : String) (v : Verdict) (ms : List Mark) : Nat := ms.countP (Mark.closes rule v)

theorem closings_cons (rule : String) (v : Verdict) (m : Mark) (ms : List Mark) :
    closings rule v (m :: ms) = closings rule v [m] + closings rule v ms := by
  rw [← List.singleton_append]
  exact List.countP_append

/-- So many applications of the rule ended with the node replaced, and so many failed. -/
def Closes (rule : String) (ms : List Mark) (replaced failed : Nat) : Prop :=
  closings rule .replaced ms = replaced ∧ closings rule .failed ms = failed

namespace Closes

variable {rule : String} {ms ms' : List Mark} {r f r' f' : Nat}

theorem nil : Closes rule [] 0 0 := ⟨rfl, rfl⟩

theorem begun (e : HighIR) : Closes rule [.begun e] 0 0 := ⟨rfl, rfl⟩

theorem replaced (e : HighIR) :
    Closes rule [.ended e .replaced] (if e.handler = rule then 1 else 0) 0 := by
  simp [Closes, closings, Mark.closes, List.countP_cons]

theorem failed (e : HighIR) :
    Closes rule [.ended e .failed] 0 (if e.handler = rule then 1 else 0) := by
  simp [Closes, closings, Mark.closes, List.countP_cons]

theorem append (h : Closes rule ms r f) (h' : Closes rule ms' r' f') :
    Closes rule (ms ++ ms') (r + r') (f + f') := by
  unfold Closes closings at *
  rw [List.countP_append, List.countP_append, h.1, h.2, h'.1, h'.2]
  exact ⟨rfl, rfl⟩

end Closes

/-- The growth of a tally, given for each rule how its applications ended. -/
theorem Tally.grow_of_closes (t : Tally) {stage : String} {ms : List Mark}
    {replaced failed : String → Nat} (h : ∀ rule, Closes rule ms (replaced rule) (failed rule)) :
    t.grow stage (closings · .replaced ms) (closings · .failed ms) =
      t.grow stage replaced failed := by
  rw [funext fun rule => (h rule).1, funext fun rule => (h rule).2]

/-- Whether the node is a float without a target. -/
def HighIR.isNonFinite : HighIR → Bool
  | .literal (.float value) => !value.finite
  | _ => false

/-- How many errors of a rule are its own refusals of the offending node. The leaf rule refuses a
float, unless that is too deep for any rule to see it. -/
def Visit.refusals (config : Config) (rule : String) (v : Visit) : Nat :=
  if rule = "TargetEmitter::emit_leaf" ∧ v.node.isNonFinite ∧ v.level < config.maxDepth.toNat
  then 1 else 0

namespace HighIR

variable {config : Config} {level : Nat} {e : HighIR}

/-- A sound node is marked before all of its operands and after them. -/
theorem marks_of_sound (h : config.offence ⟨level, e⟩ = none) :
    e.marks config level =
      .begun e :: (marksAll config (level + 1) e.operands ++
        [.ended e (.ofFault (faultAll config (level + 1) e.operands))]) := by
  have within := ((config.offence_eq_none_iff _).1 h).1
  cases e with
  | literal _ | identifier _ _ | regex _ _ =>
    simp [marks, marksWithin_of_lt within, marksAll, operands, fault, faultAll, visits, visitsAll,
      h]
  | binary left op right ty =>
    rw [marks, marksWithin_of_lt within, fault_binary config level _ _ _ _ within, operands,
      faultAll_cons, faultAll_cons]
    simp [marksAll, faultAll, visitsAll]
  | call callee args ty =>
    rw [marks, marksWithin_of_lt within, fault_call config level _ _ _ within, operands]
  | matching _ _ _ | importing _ _ => simp [Config.offence, Nat.not_le.2 within] at h

/-- An offending node is marked by the rule that refuses it, if a rule comes to see it. -/
theorem marks_of_offence {err : LoweringError} (h : config.offence ⟨level, e⟩ = some err) :
    (config.maxDepth.toNat ≤ level ∧ e.marks config level = []) ∨
      (level < config.maxDepth.toNat ∧ ∃ value, value.finite = false ∧
        e = .literal (.float value) ∧ e.marks config level = [.begun e, .ended e .failed]) ∨
      e.isNonFinite = false ∧ e.marks config level = [.begun e] := by
  by_cases deep : config.maxDepth.toNat ≤ level
  · exact .inl ⟨deep, marks_deep e deep⟩
  · have within := Nat.lt_of_not_le deep
    cases e with
    | literal value =>
      have hfault : (HighIR.literal value).fault config level = some err := by
        simp [fault, visits, h]
      cases value with
      | float value =>
        have nonFinite : value.finite = false ∧ LoweringError.nonFiniteFloat value.text = err := by
          simpa [Config.offence, deep] using h
        refine .inr (.inl ⟨within, value, nonFinite.1, rfl, ?_⟩)
        simp [marks, marksWithin_of_lt within, hfault, Verdict.ofFault]
      | int _ | str _ | bool _ | nil => simp [Config.offence, deep] at h
    | identifier _ _ | regex _ _ | binary _ _ _ _ | call _ _ _ => simp [Config.offence, deep] at h
    | matching _ _ _ | importing _ _ =>
      exact .inr (.inr ⟨rfl, by simp [marks, marksWithin_of_lt within]⟩)

theorem closes_of_offence {err : LoweringError} (h : config.offence ⟨level, e⟩ = some err)
    (rule : String) :
    Closes rule (e.marks config level) 0 (Visit.refusals config rule ⟨level, e⟩) := by
  rcases marks_of_offence h with
    ⟨deep, hmarks⟩ | ⟨within, value, nonFinite, rfl, hmarks⟩ | ⟨other, hmarks⟩
  · rw [hmarks, Visit.refusals, if_neg fun h => Nat.not_lt.2 deep h.2.2]
    exact .nil
  · have opened : Closes rule [.begun (.literal (.float value))] 0 0 := .begun _
    have all := opened.append (.failed (.literal (.float value)))
    rw [hmarks]
    simpa [Visit.refusals, isNonFinite, handler, nonFinite, within, eq_comm] using all
  · rw [hmarks, Visit.refusals, if_neg fun h => by simp [other] at h]
    exact .begun e

theorem marksAll_closes_of_sound (rule : String) (path : List Nat) (i : Nat) (args : List HighIR)
    (ih : ∀ a ∈ args, ∀ path : List Nat, (∀ p ∈ a.places path, config.offence p.visit = none) →
      Closes rule (a.marks config path.length) ((a.places path).countP (Place.isFor rule)) 0)
    (sound : ∀ p ∈ placesFrom path i args, config.offence p.visit = none) :
    faultAll config (path.length + 1) args = none ∧
      Closes rule (marksAll config (path.length + 1) args)
        ((placesFrom path i args).countP (Place.isFor rule)) 0 := by
  induction args generalizing i with
  | nil => exact ⟨rfl, .nil⟩
  | cons a args ihargs =>
    rw [placesFrom, List.forall_mem_append] at sound
    have hfault := (fault_eq_none_iff_sound _).2 sound.1
    have first := ih a List.mem_cons_self (path ++ [i]) sound.1
    obtain ⟨hfaults, rest⟩ := ihargs (i + 1) (fun b hb => ih b (List.mem_cons_of_mem a hb)) sound.2
    rw [List.length_append] at hfault first
    change a.fault config (path.length + 1) = none at hfault
    refine ⟨by rw [faultAll_cons, hfault, hfaults]; rfl, ?_⟩
    rw [marksAll, hfault, placesFrom, List.countP_append]
    exact first.append rest

/-- On an expression without an offence every rule comes to a good end once for each of its
nodes. -/
theorem marks_closes_of_sound (rule : String) (e : HighIR) (path : List Nat)
    (sound : ∀ p ∈ e.places path, config.offence p.visit = none) :
    Closes rule (e.marks config path.length) ((e.places path).countP (Place.isFor rule)) 0 := by
  induction e using inductionBelow generalizing path with
  | node e ih =>
    rw [places_eq, List.forall_mem_cons] at sound
    obtain ⟨hfaults, below⟩ := marksAll_closes_of_sound rule path 0 e.operands ih sound.2
    have opened : Closes rule [.begun e] 0 0 := .begun e
    have all := opened.append (below.append (.replaced e))
    rw [marks_of_sound sound.1, hfaults, places_eq, List.countP_cons]
    simpa [Verdict.ofFault, Place.isFor] using all

theorem marksAll_closes_of_offence (rule : String) (path : List Nat) (i : Nat)
    (args : List HighIR) {before : List Place} {v : Place} {err : LoweringError}
    (ih : ∀ a ∈ args, ∀ (path : List Nat) (before : List Place),
      Place.FirstOffence config (a.places path) before v err →
      Closes rule (a.marks config path.length)
        (before.countP fun w => w.isFor rule && !w.above v)
        (before.countP (fun w => w.isFor rule && w.above v) + v.visit.refusals config rule))
    (h : Place.FirstOffence config (placesFrom path i args) before v err) :
    faultAll config (path.length + 1) args = some err ∧
      Closes rule (marksAll config (path.length + 1) args)
        (before.countP fun w => w.isFor rule && !w.above v)
        (before.countP (fun w => w.isFor rule && w.above v) + v.visit.refusals config rule) := by
  induction args generalizing i before with
  | nil =>
    obtain ⟨after, split⟩ := h.split
    simp [placesFrom] at split
  | cons a args ihargs =>
    obtain ⟨after, split⟩ := h.split
    rcases append_eq_split split with ⟨tail, ha, -⟩ | ⟨lead, hargs, rfl⟩
    · -- the offence lies in the first operand, and the others are not lowered
      have inside : Place.FirstOffence config (a.places (path ++ [i])) before v err :=
        ⟨⟨tail, ha⟩, h.sound, h.offends⟩
      have hfault := inside.fault_eq
      have first := ih a List.mem_cons_self (path ++ [i]) before inside
      rw [List.length_append] at hfault first
      change a.fault config (path.length + 1) = some err at hfault
      refine ⟨by rw [faultAll_cons, hfault]; rfl, ?_⟩
      rw [marksAll, hfault]
      simpa using first
    · -- the first operand is sound and on another branch, so nothing in it fails
      obtain ⟨soundFirst, soundLead⟩ := List.forall_mem_append.1 h.sound
      have later : Place.FirstOffence config (placesFrom path (i + 1) args) lead v err :=
        ⟨⟨after, hargs⟩, soundLead, h.offends⟩
      have apart (p : Place) (hp : p ∈ a.places (path ++ [i])) : p.above v = false := by
        obtain ⟨j, hj, below⟩ := placesFrom_branch later.mem
        exact Place.not_above_of_branches (by omega) (a.places_below _ p hp) below
      have hfault := (fault_eq_none_iff_sound _).2 soundFirst
      have first := marks_closes_of_sound rule a (path ++ [i]) soundFirst
      obtain ⟨hfaults, rest⟩ :=
        ihargs (i + 1) (fun b hb => ih b (List.mem_cons_of_mem a hb)) later
      rw [List.length_append] at hfault first
      change a.fault config (path.length + 1) = none at hfault
      refine ⟨by rw [faultAll_cons, hfault, hfaults]; rfl, ?_⟩
      obtain ⟨kept, lost⟩ := Place.countP_apart rule apart
      rw [marksAll, hfault, List.countP_append, List.countP_append, kept, lost, Nat.add_assoc]
      exact first.append rest

/-- On an expression with an offence the rules come to a good end on the nodes before the first one,
except for those above it, on which they fail. -/
theorem marks_closes_of_offence (rule : String) (e : HighIR) (path : List Nat)
    {before : List Place} {v : Place} {err : LoweringError}
    (h : Place.FirstOffence config (e.places path) before v err) :
    Closes rule (e.marks config path.length)
      (before.countP fun w => w.isFor rule && !w.above v)
      (before.countP (fun w => w.isFor rule && w.above v) + v.visit.refusals config rule) := by
  induction e using inductionBelow generalizing path before with
  | node e ih =>
    obtain ⟨after, split⟩ := h.split
    rw [places_eq] at split
    cases before with
    | nil =>
      obtain ⟨rfl, -⟩ := List.cons.inj split
      simpa [Place.visit] using closes_of_offence h.offends rule
    | cons root before =>
      obtain ⟨rfl, splitBelow⟩ := List.cons.inj split
      obtain ⟨sound, soundBelow⟩ := List.forall_mem_cons.1 h.sound
      have below : Place.FirstOffence config (placesFrom path 0 e.operands) before v err :=
        ⟨⟨after, splitBelow⟩, soundBelow, h.offends⟩
      have above : Place.above ⟨path, e⟩ v = true := by
        obtain ⟨j, -, hj⟩ := placesFrom_branch below.mem
        exact Place.above_of_step hj
      obtain ⟨hfaults, closes⟩ := marksAll_closes_of_offence rule path 0 e.operands ih below
      have opened : Closes rule [.begun e] 0 0 := .begun e
      have all := opened.append (closes.append (.failed e))
      rw [marks_of_sound sound, hfaults, List.countP_cons, List.countP_cons, above]
      simpa [Verdict.ofFault, Place.isFor, Nat.add_right_comm] using all

end HighIR

/-- Whether the mark is counted in a row that the tally has. -/
def Mark.Enrolled (t : Tally) : Mark → Prop
  | .begun _ => True
  | .ended e v => (Stage.codegen, e.handler) ∈ t.keys ∧ v ≠ .kept

namespace Ledger

variable {ω : Type} {config : Config}

theorem counting_enter (counts : config.collectStats = true) (m : Mark) (s : Session ω)
    (h : m.Enrolled s.tally) :
    (Ledger.counting config).enter m s =
      { s with
        tally :=
          s.tally.grow Stage.codegen (closings · .replaced [m]) (closings · .failed [m]) } := by
  cases m with
  | begun e =>
    have none : s.tally.grow Stage.codegen (closings · .replaced [.begun e])
        (closings · .failed [.begun e]) = s.tally := s.tally.grow_zero Stage.codegen
    rw [none]
    rfl
  | ended e v =>
    have row := s.tally.record_eq_grow h.1 h.2
    simp only [enter, counting, counts, if_true, row]
    congr 2
    · funext rule
      simp [closings, Mark.closes, List.countP_cons]
    · funext rule
      simp [closings, Mark.closes, List.countP_cons]

/-- The counters after marks have grown by how often each rule came to an end in them. -/
theorem counting_enterAll (counts : config.collectStats = true) (ms : List Mark) (s : Session ω)
    (h : ∀ m ∈ ms, m.Enrolled s.tally) :
    (Ledger.counting config).enterAll ms s =
      { s with
        tally :=
          s.tally.grow Stage.codegen (closings · .replaced ms) (closings · .failed ms) } := by
  induction ms generalizing s with
  | nil => exact congrArg (fun t => { s with tally := t }) (s.tally.grow_zero Stage.codegen).symm
  | cons m ms ih =>
    obtain ⟨first, others⟩ := List.forall_mem_cons.1 h
    have same (t : Tally) (hkeys : t.keys = s.tally.keys) : ∀ m ∈ ms, m.Enrolled t := by
      intro m hm
      have enrolled := others m hm
      cases m with
      | begun e => trivial
      | ended e v => exact ⟨hkeys ▸ enrolled.1, enrolled.2⟩
    rw [enterAll_cons, counting_enter counts m s first, ih _ (same _ (s.tally.keys_grow _ _ _)),
      Tally.grow_grow]
    simp only [← closings_cons]

end Ledger

theorem Engine.mem_keys_register {ω δ : Type} (engine : Engine ω δ) (stage : String)
    (entry : Entry ω δ) (key : String × String) :
    key ∈ (engine.register stage entry).tally.keys ↔
      key = (stage, entry.name) ∨ key ∈ engine.tally.keys :=
  engine.tally.mem_keys_ensure _ _ _

namespace Pipeline

variable {ω δ : Type} {config : Config}

/-- The default engine has a row for each rule that lowers a node. -/
theorem handler_mem_keys (e : HighIR) (claimed : e.kind ≠ .highMatch ∧ e.kind ≠ .highImport) :
    (Stage.codegen, e.handler) ∈ (defaultEngine config : Engine ω δ).tally.keys := by
  simp only [defaultEngine, Engine.mem_keys_register]
  cases e with
  | literal _ | identifier _ _ => exact .inr (.inr (.inr (.inl rfl)))
  | call _ _ _ => exact .inr (.inr (.inl rfl))
  | binary _ _ _ _ => exact .inr (.inl rfl)
  | regex _ _ => exact .inl rfl
  | matching _ _ _ => exact absurd rfl claimed.1
  | importing _ _ => exact absurd rfl claimed.2

end Pipeline

namespace HighIR

variable {config : Config} {t : Tally}

theorem marksAll_enrolled {level : Nat} {args : List HighIR}
    (ih : ∀ a ∈ args, ∀ m ∈ a.marks config level, m.Enrolled t) :
    ∀ m ∈ marksAll config level args, m.Enrolled t := by
  induction args with
  | nil => simp [marksAll]
  | cons a args ihargs =>
    have rest := ihargs fun b hb => ih b (List.mem_cons_of_mem a hb)
    rw [marksAll, List.forall_mem_append]
    refine ⟨ih a List.mem_cons_self, ?_⟩
    split
    next => exact rest
    next => simp

/-- All that is counted in a lowering is counted in rows that the default engine has. -/
theorem marks_enrolled (rows : ∀ e : HighIR, e.kind ≠ .highMatch ∧ e.kind ≠ .highImport →
      (Stage.codegen, e.handler) ∈ t.keys) (e : HighIR) (level : Nat) :
    ∀ m ∈ e.marks config level, m.Enrolled t := by
  induction e using inductionBelow generalizing level with
  | node e ih =>
    cases hoffence : config.offence ⟨level, e⟩ with
    | none =>
      have claimed := ((config.offence_eq_none_iff _).1 hoffence).2.1
      have verdict : Verdict.ofFault (faultAll config (level + 1) e.operands) ≠ .kept := by
        cases faultAll config (level + 1) e.operands <;> exact Verdict.noConfusion
      rw [marks_of_sound hoffence, List.forall_mem_cons, List.forall_mem_append,
        List.forall_mem_singleton]
      exact ⟨trivial, marksAll_enrolled fun a ha => ih a ha (level + 1), rows e claimed, verdict⟩
    | some err =>
      rcases marks_of_offence hoffence with
        ⟨-, hmarks⟩ | ⟨-, value, -, rfl, hmarks⟩ | ⟨-, hmarks⟩
      · simp [hmarks]
      · rw [hmarks, List.forall_mem_cons, List.forall_mem_singleton]
        exact ⟨trivial, rows _ ⟨NodeKind.noConfusion, NodeKind.noConfusion⟩, Verdict.noConfusion⟩
      · rw [hmarks, List.forall_mem_singleton]
        trivial

end HighIR

/-- What an engine has counted makes no difference to what its stages do. -/
theorem Emitter.Conducts.resume {ω δ : Type} {m : Emitter ω δ} {config : Config} {b : Ledger ω}
    (h : m.Conducts config b) (t : Tally) :
    ({ m with engine := { m.engine with tally := t } } : Emitter ω δ).Conducts config b :=
  ⟨h.maxDepth, h.validate, h.apply⟩

namespace Pipeline

variable {ω δ : Type}

/-- The pipeline of a configuration after it has counted so much. -/
def resumed (config : Config) (t : Tally) : Pipeline ω δ :=
  ⟨config, { defaultEngine config with tally := t }⟩

theorem resumed_lower_eq (config : Config) (t : Tally) (e : HighIR) (s : Session ω) :
    (resumed config t : Pipeline ω δ).lower e s =
      settle (e.fault config s.depth) (e.translate config)
        ((Ledger.counting config).enterAll (e.marks config s.depth) s) :=
  ((conducts config).resume t).lower_eq e s

/-- One lowering leaves the engine as it was but for the counters of the codegen stage. Without an
offence these grow by the nodes that each rule is for, all of them replaced. Otherwise the rules
have replaced the nodes before the first offence, except for those above it, on which they have
failed, and the leaf rule has failed on the offence itself if that is a float within the limit. -/
theorem lower_counts (config : Config) (counts : config.collectStats = true) (t : Tally)
    (rows : t.keys = (defaultEngine config : Engine ω δ).tally.keys) (e : HighIR) (world : ω) :
    let p : Pipeline ω δ := resumed config t
    match p.engine.during (p.lower e) world with
    | (.ok _, engine, world') =>
      (∀ w ∈ e.places [], config.offence w.visit = none) ∧ world' = world ∧
        engine =
          { p.engine with
            tally := t.grow Stage.codegen
              (fun rule => (e.places []).countP (Place.isFor rule)) (fun _ => 0) }
    | (.error f, engine, world') =>
      ∃ before v err, Place.FirstOffence config (e.places []) before v err ∧
        f = .lowering err ∧ world' = world ∧
        engine =
          { p.engine with
            tally := t.grow Stage.codegen
              (fun rule => before.countP fun w => w.isFor rule && !w.above v)
              (fun rule =>
                (e.places []).countP (fun w => w.isFor rule && w.above v) +
                  v.visit.refusals config rule) } := by
  intro p
  have enrolled : ∀ m ∈ e.marks config 0, m.Enrolled t := by
    refine e.marks_enrolled (fun e claimed => ?_) 0
    rw [rows]
    exact handler_mem_keys e claimed
  have run : p.lower e ⟨p.engine.tally, 0, world⟩ =
      settle (e.fault config 0) (e.translate config)
        ⟨t.grow Stage.codegen (closings · .replaced (e.marks config 0))
          (closings · .failed (e.marks config 0)), 0, world⟩ := by
    rw [resumed_lower_eq]
    exact congrArg _ (Ledger.counting_enterAll counts _ _ enrolled)
  let counted (t : Tally) : Engine ω δ := { p.engine with tally := t }
  cases hfault : e.fault config 0 with
  | none =>
    rw [hfault] at run
    rw [Engine.during_ok run]
    have sound := (HighIR.fault_eq_none_iff_sound []).1 hfault
    refine ⟨sound, rfl, ?_⟩
    exact congrArg counted (t.grow_of_closes fun rule => e.marks_closes_of_sound rule [] sound)
  | some err =>
    rw [hfault] at run
    rw [Engine.during_error run]
    obtain ⟨before, v, first⟩ := HighIR.exists_firstOffence [] hfault
    refine ⟨before, v, err, first, rfl, rfl, ?_⟩
    simp only [first.countP_above]
    exact congrArg counted (t.grow_of_closes fun rule => e.marks_closes_of_offence rule [] first)

/-- Lowering `f(1 + 2, NaN, x)`: the sum and its operands are replaced, the call and the float fail,
and the last argument is not reached. -/
theorem lower_counts_call :
    let nan : HighIR := .literal (.float ⟨0x7ff8000000000000⟩)
    let sum : HighIR := .binary (.literal (.int 1)) "+" (.literal (.int 2)) .int
    let e : HighIR := .call "f" [sum, nan, .identifier "x" .int] .int
    let p : Pipeline Unit Empty := resumed {} (defaultEngine {} : Engine Unit Empty).tally
    ∃ before v err, Place.FirstOffence {} (e.places []) before v err ∧
      p.engine.during (p.lower e) () =
        (.error (.lowering err),
          { p.engine with
            tally := p.engine.tally.grow Stage.codegen
              (fun rule => before.countP fun w => w.isFor rule && !w.above v)
              (fun rule =>
                (e.places []).countP (fun w => w.isFor rule && w.above v) +
                  v.visit.refusals {} rule) }, ()) := by
  intro nan sum e p
  have placed : ⟨[1], nan⟩ ∈ e.places [] := by simp [e, sum, HighIR.places, HighIR.placesFrom]
  have offends : Config.offence {} (Place.visit ⟨[1], nan⟩) ≠ none := by decide
  clear_value e
  have counted := lower_counts (δ := Empty) {} rfl _ (Eq.refl _) e ()
  dsimp only at counted
  split at counted
  next => exact absurd (counted.1 _ placed) offends
  next h =>
    obtain ⟨before, v, err, first, rfl, rfl, rfl⟩ := counted
    exact ⟨before, v, err, first, h⟩

/-- In `f(NaN)` under a limit of one level the float is the first offence, but not one of the leaf
rule: that a float which offends always adds an error to the leaf rule is false. -/
theorem not_lower_counts_deep_float :
    ¬ ∀ (config : Config) (e : HighIR) (before : List Place) (v : Place) (err : LoweringError),
      config.collectStats = true → Place.FirstOffence config (e.places []) before v err →
      let p : Pipeline Unit Empty := unchecked config
      (p.engine.during (p.lower e) ()).2.1.tally =
        p.engine.tally.grow Stage.codegen
          (fun rule => before.countP fun w => w.isFor rule && !w.above v)
          (fun rule =>
            (e.places []).countP (fun w => w.isFor rule && w.above v) +
              if rule = "TargetEmitter::emit_leaf" ∧ v.node.isNonFinite then 1 else 0) := by
  intro counts
  let nan : HighIR := .literal (.float ⟨0x7ff8000000000000⟩)
  let e : HighIR := .call "f" [nan] .float
  have first : Place.FirstOffence { maxDepth := 1 } (e.places []) [⟨[], e⟩] ⟨[0], nan⟩
      (.depthExceeded 1) :=
    ⟨⟨[], rfl⟩, List.forall_mem_singleton.2 rfl, rfl⟩
  have rows := counts { maxDepth := 1 } e _ _ _ rfl first
  have errors := congrArg
    (fun t => (t.get? (Stage.codegen, "TargetEmitter::emit_leaf")).map RuleStats.errors) rows
  exact absurd errors (by decide +kernel)

end Pipeline

end StagedLowering
