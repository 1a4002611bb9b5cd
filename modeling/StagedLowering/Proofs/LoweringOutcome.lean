import StagedLowering.Proofs.Watched

/-!
The two outcomes of a lowering under the default rules. It succeeds exactly on the expressions that
are no higher than the limit and consist of nodes with a target, and gives their translation; on
any other it fails with the first offence, and its rules have seen nothing beyond that.
-/
namespace StagedLowering

/-- An expression has no fault exactly if it fits under the limit and all its nodes have a
target. -/
theorem HighIR.fault_eq_none_iff (config : Config) (level : Nat) (e : HighIR) :
    e.fault config level = none ↔
      level + e.height ≤ config.maxDepth.toNat ∧
        (∀ v ∈ e.visits level, v.node.kind ≠ .highMatch ∧ v.node.kind ≠ .highImport) ∧
          ∀ v ∈ e.visits level, ∀ value,
            v.node = .literal (.float value) → value.finite = true := by
  rw [fault, List.findSome?_eq_none_iff, ← level_lt_iff]
  constructor
  · intro h
    refine ⟨fun v hv => ?_, fun v hv => ?_, fun v hv => ?_⟩
    · exact ((config.offence_eq_none_iff v).1 (h v hv)).1
    · exact ((config.offence_eq_none_iff v).1 (h v hv)).2.1
    · exact ((config.offence_eq_none_iff v).1 (h v hv)).2.2
  · rintro ⟨shallow, expression, finite⟩ v hv
    exact (config.offence_eq_none_iff v).2 ⟨shallow v hv, expression v hv, finite v hv⟩

namespace Pipeline

variable {ω δ : Type}

/-- Lowering gives a target expression exactly if the nesting is within the limit, no node is a
match or an import and every float is finite, and then it gives the translation. -/
theorem lower_ok_iff_translate (config : Config) (e : HighIR) (tally : Tally) (world : ω)
    (t : Target) :
    (∃ s, (unchecked config : Pipeline ω δ).lower e ⟨tally, 0, world⟩ = .ok t s) ↔
      (e.height ≤ config.maxDepth.toNat ∧
        (∀ v ∈ e.visits 0, v.node.kind ≠ .highMatch ∧ v.node.kind ≠ .highImport) ∧
          ∀ v ∈ e.visits 0, ∀ value, v.node = .literal (.float value) → value.finite = true) ∧
        t = e.translate config := by
  have sound := e.fault_eq_none_iff config 0
  rw [Nat.zero_add] at sound
  rw [lower_eq, ← sound]
  cases hfault : e.fault config 0 with
  | none => simp [settle, eq_comm]
  | some err => simp [settle]

end Pipeline

namespace Config

variable (config : Config)

/-- The visits that rules are tested on: all up to the first offence, and the offence too unless it
is one of depth. -/
def reached : List Visit → List Visit
  | [] => []
  | v :: rest =>
    if config.maxDepth.toNat ≤ v.level then []
    else v :: if (config.offence v).isNone then reached rest else []

theorem reached_append (xs ys : List Visit) :
    config.reached (xs ++ ys) =
      config.reached xs ++
        if (xs.findSome? config.offence).isNone then config.reached ys else [] := by
  induction xs with
  | nil => rfl
  | cons v xs ih =>
    by_cases deep : config.maxDepth.toNat ≤ v.level
    · have offence : config.offence v = some (.depthExceeded config.maxDepth) := by
        simp [offence, deep]
      simp [reached, deep, offence]
    · cases offence : config.offence v with
      | none => simp [reached, deep, offence, ih]
      | some err => simp [reached, deep, offence]

/-- Visits without an offence are all reached. -/
theorem reached_of_sound (xs : List Visit) (h : ∀ v ∈ xs, config.offence v = none) :
    config.reached xs = xs := by
  induction xs with
  | nil => rfl
  | cons v xs ih =>
    have offence := h v List.mem_cons_self
    have level := ((config.offence_eq_none_iff v).1 offence).1
    rw [reached, if_neg (Nat.not_le.2 level), offence,
      ih fun w hw => h w (List.mem_cons_of_mem v hw)]
    rfl

/-- Nothing is reached below a root that is too deep. -/
theorem reached_deep {level : Nat} (e : HighIR) (h : config.maxDepth.toNat ≤ level) :
    config.reached (e.visits level) = [] := by
  obtain ⟨below, hvisits⟩ := HighIR.visits_eq_cons level e
  rw [hvisits, reached, if_pos h]

end Config

/-- The nodes that the rules see on visits, each once for every rule tested against it. -/
def Visit.tested (vs : List Visit) : List HighIR :=
  vs.flatMap fun v => List.replicate v.node.tests v.node

namespace HighIR

variable (config : Config)

theorem marksAll_tested (args : List HighIR) (level : Nat)
    (ih : ∀ a ∈ args, (a.marks config level).flatMap Mark.tested =
      Visit.tested (config.reached (a.visits level))) :
    (marksAll config level args).flatMap Mark.tested =
      Visit.tested (config.reached (visitsAll level args)) := by
  induction args with
  | nil => rfl
  | cons a args ihargs =>
    have first := ih a List.mem_cons_self
    have rest := ihargs fun b hb => ih b (List.mem_cons_of_mem a hb)
    rw [marksAll, visitsAll, Config.reached_append, List.flatMap_append, first, ← fault]
    unfold Visit.tested at rest ⊢
    rw [List.flatMap_append]
    split
    next => rw [rest]
    next => rfl

/-- While an expression is lowered, rules are tested on the visits that are reached and on nothing
else, in the order of the visits. -/
theorem marks_tested (e : HighIR) (level : Nat) :
    (e.marks config level).flatMap Mark.tested =
      Visit.tested (config.reached (e.visits level)) := by
  induction e using operandInduction generalizing level with
  | literal _ | identifier _ _ | regex _ _ | matching _ _ _ | importing _ _ =>
    by_cases deep : config.maxDepth.toNat ≤ level <;>
      simp [marks, marksWithin, visits, Config.reached, Mark.tested, Visit.tested, deep]
  | binary left op right ty ihl ihr =>
    by_cases deep : config.maxDepth.toNat ≤ level
    · rw [marks_deep _ deep, config.reached_deep _ deep]
      rfl
    · have offence : config.offence ⟨level, .binary left op right ty⟩ = none := by
        simp [Config.offence, deep]
      have hl := ihl (level + 1)
      have hr := ihr (level + 1)
      unfold Visit.tested at hl hr ⊢
      rw [marks, marksWithin, if_neg deep, visits, Config.reached, if_neg deep, offence,
        Config.reached_append, ← fault]
      cases left.fault config (level + 1) <;> simp [Mark.tested, hl, hr]
  | call callee args ty ih =>
    by_cases deep : config.maxDepth.toNat ≤ level
    · rw [marks_deep _ deep, config.reached_deep _ deep]
      rfl
    · have offence : config.offence ⟨level, .call callee args ty⟩ = none := by
        simp [Config.offence, deep]
      have hargs := marksAll_tested config args (level + 1) fun a ha => ih a ha (level + 1)
      unfold Visit.tested at hargs ⊢
      rw [marks, marksWithin, if_neg deep, visits, Config.reached, if_neg deep, offence]
      simp [Mark.tested, hargs]

end HighIR

/-- Among the visits of an expression, `v` is the first that cannot be lowered, for the reason
`err`, and `before` are the visits before it. -/
structure FirstOffence (config : Config) (visits before : List Visit) (v : Visit)
    (err : LoweringError) : Prop where
  split : ∃ after, visits = before ++ v :: after
  sound : ∀ w ∈ before, config.offence w = none
  offends : config.offence v = some err

namespace FirstOffence

variable {config : Config} {visits before : List Visit} {v : Visit} {err : LoweringError}

theorem findSome?_eq (h : FirstOffence config visits before v err) :
    visits.findSome? config.offence = some err := by
  obtain ⟨after, hvisits⟩ := h.split
  exact List.findSome?_eq_some_iff.2 ⟨before, v, after, hvisits, h.offends, h.sound⟩

/-- A depth too great, a float without a target and a node without one are all that can offend. -/
theorem kinds (h : FirstOffence config visits before v err) :
    err = .depthExceeded config.maxDepth ∨ (∃ text, err = .nonFiniteFloat text) ∨
      ∃ kind, err = .notLowered Stage.codegen kind := by
  have offends := h.offends
  unfold Config.offence at offends
  grind

/-- What surrounds the first offence has no other fault. -/
theorem fault_around {e : HighIR} {level : Nat}
    (h : FirstOffence config (e.visits level) before v err) {w : Visit} (hw : w ∈ before)
    (hv : v ∈ w.node.visits w.level) : w.node.fault config w.level = some err := by
  obtain ⟨after, hvisits⟩ := h.split
  obtain ⟨lead, tail, rfl⟩ := List.append_of_mem hw
  rw [List.append_assoc, List.cons_append] at hvisits
  obtain ⟨rest, hrest⟩ := e.visits_follow level lead _ w hvisits
  have first : (w :: (tail ++ v :: after)).findSome? config.offence = some err := by
    refine List.findSome?_eq_some_iff.2 ⟨w :: tail, v, after, rfl, h.offends, fun u hu => ?_⟩
    exact h.sound u (List.mem_append_right lead hu)
  rw [hrest, List.findSome?_append] at first
  -- the offence lies within the subexpression, so what follows it does not count
  cases inside : (w.node.visits w.level).findSome? config.offence with
  | some err' =>
    rw [inside] at first
    exact inside.trans first
  | none =>
    have sound := List.findSome?_eq_none_iff.1 inside v hv
    rw [h.offends] at sound
    cases sound

theorem reached_eq (h : FirstOffence config visits before v err) :
    config.reached visits = before ++ if config.maxDepth.toNat ≤ v.level then [] else [v] := by
  obtain ⟨after, rfl⟩ := h.split
  rw [config.reached_append, config.reached_of_sound before h.sound,
    List.findSome?_eq_none_iff.2 h.sound, Option.isNone_none, if_pos rfl, Config.reached, h.offends]
  rfl

end FirstOffence

namespace Pipeline

variable {ω δ : Type}

theorem noteAll_listed (es seen : List HighIR) :
    noteAll (fun x seen => seen ++ [x]) es seen = seen ++ es := by
  induction es generalizing seen with
  | nil => simp [noteAll]
  | cons e es ih =>
    have rest := ih (seen ++ [e])
    simpa [noteAll] using rest

/-- A lowering with its rules watched: same outcome, and the world lists what the rules saw. -/
theorem watched_lower_eq (config : Config) (e : HighIR) (tally : Tally) (depth : Nat) :
    (watched (fun x seen => seen ++ [x]) config : Pipeline (List HighIR) δ).lower e
        ⟨tally, depth, []⟩ =
      settle (e.fault config depth) (e.translate config)
        ⟨tally, depth, Visit.tested (config.reached (e.visits depth))⟩ := by
  have run := (watched_conducts _ config :
    (watched (fun x seen => seen ++ [x]) config :
      Pipeline (List HighIR) δ).emitter.Conducts _ _).lower_eq e ⟨tally, depth, []⟩
  rw [lower, run, Ledger.watching_enterAll, noteAll_listed, HighIR.marks_tested]
  rfl

/-- Lowering fails exactly if there is a first offence, and with that; so does the lowering of every
expression around it, and the rules have been tested on the visits up to it and on nothing else. -/
theorem lower_error_iff_firstOffence (config : Config) (e : HighIR) (s : Session ω) (f : Failure) :
    (∃ s', (unchecked config : Pipeline ω δ).lower e s = .error f s') ↔
      ∃ before v err,
        FirstOffence config (e.visits s.depth) before v err ∧ f = .lowering err ∧
        (err = .depthExceeded config.maxDepth ∨ (∃ text, err = .nonFiniteFloat text) ∨
          ∃ kind, err = .notLowered Stage.codegen kind) ∧
        (∀ w ∈ before, v ∈ w.node.visits w.level → ∀ s₁ : Session ω, s₁.depth = w.level →
          ∃ s', (unchecked config : Pipeline ω δ).lower w.node s₁ = .error f s') ∧
        ∃ s' : Session (List HighIR),
          (watched (fun x seen => seen ++ [x]) config : Pipeline (List HighIR) δ).lower e
              ⟨s.tally, s.depth, []⟩ = .error f s' ∧
            s'.world =
              Visit.tested (before ++ if config.maxDepth.toNat ≤ v.level then [] else [v]) := by
  have fails (e : HighIR) (s : Session ω) {err : LoweringError}
      (h : e.fault config s.depth = some err) :
      ∃ s', (unchecked config : Pipeline ω δ).lower e s = .error (.lowering err) s' :=
    ⟨_, by rw [lower_eq, h]; rfl⟩
  constructor
  · rintro ⟨s', hs'⟩
    rw [lower_eq] at hs'
    cases hfault : e.fault config s.depth with
    | none => simp [hfault, settle] at hs'
    | some err =>
      obtain ⟨rfl, -⟩ : Failure.lowering err = f ∧ _ = s' := by simpa [hfault, settle] using hs'
      obtain ⟨before, v, after, hvisits, offends, sound⟩ := List.findSome?_eq_some_iff.1 hfault
      have first : FirstOffence config (e.visits s.depth) before v err :=
        ⟨⟨after, hvisits⟩, sound, offends⟩
      refine ⟨before, v, err, first, rfl, first.kinds, fun w hw hv s₁ hs₁ => ?_, ?_⟩
      · exact fails w.node s₁ (hs₁ ▸ first.fault_around hw hv)
      · refine ⟨_, by rw [watched_lower_eq, hfault]; rfl, ?_⟩
        rw [first.reached_eq]
  · rintro ⟨before, v, err, first, rfl, -⟩
    exact fails e s first.findSome?_eq

end Pipeline

end StagedLowering
