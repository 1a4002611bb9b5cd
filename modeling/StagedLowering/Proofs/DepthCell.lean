import Mathlib.Data.List.Forall2
import StagedLowering.Proofs.Gauged
import StagedLowering.Proofs.Respect

/-!
The count of lowerings under way. An emitter whose rules and lowerers are gauged does what the
emitter does, and what it notes nests. So the count is zero between any two uses of an emitter and
the number of lowerings around it in between, and no use is changed by those before it.
-/
namespace StagedLowering

variable {ω ω' δ α : Type}

theorem SameEnd.outcomeOf_eq {R : Session ω → Session ω' → Prop}
    {r : EStateM.Result Failure (Session ω) α} {r' : EStateM.Result Failure (Session ω') α}
    (h : SameEnd R r r') : outcomeOf r = outcomeOf r' := by
  cases h <;> rfl

theorem SameEnd.sessionOf_related {R : Session ω → Session ω' → Prop}
    {r : EStateM.Result Failure (Session ω) α} {r' : EStateM.Result Failure (Session ω') α}
    (h : SameEnd R r r') : R (sessionOf r) (sessionOf r') := by
  cases h with
  | ok _ related => exact related
  | error _ related => exact related

/-- The same counters and the same count of lowerings, whatever the worlds. -/
structure Session.Tied (s : Session ω) (t : Session ω') : Prop where
  tally : s.tally = t.tally
  depth : s.depth = t.depth

section Tied

/-- Notes are not seen by what is noted. -/
theorem Act.between_accords {a : Act (List Moment) α} {b : Act ω α} (before after : Nat → Moment)
    (h : a.Accords Session.Tied b) : (between before after a).Accords Session.Tied b := by
  intro s t tied
  have inner := h (s.noted before) t ⟨tied.tally, tied.depth⟩
  rw [between_apply]
  rcases inner.inv with ⟨x, s', t', ha, hb, tied'⟩ | ⟨f, s', t', ha, hb, tied'⟩
  · rw [ha, hb]
    exact .ok x ⟨tied'.tally, tied'.depth⟩
  · rw [ha, hb]
    exact .error f ⟨tied'.tally, tied'.depth⟩

theorem Act.between_accords_map {a : Option (Act (List Moment) α)} {b : Option (Act ω α)}
    (before after : Nat → Moment) (h : Option.Rel (Accords Session.Tied) a b) :
    Option.Rel (Accords Session.Tied) (a.map (between before after)) b := by
  cases h with
  | none => exact .none
  | some h => exact .some (between_accords before after h)

/-- Rules do the same with a node if its operands are lowered alike. -/
theorem HighIR.convert_accords {R : Session ω → Session ω' → Prop} (config : Config)
    {lower : HighIR → Act ω Target} {lower' : HighIR → Act ω' Target}
    (h : ∀ e, (lower e).Accords R (lower' e)) (e : HighIR) :
    Option.Rel (Act.Accords R) (e.convert config lower) (e.convert config lower') := by
  cases e with
  | literal value => exact .some (.ofExcept _)
  | identifier name ty => exact .some (.pure _)
  | binary left op right ty =>
    exact .some (.bind (h left) fun _ => .bind (h right) fun _ => .pure _)
  | regex pattern flags => exact .some (.pure _)
  | call callee args ty => exact .some (.bind (.mapM args fun a _ => h a) fun _ => .pure _)
  | matching scrutinee arms ty => exact .none
  | importing module functions => exact .none

theorem Ledger.enter_tied (config : Config) (mark : Mark) {s : Session ω} {t : Session ω'}
    (tied : s.Tied t) :
    ((Ledger.counting config).enter mark s).Tied ((Ledger.counting config).enter mark t) := by
  refine ⟨?_, tied.depth⟩
  cases mark <;> simp [enter, counting, tied.tally]

theorem Ledger.stage_accords (config : Config) (e : HighIR) {conversion : Option (Act ω Target)}
    {conversion' : Option (Act ω' Target)}
    (h : Option.Rel (Act.Accords Session.Tied) conversion conversion') :
    ((Ledger.counting config).stage e conversion).Accords Session.Tied
      ((Ledger.counting config).stage e conversion') := by
  intro s t tied
  have begun := enter_tied config (.begun e) tied
  cases h with
  | none => exact .ok _ begun
  | some converted =>
    simp only [stage]
    rcases (converted _ _ begun).inv with ⟨x, s', t', ha, hb, tied'⟩ | ⟨f, s', t', ha, hb, tied'⟩
    · rw [ha, hb]
      exact .ok _ (enter_tied config _ tied')
    · rw [ha, hb]
      exact .error f (enter_tied config _ tied')

/-- A gauged emitter does what the emitter does. -/
theorem Emitter.Gauges.lowerWithin_accords {config : Config} {m : Emitter (List Moment) δ}
    {m' : Emitter ω δ} (h : m.Gauges config) (h' : m'.Conducts config (.counting config))
    (levels : Nat) (e : HighIR) :
    (gauged (m.lowerWithin levels) e).Accords Session.Tied (m'.lowerWithin levels e) := by
  refine Act.between_accords _ _ ?_
  induction levels generalizing e with
  | zero =>
    rw [lowerWithin, lowerWithin, h.maxDepth, h'.maxDepth]
    exact .fail _
  | succ levels ih =>
    have asked : (Act.depth : Act (List Moment) Nat).Accords Session.Tied
        (Act.depth : Act ω Nat) := by
      intro s t tied
      rw [Act.depth_apply, Act.depth_apply, tied.depth]
      exact .ok _ tied
    have moved (d : Nat) : (Act.setDepth d : Act (List Moment) Unit).Accords Session.Tied
        (Act.setDepth d : Act ω Unit) :=
      fun s t tied => .ok () ⟨tied.tally, rfl⟩
    have validated : (m.engine.validate Stage.codegen (.high e)
        (m.context (m.lowerWithin levels))).Accords Session.Tied
          (m'.engine.validate Stage.codegen (.high e) (m'.context (m'.lowerWithin levels))) := by
      intro s t tied
      rw [h.validate, h'.validate]
      exact .ok () tied
    have converted := HighIR.convert_accords config
      (fun a => Act.between_accords .entered .left (ih a)) e
    have applied := Ledger.stage_accords config e
      (Act.between_accords_map .applying .applied converted)
    rw [← h'.apply] at applied
    rw [lowerWithin, lowerWithin, h.maxDepth, h'.maxDepth]
    refine .bind asked fun d => ?_
    split
    · exact .fail _
    · refine .bind validated fun _ => .bind (moved _) fun _ => ?_
      rw [h.apply]
      exact .bind (.attempt applied) fun _ => .bind (moved _) fun _ =>
        .bind (.resume _) fun _ => .ofExcept _

end Tied

namespace Emitter

theorem sessionOf_leaf (n : Node) (s : Session ω) : sessionOf (leaf n s) = s := by
  unfold leaf
  split
  next value => cases literalTarget value <;> rfl
  · rfl
  · rfl

/-- The ways to use an emitter. -/
inductive Use where
  | lower (e : HighIR)
  | leaf (n : Node)
  | call (n : Node)

namespace Use

/-- What an emitter that lowers by `lower` does when it is used. -/
def run (lower : HighIR → Act ω Target) : Use → Act ω Node
  | .lower e => do
    let t ← lower e
    pure (.target t)
  | .leaf n => Emitter.leaf n
  | .call n => Emitter.call lower n

theorem run_accords {R : Session ω → Session ω' → Prop} {lower : HighIR → Act ω Target}
    {lower' : HighIR → Act ω' Target} (h : ∀ e, (lower e).Accords R (lower' e)) (u : Use) :
    (u.run lower).Accords R (u.run lower') := by
  cases u with
  | lower e => exact .bind (h e) fun _ => .pure _
  | leaf n => exact leaf_accords R n
  | call n => exact call_accords R h n

/-- The moments of a use. -/
def moments (config : Config) : Use → List Moment
  | .lower e => e.moments config 0
  | .call (.high (.call _ args _)) => HighIR.momentsAll config 0 args
  | _ => []

theorem nested_moments (config : Config) (u : Use) :
    Nested config.maxDepth.toNat 0 (u.moments config) := by
  unfold moments
  split
  · exact .moments config 0 _
  · exact .momentsAll fun a _ => .moments config 0 a
  · exact .nil 0

/-- A use of a gauged emitter leaves its moments behind, and the count where it was. -/
theorem run_gauged {config : Config} {m : Emitter (List Moment) δ} (h : m.Gauges config) (u : Use)
    (s : Session (List Moment)) (idle : s.depth = 0) :
    (sessionOf (u.run (gauged m.lower) s)).depth = 0 ∧
      (sessionOf (u.run (gauged m.lower) s)).world = s.world ++ u.moments config := by
  have still : s.depth = 0 ∧ s.world = s.world ++ [] := ⟨idle, (List.append_nil _).symm⟩
  cases u with
  | lower e => exact ((h.lower_runs e 0).bind_pure Node.target s idle).2
  | leaf n =>
    rw [run, sessionOf_leaf]
    exact still
  | call n =>
    cases n with
    | high e =>
      cases e with
      | call callee args ty =>
        have lowered := h.mapM_lower_runs args 0
        exact (lowered.bind_pure (fun ts => Node.target (.callNamed callee ts)) s idle).2
      | _ => exact still
    | _ => exact still

end Use

/-- A use that has come to its end. -/
structure Service (ω : Type) where
  before : Session ω
  outcome : Except Failure Node
  after : Session ω

/-- One emitter is used again and again, whatever comes of it each time. -/
def serve (lower : HighIR → Act ω Target) : List Use → Session ω → List (Service ω)
  | [], _ => []
  | u :: uses, s =>
    ⟨s, outcomeOf (u.run lower s), sessionOf (u.run lower s)⟩ ::
      serve lower uses (sessionOf (u.run lower s))

/-- What each use keeps of the session before it holds before all of them. -/
theorem serve_forall {lower : HighIR → Act ω Target} {I : Session ω → Prop}
    {Q : Use → Service ω → Prop}
    (keeps : ∀ (u : Use) s, I s → I (sessionOf (u.run lower s)))
    (done : ∀ (u : Use) s, I s → Q u ⟨s, outcomeOf (u.run lower s), sessionOf (u.run lower s)⟩)
    (uses : List Use) (s : Session ω) (start : I s) :
    List.Forall₂ Q uses (serve lower uses s) := by
  induction uses generalizing s with
  | nil => exact .nil
  | cons u uses ih => exact .cons (done u s start) (ih _ (keeps u s start))

/-- Emitters that lower in accord serve in accord. -/
theorem serve_accords {R : Session ω → Session ω' → Prop} {lower : HighIR → Act ω Target}
    {lower' : HighIR → Act ω' Target} (h : ∀ e, (lower e).Accords R (lower' e))
    (uses : List Use) (s : Session ω) (t : Session ω') (start : R s t) :
    List.Forall₂ (fun x y => R x.before y.before ∧ x.outcome = y.outcome ∧ R x.after y.after)
      (serve lower uses s) (serve lower' uses t) := by
  induction uses generalizing s t with
  | nil => exact .nil
  | cons u uses ih =>
    have done := Use.run_accords h u s t start
    exact .cons ⟨start, done.outcomeOf_eq, done.sessionOf_related⟩ (ih _ _ done.sessionOf_related)

/-- Neither emitter has a lowering under way. -/
def BothIdle (s : Session ω) (t : Session ω) : Prop := s.depth = 0 ∧ t.depth = 0

end Emitter

namespace Pipeline

variable (config : Config)

/-- What a lowering comes to, when none is under way, has nothing to do with the session. -/
theorem emitter_lower_accords (e : HighIR) :
    ((unchecked config : Pipeline ω δ).emitter.lower e).Accords Emitter.BothIdle
      ((unchecked config : Pipeline ω δ).emitter.lower e) := by
  rintro s t ⟨hs, ht⟩
  have idle : Emitter.BothIdle
      ((Ledger.counting config).enterAll (e.marks config 0) s)
      ((Ledger.counting config).enterAll (e.marks config 0) t) := by
    simp [Emitter.BothIdle, hs, ht]
  rw [(conducts config).lower_eq, (conducts config).lower_eq, hs, ht]
  cases e.fault config 0 with
  | none => exact .ok _ idle
  | some err => exact .error _ idle

/-- However an emitter is used, the count of lowerings is zero between the uses and is, at any time
in between, the number of lowerings whose rules are being applied, which the limit bounds. What
comes of each use is what would come of it as the first use of a new emitter. -/
theorem emitter_has_no_memory (uses : List Emitter.Use) (tally : Tally) (world : ω) :
    let m : Emitter ω δ := (unchecked config).emitter
    let m' : Emitter (List Moment) δ := (gauged config).emitter
    let plain := Emitter.serve m.lower uses ⟨tally, 0, world⟩
    let noted := Emitter.serve (Emitter.gauged m'.lower) uses ⟨tally, 0, []⟩
    List.Forall₂ (fun u x => x.before.depth = 0 ∧ x.after.depth = 0 ∧
      ∀ world', x.outcome = outcomeOf (u.run m.lower ⟨m.engine.tally, 0, world'⟩)) uses plain ∧
    List.Forall₂ (fun x y => x.before.Tied y.before ∧ x.outcome = y.outcome ∧ x.after.Tied y.after)
      noted plain ∧
    List.Forall₂ (fun u x => x.after.world = x.before.world ++ u.moments config ∧
      Nested config.maxDepth.toNat 0 (u.moments config) ∧
        ∀ moment ∈ u.moments config, moment.depth ≤ config.maxDepth.toNat) uses noted := by
  intro m m' plain noted
  have alike (u : Emitter.Use) :=
    Emitter.Use.run_accords (fun e => emitter_lower_accords (ω := ω) (δ := δ) config e) u
  have notes (u : Emitter.Use) := Emitter.Use.run_gauged (gauges (δ := δ) config) u
  refine ⟨?_, ?_, ?_⟩
  · refine Emitter.serve_forall (I := fun s => s.depth = 0) (fun u s idle => ?_)
      (fun u s idle => ?_) uses _ rfl
    · exact (alike u s s ⟨idle, idle⟩).sessionOf_related.1
    · -- a use is compared with itself in the session of a new emitter
      have back := (alike u s s ⟨idle, idle⟩).sessionOf_related.1
      exact ⟨idle, back, fun world' => (alike u s _ ⟨idle, rfl⟩).outcomeOf_eq⟩
  · exact Emitter.serve_accords
      ((gauges config).lowerWithin_accords (conducts config) _) uses _ _ ⟨rfl, rfl⟩
  · refine Emitter.serve_forall (I := fun s => s.depth = 0) (fun u s idle => ?_)
      (fun u s idle => ?_) uses _ rfl
    · exact (notes u s idle).1
    · have nested := u.nested_moments config
      exact ⟨(notes u s idle).2, nested, nested.depth_le (Nat.zero_le _)⟩

/-- Lowering `f(g(x))` fails at its third level, and the next use finds the count at zero again. -/
theorem emitter_idle_after_failure :
    let config : Config := { maxDepth := 2 }
    let x := HighIR.identifier "x" .unknown
    let uses : List Emitter.Use :=
      [.lower (.call "f" [.call "g" [x] .unknown] .unknown), .lower (.call "f" [x] .unknown)]
    let m : Emitter Unit Unit := (unchecked config).emitter
    let m' : Emitter (List Moment) Unit := (gauged config).emitter
    let failure : List Moment := [.entered 0, .applying 1, .entered 1, .applying 2, .entered 2,
      .left 2, .applied 2, .left 1, .applied 1, .left 0]
    let success : List Moment := [.entered 0, .applying 1, .entered 1, .applying 2, .applied 2,
      .left 1, .applied 1, .left 0]
    (Emitter.serve m.lower uses ⟨.empty, 0, ()⟩).map (fun x => (x.outcome.isOk, x.after.depth)) =
      [(false, 0), (true, 0)] ∧
    (Emitter.serve (Emitter.gauged m'.lower) uses ⟨.empty, 0, []⟩).map (·.after.world) =
      [failure, failure ++ success] := by
  intro config x uses m m' failure success
  have evaluated : uses.map (·.moments config) = [failure, success] := by decide +kernel
  obtain ⟨-, -, notes⟩ := emitter_has_no_memory (δ := Unit) config uses .empty ()
  refine ⟨by decide +kernel, ?_⟩
  clear_value config
  simp only [uses, Emitter.serve, List.forall₂_cons, List.map] at notes evaluated ⊢
  obtain ⟨⟨first, -⟩, ⟨second, -⟩, -⟩ := notes
  simp only [List.cons.injEq, and_true] at evaluated
  rw [second, first, evaluated.1, evaluated.2]
  rfl

end Pipeline

end StagedLowering
