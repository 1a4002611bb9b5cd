import StagedLowering.Proofs.Accord

/-!
Stages under observation. An observed rule notes every node it is tested against, and how its
application to it ended if it claims the node, in a list that is kept beside the world, where no
rule or collaborator can reach it. What is noted while a stage runs is a walk: each rule in turn
is tested against the output of the rules before it, and a failure is the end.
-/
namespace StagedLowering

variable {ω δ α : Type}

/-- What can be seen of a rule at work. -/
inductive Sight where
  | tested (rule : String) (n : Node)
  | applied (rule : String) (n : Node) (outcome : Except Failure Outcome)

namespace Sight

/-- The node that the rule was shown. -/
def node : Sight → Node
  | .tested _ n => n
  | .applied _ n _ => n

/-- The node to go on with, given the one before. -/
def output (current : Node) : Sight → Node
  | .applied _ n (.ok o) => o.node n
  | _ => current

/-- The rule, if this is a test. -/
def tested? : Sight → Option String
  | .tested rule _ => some rule
  | .applied _ _ _ => none

def isApplied : Sight → Bool
  | .tested _ _ => false
  | .applied _ _ _ => true

end Sight

/-- The output of rules that were seen at work on a node. -/
def outputOf (n : Node) (sights : List Sight) : Node := sights.foldl Sight.output n

/-- A world and what was seen so far. -/
structure Observed (ω : Type) where
  world : ω
  sights : List Sight

def Session.observing (s : Session ω) (sights : List Sight) : Session (Observed ω) :=
  ⟨s.tally, s.depth, ⟨s.world, sights⟩⟩

namespace Act

/-- An action on the world, which leaves what was seen alone. -/
def unobserved (a : Act ω α) : Act (Observed ω) α := fun s =>
  match a ⟨s.tally, s.depth, s.world.world⟩ with
  | .ok x s' => .ok x (s'.observing s.world.sights)
  | .error f s' => .error f (s'.observing s.world.sights)

def see (x : Sight) : Act (Observed ω) Unit := fun s =>
  .ok () { s with world := ⟨s.world.world, s.world.sights ++ [x]⟩ }

end Act

/-- Test a rule against a node in the context `c`, and apply it if it claims the node; what it
declines is left unchanged. -/
def Rule.showing (c : Context ω δ) (name : String) (r : Rule ω δ) (n : Node) :
    Act (Observed ω) Outcome := do
  Act.see (.tested name n)
  if r.applies n c then
    let outcome ← Act.attempt (r.apply n c).unobserved
    Act.see (.applied name n outcome)
    Act.resume outcome
  else
    pure .unchanged

/-- The rule at work in the context `c`, under observation. It claims every node, so as to note that
it was tested. -/
def Rule.observed (c : Context ω δ) (name : String) (r : Rule ω δ) : Rule (Observed ω) δ where
  name := name
  applies _ _ := true
  apply n _ := r.showing c name n

def Entry.observed (c : Context ω δ) (entry : Entry ω δ) : Entry (Observed ω) δ where
  name := entry.name
  supply :=
    match entry.supply with
    | .shared r => .shared (r.observed c entry.name)
    | .fresh make => .fresh fun v =>
      match make v.world with
      | (r, world) => (r.observed c entry.name, ⟨world, v.sights⟩)

/-- The engine with all its rules at work in `c` under observation. It does not count, since every
test is an application. -/
def Engine.observed (c : Context ω δ) (E : Engine ω δ) : Engine (Observed ω) δ where
  stages := E.stages.mapValues fun _ entries => entries.map (Entry.observed c)
  tally := E.tally
  collectStats := false

/-- What is seen of the entries of a stage, one after the other, and how they end. -/
inductive Walk (c : Context ω δ) :
    List (Entry ω δ) → Node → List Sight → Except Failure Node → Prop
  | finished (n : Node) : Walk c [] n [] (.ok n)
  | declined {entry : Entry ω δ} {entries : List (Entry ω δ)} {n : Node} {seen : List Sight}
      {result : Except Failure Node} {world : ω} (h : (entry.draw world).1.applies n c = false)
      (rest : Walk c entries n seen result) :
      Walk c (entry :: entries) n (.tested entry.name n :: seen) result
  | applied {entry : Entry ω δ} {entries : List (Entry ω δ)} {n : Node} {seen : List Sight}
      {result : Except Failure Node} {world : ω} {o : Outcome} {s s' : Session ω}
      (h : (entry.draw world).1.applies n c = true)
      (done : (entry.draw world).1.apply n c s = .ok o s')
      (rest : Walk c entries (o.node n) seen result) :
      Walk c (entry :: entries) n
        (.tested entry.name n :: .applied entry.name n (.ok o) :: seen) result
  | failed {entry : Entry ω δ} {entries : List (Entry ω δ)} {n : Node} {world : ω} {f : Failure}
      {s s' : Session ω} (h : (entry.draw world).1.applies n c = true)
      (failed : (entry.draw world).1.apply n c s = .error f s') :
      Walk c (entry :: entries) n
        [.tested entry.name n, .applied entry.name n (.error f)] (.error f)

theorem Act.unobserved_ok {a : Act ω α} {s s' : Session ω} {x : α} (h : a s = .ok x s')
    (sights : List Sight) :
    a.unobserved (s.observing sights) = .ok x (s'.observing sights) := by
  change (match a s with | .ok x s' => _ | .error f s' => _) = _
  rw [h]
  rfl

theorem Act.unobserved_error {a : Act ω α} {s s' : Session ω} {f : Failure} (h : a s = .error f s')
    (sights : List Sight) :
    a.unobserved (s.observing sights) = .error f (s'.observing sights) := by
  change (match a s with | .ok x s' => _ | .error f s' => _) = _
  rw [h]
  rfl

theorem Act.see_observing (x : Sight) (s : Session ω) (sights : List Sight) :
    Act.see x (s.observing sights) = .ok () (s.observing (sights ++ [x])) := rfl

namespace Rule

variable {c : Context ω δ} {r : Rule ω δ} {n : Node} {s s' : Session ω} (name : String)
  (sights : List Sight)

theorem showing_declined (h : r.applies n c = false) :
    r.showing c name n (s.observing sights) =
      .ok .unchanged (s.observing (sights ++ [.tested name n])) := by
  rw [showing, Act.bind_ok (Act.see_observing ..), h]
  rfl

theorem showing_done (h : r.applies n c = true) {o : Outcome} (done : r.apply n c s = .ok o s') :
    r.showing c name n (s.observing sights) =
      .ok o (s'.observing (sights ++ [.tested name n, .applied name n (.ok o)])) := by
  have ended := Act.attempt_ok (Act.unobserved_ok done (sights ++ [.tested name n]))
  rw [showing, Act.bind_ok (Act.see_observing ..), h, if_pos rfl, Act.bind_ok ended,
    Act.bind_ok (Act.see_observing ..), List.append_assoc]
  rfl

theorem showing_failed (h : r.applies n c = true) {f : Failure}
    (failed : r.apply n c s = .error f s') :
    r.showing c name n (s.observing sights) =
      .error f (s'.observing (sights ++ [.tested name n, .applied name n (.error f)])) := by
  have ended := Act.attempt_error (Act.unobserved_error failed (sights ++ [.tested name n]))
  rw [showing, Act.bind_ok (Act.see_observing ..), h, if_pos rfl, Act.bind_ok ended,
    Act.bind_ok (Act.see_observing ..), List.append_assoc]
  rfl

end Rule

namespace Entry

variable (c : Context ω δ) (entry : Entry ω δ)

theorem draw_observed (v : Observed ω) :
    (entry.observed c).draw v =
      ((entry.draw v.world).1.observed c entry.name, ⟨(entry.draw v.world).2, v.sights⟩) := by
  unfold draw observed
  cases entry.supply <;> rfl

theorem drawn_observed (s : Session ω) (sights : List Sight) :
    (entry.observed c).drawn (s.observing sights) = (entry.drawn s).observing sights := by
  rw [drawn, draw_observed]
  rfl

end Entry

namespace Engine

theorem entries_observed (c : Context ω δ) (E : Engine ω δ) (stage : String) :
    (E.observed c).entries stage = (E.entries stage).map (Entry.observed c) := by
  unfold entries observed
  rw [OrderedMap.get?_mapValues]
  cases E.stages.get? stage <;> rfl

theorem counted_silent {E : Engine ω δ} (silent : E.collectStats = false) (stage rule : String)
    (v : Verdict) (s : Session ω) : E.counted stage rule v s = s := by
  rw [counted, silent]
  rfl

variable {O : Engine (Observed ω) δ} (silent : O.collectStats = false) (stage : String)
  (c : Context ω δ) (c' : Context (Observed ω) δ) (n : Node) (entry : Entry ω δ) (s : Session ω)
  (sights : List Sight)

include silent

/-- An observed entry passes on what its rule makes of a node. -/
theorem observed_ok {o : Outcome} {s' : Session ω} {seen : List Sight}
    (h : (entry.draw s.world).1.showing c entry.name n ((entry.drawn s).observing sights) =
      .ok o (s'.observing seen)) :
    O.applyEntry stage c' n (entry.observed c) (s.observing sights) =
      .ok (o.node n) (s'.observing seen) := by
  have claimed : ((entry.observed c).draw (s.observing sights).world).1.applies n c' = true := by
    rw [Entry.draw_observed]
    rfl
  have done : ((entry.observed c).draw (s.observing sights).world).1.apply n c'
      ((entry.observed c).drawn (s.observing sights)) = .ok o (s'.observing seen) := by
    rw [Entry.draw_observed, Entry.drawn_observed]
    exact h
  rw [O.applyEntry_done stage c' n _ _ claimed done, counted_silent silent]

theorem observed_error {f : Failure} {s' : Session ω} {seen : List Sight}
    (h : (entry.draw s.world).1.showing c entry.name n ((entry.drawn s).observing sights) =
      .error f (s'.observing seen)) :
    O.applyEntry stage c' n (entry.observed c) (s.observing sights) =
      .error f (s'.observing seen) := by
  have claimed : ((entry.observed c).draw (s.observing sights).world).1.applies n c' = true := by
    rw [Entry.draw_observed]
    rfl
  have failed : ((entry.observed c).draw (s.observing sights).world).1.apply n c'
      ((entry.observed c).drawn (s.observing sights)) = .error f (s'.observing seen) := by
    rw [Entry.draw_observed, Entry.drawn_observed]
    exact h
  rw [O.applyEntry_failed stage c' n _ _ claimed failed, counted_silent silent]

/-- An observed stage follows a walk, and comes to what the stage itself comes to where nothing is
counted. -/
theorem observed_walk {E : Engine ω δ} (quiet : E.collectStats = false) (stage' : String)
    (entries : List (Entry ω δ)) :
    ∃ (seen : List Sight) (result : Except Failure Node) (s' : Session ω),
      Walk c entries n seen result ∧
      (entries.map (Entry.observed c)).foldlM (O.applyEntry stage c') n (s.observing sights) =
        Act.resume result (s'.observing (sights ++ seen)) ∧
      entries.foldlM (E.applyEntry stage' c) n s = Act.resume result s' := by
  -- What is seen so far grows with every entry, so the induction is for any list of sights.
  induction entries generalizing n s sights with
  | nil => exact ⟨[], .ok n, s, .finished n, by simp [Act.resume], rfl⟩
  | cons entry entries ih =>
    rw [List.map_cons, List.foldlM_cons, List.foldlM_cons]
    cases entry.turn c n s with
    | declined h =>
      have step := observed_ok silent stage c c' n entry s sights
        (Rule.showing_declined entry.name sights h)
      obtain ⟨seen, result, s', walk, shown, run⟩ :=
        ih n (entry.drawn s) (sights ++ [.tested entry.name n])
      refine ⟨.tested entry.name n :: seen, result, s', .declined h walk, ?_, ?_⟩
      · rw [Act.bind_ok step]
        simpa [Outcome.node] using shown
      · rw [Act.bind_ok (E.applyEntry_declined stage' c n s entry h), run]
    | done h o s₁ done =>
      have step := observed_ok silent stage c c' n entry s sights
        (Rule.showing_done entry.name sights h done)
      obtain ⟨seen, result, s', walk, shown, run⟩ := ih (o.node n) s₁
        (sights ++ [.tested entry.name n, .applied entry.name n (.ok o)])
      refine ⟨.tested entry.name n :: .applied entry.name n (.ok o) :: seen, result, s',
        .applied h done walk, ?_, ?_⟩
      · rw [Act.bind_ok step]
        simpa using shown
      · rw [Act.bind_ok (E.applyEntry_done stage' c n s entry h done), counted_silent quiet, run]
    | failed h f s₁ failed =>
      have step := observed_error silent stage c c' n entry s sights
        (Rule.showing_failed entry.name sights h failed)
      refine ⟨_, .error f, s₁, .failed h failed, ?_, ?_⟩
      · rw [Act.bind_error step]
        rfl
      · rw [Act.bind_error (E.applyEntry_failed stage' c n s entry h failed), counted_silent quiet]
        rfl

end Engine

/-! ### What a walk says about the order of things -/

/-- Every rule was shown the output of the rules before it. -/
def Current (n : Node) (seen : List Sight) : Prop :=
  ∀ before x after, seen = before ++ x :: after → x.node = outputOf n before

/-- Nothing was seen after a failure, which is the result. -/
def EndsInFailure (seen : List Sight) (result : Except Failure Node) : Prop :=
  ∀ before rule n f after, seen = before ++ .applied rule n (.error f) :: after →
    after = [] ∧ result = .error f

/-- The rules are tested in turn, each on the output of those before it: all of them, if the last
output is the result, and otherwise up to the failure that is. -/
structure Orderly (rules : List String) (n : Node) (seen : List Sight)
    (result : Except Failure Node) : Prop where
  order : seen.filterMap Sight.tested? <+: rules
  current : Current n seen
  success : ∀ n', result = .ok n' → seen.filterMap Sight.tested? = rules ∧ n' = outputOf n seen
  failure : EndsInFailure seen result

theorem Current.nil (n : Node) : Current n [] := by simp [Current]

theorem Current.cons {n : Node} {x : Sight} {seen : List Sight} (h : x.node = n)
    (rest : Current (x.output n) seen) : Current n (x :: seen) := by
  intro before y after split
  cases before with
  | nil =>
    obtain ⟨rfl, -⟩ := List.cons_eq_cons.1 split
    exact h
  | cons b before =>
    obtain ⟨rfl, tail⟩ := List.cons_eq_cons.1 split
    exact rest before y after tail

theorem EndsInFailure.nil (result : Except Failure Node) : EndsInFailure [] result := by
  simp [EndsInFailure]

theorem EndsInFailure.cons {x : Sight} {seen : List Sight} {result : Except Failure Node}
    (h : ∀ rule n f, x = .applied rule n (.error f) → seen = [] ∧ result = .error f)
    (rest : EndsInFailure seen result) : EndsInFailure (x :: seen) result := by
  intro before rule n f after split
  cases before with
  | nil =>
    obtain ⟨failed, rfl⟩ := List.cons_eq_cons.1 split
    exact h rule n f failed
  | cons b before => exact rest before rule n f after (List.cons_eq_cons.1 split).2

theorem Walk.orderly {c : Context ω δ} {entries : List (Entry ω δ)} {n : Node}
    {seen : List Sight} {result : Except Failure Node} (walk : Walk c entries n seen result) :
    Orderly (entries.map Entry.name) n seen result := by
  induction walk with
  | finished n =>
    exact ⟨List.nil_prefix, .nil n, fun n' h => ⟨rfl, (Except.ok.inj h).symm⟩, .nil _⟩
  | declined h rest ih =>
    exact ⟨(List.prefix_cons_inj _).2 ih.order, .cons rfl ih.current,
      fun n' h => ⟨congrArg _ (ih.success n' h).1, (ih.success n' h).2⟩,
      .cons (by simp) ih.failure⟩
  | applied h done rest ih =>
    exact ⟨(List.prefix_cons_inj _).2 ih.order, .cons rfl (.cons rfl ih.current),
      fun n' h => ⟨congrArg _ (ih.success n' h).1, (ih.success n' h).2⟩,
      .cons (by simp) (.cons (by simp) ih.failure)⟩
  | failed h failed =>
    exact ⟨(List.prefix_cons_inj _).2 List.nil_prefix, .cons rfl (.cons rfl (.nil _)),
      by simp, .cons (by simp) (.cons (by simp) (.nil _))⟩

end StagedLowering
