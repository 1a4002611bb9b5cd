import StagedLowering.Engine

/-!
What registering an entry adds to a stage, and what folding a node through a stage of shared rules
does: a rule that does not claim the node is passed over, and the outcome of the one that does is
counted, whether it is a node or a failure.
-/
namespace StagedLowering

section

variable {ω α : Type}

/-- The session in which an action has ended. -/
def sessionOf : EStateM.Result Failure (Session ω) α → Session ω
  | .ok _ s | .error _ s => s

def outcomeOf : EStateM.Result Failure (Session ω) α → Except Failure α
  | .ok x _ => .ok x
  | .error f _ => .error f

end

namespace Act

variable {ω α β : Type}

theorem bind_ok {x : Act ω α} {f : α → Act ω β} {s s' : Session ω} {a : α}
    (h : x s = .ok a s') : (x >>= f) s = f a s' := by
  simp [bind, EStateM.bind, h]

theorem bind_error {x : Act ω α} {f : α → Act ω β} {s s' : Session ω} {e : Failure}
    (h : x s = .error e s') : (x >>= f) s = .error e s' := by
  simp [bind, EStateM.bind, h]

@[simp] theorem pure_apply (a : α) (s : Session ω) : (pure a : Act ω α) s = .ok a s := rfl

@[simp] theorem depth_apply (s : Session ω) : (depth : Act ω Nat) s = .ok s.depth s := rfl

@[simp] theorem setDepth_apply (n : Nat) (s : Session ω) :
    (setDepth n : Act ω Unit) s = .ok () { s with depth := n } := rfl

end Act

namespace Context

variable {ω δ : Type}

/-- Nothing is reported absent when every key is there. -/
theorem absent_eq_nil (c : Context ω δ) (keys : List Key) (h : ∀ k ∈ keys, c.has k = true) :
    c.absent keys = [] := by
  unfold absent
  induction keys with
  | nil => rfl
  | cons k keys ih =>
    rw [List.foldl_cons, h k List.mem_cons_self]
    exact ih fun k' hk' => h k' (List.mem_cons_of_mem k hk')

theorem require_eq_ok (c : Context ω δ) (keys : List Key) (h : ∀ k ∈ keys, c.has k = true) :
    c.require keys = .ok () := by
  rw [require, c.absent_eq_nil keys h]

end Context

namespace Entry

variable {ω δ : Type} (entry : Entry ω δ)

/-- The rule that an entry uses in a world, and the world once it is there. -/
def draw (world : ω) : Rule ω δ × ω :=
  match entry.supply with
  | .shared r => (r, world)
  | .fresh make => make world

/-- The session once an entry has its rule. -/
def drawn (s : Session ω) : Session ω := { s with world := (entry.draw s.world).2 }

theorem rule_apply (s : Session ω) : entry.rule s = .ok (entry.draw s.world).1 (entry.drawn s) := by
  unfold rule drawn draw
  cases entry.supply with
  | shared r => rfl
  | fresh make => rfl

/-- The rules that entries use one after the other, and the world once they are all there. -/
def drawAll : List (Entry ω δ) → ω → List (Rule ω δ) × ω
  | [], world => ([], world)
  | entry :: entries, world =>
    let first := entry.draw world
    let others := drawAll entries first.2
    (first.1 :: others.1, others.2)

theorem drawAll_shared (rules : List (Rule ω δ)) (world : ω) :
    drawAll (rules.map ofRule) world = (rules, world) := by
  induction rules with
  | nil => rfl
  | cons r rules ih =>
    have first : (ofRule r).draw world = (r, world) := rfl
    rw [List.map_cons, drawAll, first, ih]

/-- How the turn of an entry goes: its rule declines the node, makes something of it, or fails. -/
inductive Turn (c : Context ω δ) (n : Node) (s : Session ω) : Prop
  | declined (h : (entry.draw s.world).1.applies n c = false)
  | done (h : (entry.draw s.world).1.applies n c = true) (o : Outcome) (s' : Session ω)
      (done : (entry.draw s.world).1.apply n c (entry.drawn s) = .ok o s')
  | failed (h : (entry.draw s.world).1.applies n c = true) (f : Failure) (s' : Session ω)
      (failed : (entry.draw s.world).1.apply n c (entry.drawn s) = .error f s')

theorem turn (c : Context ω δ) (n : Node) (s : Session ω) : entry.Turn c n s := by
  cases h : (entry.draw s.world).1.applies n c with
  | false => exact .declined h
  | true =>
    cases ended : (entry.draw s.world).1.apply n c (entry.drawn s) with
    | ok o s' => exact .done h o s' ended
    | error f s' => exact .failed h f s' ended

end Entry

namespace Engine

variable {ω δ : Type} (E : Engine ω δ)

/-- An entry goes to the end of its own stage and leaves the other stages alone. -/
theorem entries_register (stage stage' : String) (entry : Entry ω δ) :
    (E.register stage entry).entries stage' =
      if stage = stage' then E.entries stage' ++ [entry] else E.entries stage' := by
  unfold entries register OrderedMap.modify
  rw [OrderedMap.get?_insert]
  split
  next h => rw [h]; rfl
  next => rfl

/-- The session after one application is counted. -/
def counted (stage rule : String) (v : Verdict) (s : Session ω) : Session ω :=
  if E.collectStats then { s with tally := s.tally.record stage rule v } else s

theorem record_apply (stage rule : String) (outcome : Except Failure Outcome) (s : Session ω) :
    E.record stage rule outcome s = .ok () (E.counted stage rule (.ofOutcome outcome) s) := by
  unfold record counted
  split <;> rfl

@[simp] theorem counted_depth (stage rule : String) (v : Verdict) (s : Session ω) :
    (E.counted stage rule v s).depth = s.depth := by
  unfold counted
  split <;> rfl

@[simp] theorem counted_world (stage rule : String) (v : Verdict) (s : Session ω) :
    (E.counted stage rule v s).world = s.world := by
  unfold counted
  split <;> rfl

variable (stage : String) (c : Context ω δ) (n : Node) (s : Session ω)

/-- The three ways in which the turn of an entry can go. -/
theorem applyEntry_declined (entry : Entry ω δ) (h : (entry.draw s.world).1.applies n c = false) :
    E.applyEntry stage c n entry s = .ok n (entry.drawn s) := by
  rw [applyEntry, Act.bind_ok (entry.rule_apply s), h]
  rfl

theorem applyEntry_done (entry : Entry ω δ) (h : (entry.draw s.world).1.applies n c = true)
    {o : Outcome} {s' : Session ω}
    (done : (entry.draw s.world).1.apply n c (entry.drawn s) = .ok o s') :
    E.applyEntry stage c n entry s =
      .ok (o.node n) (E.counted stage entry.name (.ofOutcome (.ok o)) s') := by
  rw [applyEntry, Act.bind_ok (entry.rule_apply s), h, if_pos rfl,
    Act.bind_ok (Act.attempt_ok done), Act.bind_ok (E.record_apply ..)]
  rfl

theorem applyEntry_failed (entry : Entry ω δ) (h : (entry.draw s.world).1.applies n c = true)
    {f : Failure} {s' : Session ω}
    (failed : (entry.draw s.world).1.apply n c (entry.drawn s) = .error f s') :
    E.applyEntry stage c n entry s = .error f (E.counted stage entry.name .failed s') := by
  rw [applyEntry, Act.bind_ok (entry.rule_apply s), h, if_pos rfl,
    Act.bind_ok (Act.attempt_error failed), Act.bind_ok (E.record_apply ..)]
  rfl

theorem applyEntry_unclaimed {r : Rule ω δ} (h : r.applies n c = false) :
    E.applyEntry stage c n (.ofRule r) s = .ok n s :=
  E.applyEntry_declined stage c n s (.ofRule r) h

theorem applyEntry_claimed_ok {r : Rule ω δ} (h : r.applies n c = true) {outcome : Outcome}
    {s' : Session ω} (done : r.apply n c s = .ok outcome s') :
    E.applyEntry stage c n (.ofRule r) s =
      .ok (outcome.node n) (E.counted stage r.name (.ofOutcome (.ok outcome)) s') :=
  E.applyEntry_done stage c n s (.ofRule r) h done

theorem applyEntry_claimed_error {r : Rule ω δ} (h : r.applies n c = true) {f : Failure}
    {s' : Session ω} (done : r.apply n c s = .error f s') :
    E.applyEntry stage c n (.ofRule r) s = .error f (E.counted stage r.name .failed s') :=
  E.applyEntry_failed stage c n s (.ofRule r) h done

/-- A stage passes a node on unchanged if none of its rules claims it. -/
theorem foldlM_unclaimed (rules : List (Rule ω δ)) (h : ∀ r ∈ rules, r.applies n c = false) :
    (rules.map Entry.ofRule).foldlM (E.applyEntry stage c) n s = .ok n s := by
  induction rules with
  | nil => rfl
  | cons r rules ih =>
    rw [List.map_cons, List.foldlM_cons,
      Act.bind_ok (E.applyEntry_unclaimed stage c n s (h r List.mem_cons_self))]
    exact ih fun r' hr' => h r' (List.mem_cons_of_mem r hr')

/-- The first rule that claims the node decides what the rest of the stage gets. -/
theorem foldlM_claimed_ok (before after : List (Rule ω δ)) {r : Rule ω δ}
    (hbefore : ∀ r ∈ before, r.applies n c = false) (h : r.applies n c = true)
    {outcome : Outcome} {s' : Session ω} (done : r.apply n c s = .ok outcome s') :
    ((before ++ r :: after).map Entry.ofRule).foldlM (E.applyEntry stage c) n s =
      (after.map Entry.ofRule).foldlM (E.applyEntry stage c) (outcome.node n)
        (E.counted stage r.name (.ofOutcome (.ok outcome)) s') := by
  rw [List.map_append, List.foldlM_append,
    Act.bind_ok (E.foldlM_unclaimed stage c n s before hbefore), List.map_cons, List.foldlM_cons,
    Act.bind_ok (E.applyEntry_claimed_ok stage c n s h done)]

/-- Its failure ends the stage. -/
theorem foldlM_claimed_error (before after : List (Rule ω δ)) {r : Rule ω δ}
    (hbefore : ∀ r ∈ before, r.applies n c = false) (h : r.applies n c = true)
    {f : Failure} {s' : Session ω} (done : r.apply n c s = .error f s') :
    ((before ++ r :: after).map Entry.ofRule).foldlM (E.applyEntry stage c) n s =
      .error f (E.counted stage r.name .failed s') := by
  rw [List.map_append, List.foldlM_append,
    Act.bind_ok (E.foldlM_unclaimed stage c n s before hbefore), List.map_cons, List.foldlM_cons,
    Act.bind_error (E.applyEntry_claimed_error stage c n s h done)]

/-- A node that one rule turns into a target expression goes through a stage in which no later rule
claims such an expression. -/
theorem foldlM_converted (before after : List (Rule ω δ)) {r : Rule ω δ}
    (hbefore : ∀ r ∈ before, r.applies n c = false) (h : r.applies n c = true)
    (hafter : ∀ r ∈ after, ∀ t, r.applies (.target t) c = false) {conversion : Act ω Target}
    (happly : r.apply n c = do let t ← conversion; pure (.replaced (.target t))) :
    ((before ++ r :: after).map Entry.ofRule).foldlM (E.applyEntry stage c) n s =
      match conversion s with
      | .ok t s' => .ok (.target t) (E.counted stage r.name .replaced s')
      | .error f s' => .error f (E.counted stage r.name .failed s') := by
  cases hconversion : conversion s with
  | ok t s' =>
    have done : r.apply n c s = .ok (.replaced (.target t)) s' := by
      rw [happly, Act.bind_ok hconversion]
      rfl
    rw [E.foldlM_claimed_ok stage c n s before after hbefore h done]
    exact E.foldlM_unclaimed stage c (.target t) _ after fun r hr => hafter r hr t
  | error f s' =>
    have done : r.apply n c s = .error f s' := by rw [happly, Act.bind_error hconversion]
    rw [E.foldlM_claimed_error stage c n s before after hbefore h done]

theorem mapM_requirements (entries : List (Entry ω δ)) :
    entries.mapM (requirements n c) s =
      .ok ((Entry.drawAll entries s.world).1.map fun r => if r.applies n c then r.requires else [])
        { s with world := (Entry.drawAll entries s.world).2 } := by
  induction entries generalizing s with
  | nil => rfl
  | cons entry entries ih =>
    have first : requirements n c entry s =
        .ok (if (entry.draw s.world).1.applies n c then (entry.draw s.world).1.requires else [])
          (entry.drawn s) := by
      rw [requirements, Act.bind_ok (entry.rule_apply s)]
      rfl
    rw [List.mapM_cons, Act.bind_ok first, Act.bind_ok (ih _)]
    rfl

/-- Checking a stage draws its rules and asks for what those that claim the node require. -/
theorem validate_eq :
    E.validate stage n c s =
      Act.ofExcept
        (c.require ((Entry.drawAll (E.entries stage) s.world).1.flatMap fun r =>
          if r.applies n c then r.requires else []))
        { s with world := (Entry.drawAll (E.entries stage) s.world).2 } := by
  rw [validate, Act.bind_ok (mapM_requirements c n s _), List.flatMap_def]

/-- Checking a stage of shared rules asks for what the claiming rules require. -/
theorem validate_shared (rules : List (Rule ω δ))
    (hentries : E.entries stage = rules.map Entry.ofRule) :
    E.validate stage n c s =
      Act.ofExcept
        (c.require (rules.flatMap fun r => if r.applies n c then r.requires else [])) s := by
  rw [validate_eq, hentries, Entry.drawAll_shared]

section

variable {α : Type} {E} {a : Act ω α} {world : ω} {s : Session ω}

theorem during_ok {x : α} (h : a ⟨E.tally, 0, world⟩ = .ok x s) :
    E.during a world = (.ok x, { E with tally := s.tally }, s.world) := by
  rw [during, h]

theorem during_error {f : Failure} (h : a ⟨E.tally, 0, world⟩ = .error f s) :
    E.during a world = (.error f, { E with tally := s.tally }, s.world) := by
  rw [during, h]

end

end Engine

end StagedLowering
