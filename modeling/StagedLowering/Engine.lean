import StagedLowering.Rule.Basic

/-!
The engine: an ordered list of rules per stage, and the fold of a node through one stage. Each rule
is tested against the result of the rules before it. The engine also holds, between sessions, the
tally of what its rules did.
-/
namespace StagedLowering

/-- The stages that a pipeline sets up. Any other name is a stage too. -/
def Stage.coreIR : String := "core_ir"
def Stage.codegen : String := "codegen"

/-- Where an entry's rule comes from: one rule for every use, or a new one for each use. -/
inductive RuleSupply (ω δ : Type) where
  | shared (rule : Rule ω δ)
  | fresh (make : StateM ω (Rule ω δ))

/-- A registered rule; `name` is the one it is counted under. -/
structure Entry (ω δ : Type) where
  name : String
  supply : RuleSupply ω δ

namespace Entry

variable {ω δ : Type}

def ofRule (r : Rule ω δ) : Entry ω δ := ⟨r.name, .shared r⟩

def ofFactory (name : String) (make : StateM ω (Rule ω δ)) : Entry ω δ := ⟨name, .fresh make⟩

def isShared (e : Entry ω δ) : Bool :=
  match e.supply with
  | .shared _ => true
  | .fresh _ => false

/-- The rule to use this time. -/
def rule (e : Entry ω δ) : Act ω (Rule ω δ) :=
  match e.supply with
  | .shared r => pure r
  | .fresh make => .onWorld make

end Entry

structure Engine (ω δ : Type) where
  stages : OrderedMap String (List (Entry ω δ)) := .empty
  tally : Tally := .empty
  collectStats : Bool := true

/-- What an application is counted as. -/
def Verdict.ofOutcome : Except Failure Outcome → Verdict
  | .error _ => .failed
  | .ok .unchanged => .kept
  | .ok (.replaced _) => .replaced

namespace Engine

variable {ω δ α : Type}

/-- Append an entry to a stage. -/
def register (e : Engine ω δ) (stage : String) (entry : Entry ω δ) : Engine ω δ :=
  { e with
    stages := e.stages.modify stage [] (· ++ [entry])
    tally := e.tally.enroll stage entry.name }

/-- The entries of a stage in application order; none for an unknown stage. -/
def entries (e : Engine ω δ) (stage : String) : List (Entry ω δ) := (e.stages.get? stage).getD []

def stageNames (e : Engine ω δ) : List String := e.stages.keys

def ruleNames (e : Engine ω δ) (stage : String) : List String := (e.entries stage).map Entry.name

/-- For each entry of a stage, whether its rule is the same for every use. -/
def policies (e : Engine ω δ) (stage : String) : List Bool := (e.entries stage).map Entry.isShared

def ruleCount (e : Engine ω δ) (stage : String) : Nat := (e.entries stage).length

/-- Count one application, if the engine counts at all. -/
def record (e : Engine ω δ) (stage rule : String) (outcome : Except Failure Outcome) : Act ω Unit :=
  if e.collectStats then .record stage rule (.ofOutcome outcome) else pure ()

/-- Apply one entry's rule if it claims the node; the result is the node to go on with. -/
def applyEntry (e : Engine ω δ) (stage : String) (c : Context ω δ) (n : Node)
    (entry : Entry ω δ) : Act ω Node := do
  let rule ← entry.rule
  if rule.applies n c then
    let outcome ← Act.attempt (rule.apply n c)
    e.record stage entry.name outcome
    let outcome ← Act.resume outcome
    pure (outcome.node n)
  else
    pure n

/-- Fold a node through the rules of a stage, up to the first failure. -/
def apply (e : Engine ω δ) (stage : String) (n : Node) (c : Context ω δ) : Act ω Node :=
  (e.entries stage).foldlM (e.applyEntry stage c) n

/-- Fold a node through stages; each takes what the one before it gives. -/
def applyAll (e : Engine ω δ) (stages : List String) (n : Node) (c : Context ω δ) :
    Act ω Node :=
  stages.foldlM (fun n stage => e.apply stage n c) n

/-- The keys an entry's rule requires, if it claims the node. -/
def requirements (n : Node) (c : Context ω δ) (entry : Entry ω δ) : Act ω (List Key) := do
  let rule ← entry.rule
  pure (if rule.applies n c then rule.requires else [])

/-- Check before applying that the context has what the rules claiming this node require. -/
def validate (e : Engine ω δ) (stage : String) (n : Node) (c : Context ω δ) : Act ω Unit := do
  let required ← (e.entries stage).mapM (requirements n c)
  Act.ofExcept (c.require required.flatten)

/-- Run an action in a session of this engine; its counts stay with the engine. -/
def during (e : Engine ω δ) (a : Act ω α) (world : ω) : Except Failure α × Engine ω δ × ω :=
  match a { tally := e.tally, depth := 0, world := world } with
  | .ok x s => (.ok x, { e with tally := s.tally }, s.world)
  | .error f s => (.error f, { e with tally := s.tally }, s.world)

/-- The counters of every registered rule, in registration order. -/
def stats (e : Engine ω δ) : List RuleStats := e.tally.rows

def statsOf (e : Engine ω δ) (stage : String) : List RuleStats := e.tally.stageRows stage

def resetStats (e : Engine ω δ) : Engine ω δ := { e with tally := e.tally.clear }

end Engine

end StagedLowering
