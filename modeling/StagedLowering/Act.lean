import StagedLowering.Error
import StagedLowering.Rule.Stats

/-!
Actions of rules and collaborators. An action reads and writes a session and may fail; what it wrote
before it failed stays. A session holds the tally of rule applications, the number of lowerings that
are under way, and a `world` of whatever type the collaborators work on.
-/
namespace StagedLowering

structure Session (ω : Type) where
  tally : Tally
  depth : Nat
  world : ω

abbrev Act (ω : Type) := EStateM Failure (Session ω)

namespace Act

variable {ω α : Type}

def fail (e : LoweringError) : Act ω α := throw (.lowering e)

def ofExcept : Except LoweringError α → Act ω α
  | .ok a => pure a
  | .error e => fail e

/-- Run an action and hand over its outcome instead of failing. -/
def attempt (a : Act ω α) : Act ω (Except Failure α) := fun s =>
  match a s with
  | .ok x s' => .ok (.ok x) s'
  | .error e s' => .ok (.error e) s'

/-- Go on with the outcome of `attempt`. -/
def resume : Except Failure α → Act ω α
  | .ok a => pure a
  | .error e => throw e

def depth : Act ω Nat := fun s => .ok s.depth s

def setDepth (n : Nat) : Act ω Unit := fun s => .ok () { s with depth := n }

def record (stage rule : String) (v : Verdict) : Act ω Unit := fun s =>
  .ok () { s with tally := s.tally.record stage rule v }

/-- An action on the world alone, which cannot fail. -/
def onWorld (f : StateM ω α) : Act ω α := fun s =>
  match f s.world with
  | (a, w) => .ok a { s with world := w }

/-- Run an action with a tally and a depth of its own, on the same world. -/
def apart (tally : Tally) (a : Act ω α) : Act ω α := fun s =>
  match a { tally := tally, depth := 0, world := s.world } with
  | .ok x s' => .ok x { s with world := s'.world }
  | .error e s' => .error e { s with world := s'.world }

@[simp] theorem attempt_ok {a : Act ω α} {s s' : Session ω} {x : α} (h : a s = .ok x s') :
    attempt a s = .ok (.ok x) s' := by simp [attempt, h]

@[simp] theorem attempt_error {a : Act ω α} {s s' : Session ω} {e : Failure}
    (h : a s = .error e s') : attempt a s = .ok (.error e) s' := by simp [attempt, h]

end Act

end StagedLowering
