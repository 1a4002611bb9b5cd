import StagedLowering.Data.OrderedMap
import StagedLowering.Number.Double

/-!
Counters of rule applications. A tally has one row per stage and rule name that was ever enrolled,
in the order of enrolment; rules of one stage that share a name share their row.
-/
namespace StagedLowering

/-- How often a rule was applied, how often that replaced the node or failed, and how many
nanoseconds it took. The stage is empty for counters that belong to none. -/
structure RuleStats where
  rule : String
  stage : String := ""
  applications : Nat := 0
  replacements : Nat := 0
  errors : Nat := 0
  elapsed : Nat := 0
  deriving DecidableEq, Repr, Inhabited

namespace RuleStats

/-- The share of applications that replaced the node, both counts rounded before they are divided;
zero if there were none. -/
def replacementRate (s : RuleStats) : Double :=
  if s.applications = 0 then .zero
  else (Double.ofNat s.replacements).scaleDown (Double.ofNat s.applications)

/-- The largest average that is reported. -/
def longestAverage : Nat := UInt64.size - 1

/-- Nanoseconds per application, rounded down. -/
def averageTime (s : RuleStats) : Nat :=
  if s.applications = 0 then 0 else min (s.elapsed / s.applications) longestAverage

end RuleStats

/-- What became of one application. -/
inductive Verdict where
  | kept | replaced | failed
  deriving DecidableEq, Repr

def RuleStats.count (s : RuleStats) : Verdict → RuleStats
  | .kept => { s with applications := s.applications + 1 }
  | .replaced =>
    { s with applications := s.applications + 1, replacements := s.replacements + 1 }
  | .failed => { s with applications := s.applications + 1, errors := s.errors + 1 }

/-- One row per stage and rule name. -/
abbrev Tally := OrderedMap (String × String) RuleStats

namespace Tally

def blank (stage rule : String) : RuleStats := ⟨rule, stage, 0, 0, 0, 0⟩

def enroll (t : Tally) (stage rule : String) : Tally := t.ensure (stage, rule) (blank stage rule)

def record (t : Tally) (stage rule : String) (v : Verdict) : Tally :=
  t.modify (stage, rule) (blank stage rule) (·.count v)

/-- Every counter back to zero; the rows stay. -/
def clear (t : Tally) : Tally := t.mapValues fun key _ => blank key.1 key.2

def rows (t : Tally) : List RuleStats := t.values

/-- The rows of one stage. -/
def stageRows (t : Tally) (stage : String) : List RuleStats :=
  (t.entries.filter fun e => e.1.1 = stage).map Prod.snd

end Tally

end StagedLowering
