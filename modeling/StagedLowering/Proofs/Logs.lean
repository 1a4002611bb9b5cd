import StagedLowering.Proofs.Accord
import StagedLowering.Proofs.Registrations
import StagedLowering.Proofs.Tallies

/-!
Logs beside counters. A logged rule enters each of its applications, once it has come to an end, in
a log that stands beside the world, and what the rule has counted can be read off the log. Programs
come in versions, in which engines count or not and rules are logged or not; the books of two
versions are in order as long as their logs and counters come of the same steps.
-/
namespace StagedLowering

variable {ω δ α : Type}

/-- A step in the log: a rule that is registered for a stage under a name has come to an outcome, or
the counters were cleared. -/
inductive LogStep where
  | applied (stage rule : String) (outcome : Except Failure Outcome)
  | cleared

namespace LogStep

def isApplied : LogStep → Bool
  | .applied _ _ _ => true
  | .cleared => false

/-- An application under this stage and name, with such an outcome. -/
def isUnder (key : String × String) (such : Except Failure Outcome → Bool) : LogStep → Bool
  | .applied stage rule outcome => (stage, rule) = key && such outcome
  | .cleared => false

end LogStep

/-- The steps since the counters were last cleared. The latest step is the first. -/
def sinceCleared (log : List LogStep) : List LogStep := log.takeWhile LogStep.isApplied

/-- The rule made something of the node, be it the same again. -/
def isReplacement : Except Failure Outcome → Bool
  | .ok (.replaced _) => true
  | .ok .unchanged => false
  | .error _ => false

def isFailure : Except Failure Outcome → Bool
  | .ok _ => false
  | .error _ => true

/-- The counters of a rule, as a log has them. -/
def RuleStats.ofLog (log : List LogStep) (key : String × String) : RuleStats where
  rule := key.2
  stage := key.1
  applications := (sinceCleared log).countP (·.isUnder key fun _ => true)
  replacements := (sinceCleared log).countP (·.isUnder key isReplacement)
  errors := (sinceCleared log).countP (·.isUnder key isFailure)

/-- The row a counter stands in. -/
def RuleStats.key (row : RuleStats) : String × String := (row.stage, row.rule)

namespace RuleStats

theorem ofLog_cleared (log : List LogStep) (key : String × String) :
    ofLog (.cleared :: log) key = Tally.blank key.1 key.2 := by
  simp [ofLog, sinceCleared, LogStep.isApplied, Tally.blank]

/-- The engine's verdict on an outcome counts it where the log has it. -/
theorem ofLog_applied (log : List LogStep) (stage rule : String) (outcome : Except Failure Outcome)
    (key : String × String) :
    ofLog (.applied stage rule outcome :: log) key =
      if (stage, rule) = key then (ofLog log key).count (.ofOutcome outcome)
      else ofLog log key := by
  have step : sinceCleared (.applied stage rule outcome :: log) =
      .applied stage rule outcome :: sinceCleared log := List.takeWhile_cons_of_pos rfl
  by_cases h : (stage, rule) = key
  · cases outcome with
    | error f => simp [ofLog, step, LogStep.isUnder, isReplacement, isFailure, h, count,
        Verdict.ofOutcome]
    | ok o =>
      cases o <;> simp [ofLog, step, LogStep.isUnder, isReplacement, isFailure, h, count,
        Verdict.ofOutcome]
  · simp [ofLog, step, LogStep.isUnder, h]

/-- A rule that the log does not know has counted nothing. -/
theorem ofLog_eq_blank {log : List LogStep} {key : String × String}
    (h : ∀ outcome, .applied key.1 key.2 outcome ∉ log) :
    ofLog log key = Tally.blank key.1 key.2 := by
  induction log with
  | nil => rfl
  | cons step log ih =>
    cases step with
    | cleared => exact ofLog_cleared log key
    | applied stage rule outcome =>
      have other : ¬ (stage, rule) = key := by
        rintro rfl
        exact h outcome List.mem_cons_self
      rw [ofLog_applied, if_neg other]
      exact ih fun outcome' later => h outcome' (List.mem_cons_of_mem _ later)

/-- No application both replaces its node and fails. -/
theorem ofLog_le (log : List LogStep) (key : String × String) :
    (ofLog log key).replacements + (ofLog log key).errors ≤ (ofLog log key).applications := by
  induction log with
  | nil => exact Nat.le_refl 0
  | cons step log ih =>
    cases step with
    | cleared =>
      rw [ofLog_cleared]
      exact Nat.le_refl 0
    | applied stage rule outcome =>
      rw [ofLog_applied]
      split
      · cases Verdict.ofOutcome outcome <;> simp only [count] <;> omega
      · exact ih

end RuleStats

namespace Tally

/-- The tally has one row for each of the keys, in the order of their first occurrence. -/
structure Lists (t : Tally) (keys : List (String × String)) (row : String × String → RuleStats) :
    Prop where
  keys_eq : t.keys = keys.eraseDups
  get?_eq : ∀ key ∈ keys, t.get? key = some (row key)

namespace Lists

variable {t : Tally} {keys : List (String × String)} {row : String × String → RuleStats}

theorem empty (row : String × String → RuleStats) : Lists .empty [] row := ⟨rfl, by simp⟩

theorem rows_eq (h : t.Lists keys row) : t.rows = keys.eraseDups.map row := by
  have found : ∀ key ∈ t.keys, t.get? key = some (row key) := by
    intro key hkey
    rw [h.keys_eq] at hkey
    exact h.get?_eq key (List.mem_eraseDups.1 hkey)
  rw [rows, OrderedMap.values, t.entries_eq_map found, List.map_map, h.keys_eq]
  rfl

/-- Rows that say whose they are tell which rows there are. -/
theorem map_key_rows (h : t.Lists keys row) (own : ∀ key, (row key).key = key) :
    t.rows.map RuleStats.key = keys.eraseDups := by
  rw [h.rows_eq, List.map_map]
  exact (List.map_congr_left fun key _ => own key).trans (List.map_id _)

theorem mem_keys (h : t.Lists keys row) {key : String × String} : key ∈ t.keys ↔ key ∈ keys := by
  rw [h.keys_eq, List.mem_eraseDups]

theorem congr {row' : String × String → RuleStats} (h : t.Lists keys row)
    (same : ∀ key ∈ keys, row key = row' key) : t.Lists keys row' :=
  ⟨h.keys_eq, fun key hkey => by rw [h.get?_eq key hkey, same key hkey]⟩

theorem enroll (h : t.Lists keys row) {stage rule : String}
    (new : (stage, rule) ∉ keys → row (stage, rule) = blank stage rule) :
    (t.enroll stage rule).Lists (keys ++ [(stage, rule)]) row where
  keys_eq := by
    rw [Tally.enroll, OrderedMap.keys_ensure]
    exact eraseDups_concat h.keys_eq
  get?_eq key hkey := by
    rw [Tally.enroll, OrderedMap.get?_ensure]
    by_cases known : key ∈ keys
    · rw [h.get?_eq key known, Option.some_or]
    · have last : key = (stage, rule) := by simpa [known] using hkey
      subst last
      rw [OrderedMap.get?_eq_none (mt h.mem_keys.1 known), Option.none_or, if_pos rfl, new known]

theorem record (h : t.Lists keys row) {stage rule : String} (known : (stage, rule) ∈ keys)
    (v : Verdict) :
    (t.record stage rule v).Lists keys fun key =>
      if (stage, rule) = key then (row key).count v else row key where
  keys_eq := by
    rw [Tally.record, OrderedMap.modify_eq_mapValues t (h.mem_keys.2 known),
      OrderedMap.keys_mapValues, h.keys_eq]
  get?_eq key hkey := by
    rw [Tally.record, OrderedMap.get?_modify]
    split
    next same => rw [same, h.get?_eq key hkey, Option.getD_some]
    next => exact h.get?_eq key hkey

theorem clear (h : t.Lists keys row) : t.clear.Lists keys fun key => blank key.1 key.2 where
  keys_eq := by rw [Tally.clear, OrderedMap.keys_mapValues, h.keys_eq]
  get?_eq key hkey := by rw [Tally.clear, OrderedMap.get?_mapValues, h.get?_eq key hkey]; rfl

end Lists

end Tally

/-! ### Rules that keep a log -/

/-- The version of a program: whether its engines count, and whether their rules keep a log. -/
structure Version where
  counts : Bool
  logs : Bool

/-- A world and a log beside it. -/
structure Logged (ω : Type) where
  world : ω
  log : List LogStep

/-- Enter a step in the log, in a version that keeps one. -/
def Logged.noting (v : Version) (step : LogStep) (x : Logged ω) : Logged ω :=
  if v.logs then ⟨x.world, step :: x.log⟩ else x

@[simp] theorem Logged.noting_world (v : Version) (step : LogStep) (x : Logged ω) :
    (x.noting v step).world = x.world := by
  unfold noting
  split <;> rfl

def Session.noting (v : Version) (step : LogStep) (s : Session (Logged ω)) : Session (Logged ω) :=
  { s with world := s.world.noting v step }

namespace Act

/-- An action of a rule or collaborator on its own: it has the world and the depth to work on, and
neither the counters nor the log. -/
def own (f : Nat → ω → Except Failure α × Nat × ω) : Act (Logged ω) α := fun s =>
  match f s.depth s.world.world with
  | (.ok x, depth, world) => .ok x { s with depth := depth, world := ⟨world, s.world.log⟩ }
  | (.error e, depth, world) => .error e { s with depth := depth, world := ⟨world, s.world.log⟩ }

/-- Clear the counters from inside a session. -/
def clear (v : Version) : Act (Logged ω) Unit := fun s =>
  .ok () ({ s with tally := s.tally.clear }.noting v .cleared)

end Act

/-- Apply a rule and log what it came to. -/
def Rule.logging (stage name : String) (r : Rule (Logged ω) δ) (n : Node)
    (c : Context (Logged ω) δ) : Act (Logged ω) Outcome := do
  let outcome ← Act.attempt (r.apply n c)
  Act.onWorld (modify fun x => ⟨x.world, .applied stage name outcome :: x.log⟩)
  Act.resume outcome

def Rule.logged (stage name : String) (r : Rule (Logged ω) δ) : Rule (Logged ω) δ :=
  { r with apply := r.logging stage name }

/-- The entry, with the applications of its rules logged under the stage it is registered for. -/
def Entry.logged (stage : String) (entry : Entry (Logged ω) δ) : Entry (Logged ω) δ :=
  { entry with
    supply :=
      match entry.supply with
      | .shared r => .shared (r.logged stage entry.name)
      | .fresh make => .fresh (do let r ← make; pure (r.logged stage entry.name)) }

namespace Version

def rule (v : Version) (stage name : String) (r : Rule (Logged ω) δ) : Rule (Logged ω) δ :=
  if v.logs then r.logged stage name else r

/-- The entry in this version, for the stage that it is registered for. -/
def entry (v : Version) (stage : String) (entry : Entry (Logged ω) δ) : Entry (Logged ω) δ :=
  if v.logs then entry.logged stage else entry

/-- What the counters of a rule are in this version, after what is in the log. -/
def row (v : Version) (log : List LogStep) (key : String × String) : RuleStats :=
  if v.counts then RuleStats.ofLog log key else Tally.blank key.1 key.2

variable (v : Version)

@[simp] theorem rule_applies (stage name : String) (r : Rule (Logged ω) δ) :
    (v.rule stage name r).applies = r.applies := by
  unfold rule
  split <;> rfl

@[simp] theorem rule_requires (stage name : String) (r : Rule (Logged ω) δ) :
    (v.rule stage name r).requires = r.requires := by
  unfold rule
  split <;> rfl

theorem draw_entry (stage : String) (entry : Entry (Logged ω) δ) (x : Logged ω) :
    (v.entry stage entry).draw x =
      (v.rule stage entry.name (entry.draw x).1, (entry.draw x).2) := by
  unfold Version.entry rule
  split
  · unfold Entry.draw Entry.logged
    cases entry.supply <;> rfl
  · rfl

@[simp] theorem entry_name (stage : String) (entry : Entry (Logged ω) δ) :
    (v.entry stage entry).name = entry.name := by
  unfold Version.entry
  split <;> rfl

/-- Logging an application leaves its outcome alone. -/
theorem attempt_rule {stage name : String} {r : Rule (Logged ω) δ} {n : Node}
    {c : Context (Logged ω) δ} {s s' : Session (Logged ω)} {outcome : Except Failure Outcome}
    (h : Act.attempt (r.apply n c) s = .ok outcome s') :
    Act.attempt ((v.rule stage name r).apply n c) s =
      .ok outcome (s'.noting v (.applied stage name outcome)) := by
  unfold rule Session.noting Logged.noting
  split
  · have noted : r.logging stage name n c s = Act.resume outcome { s' with
        world := ⟨s'.world.world, .applied stage name outcome :: s'.world.log⟩ } := by
      rw [Rule.logging, Act.bind_ok h]
      rfl
    cases outcome with
    | ok o => exact Act.attempt_ok noted
    | error f => exact Act.attempt_error noted
  · exact h

end Version

/-! ### Books in order -/

/-- The session has, in this version, the log and the counters that come of these steps. -/
structure Session.Keeps (s : Session (Logged ω)) (keys : List (String × String)) (v : Version)
    (log : List LogStep) : Prop where
  log_eq : s.world.log = if v.logs then log else []
  rows : s.tally.Lists keys (v.row log)

namespace Session.Keeps

variable {s : Session (Logged ω)} {keys : List (String × String)} {v : Version}
  {log : List LogStep}

theorem noting_log (h : s.Keeps keys v log) (step : LogStep) :
    (s.noting v step).world.log = if v.logs then step :: log else [] := by
  have before := h.log_eq
  unfold noting Logged.noting
  split
  next logs =>
    rw [if_pos logs] at before
    rw [before]
  next logs => rwa [if_neg logs] at before

/-- An application is entered in the log and then counted. -/
theorem applied (h : s.Keeps keys v log) {E : Engine (Logged ω) δ}
    (counts : E.collectStats = v.counts) {stage rule : String} (known : (stage, rule) ∈ keys)
    (outcome : Except Failure Outcome) :
    (E.counted stage rule (.ofOutcome outcome) (s.noting v (.applied stage rule outcome))).Keeps
      keys v (.applied stage rule outcome :: log) where
  log_eq := by
    rw [Engine.counted_world]
    exact h.noting_log _
  rows := by
    rw [Engine.counted, counts]
    have rows := h.rows
    split
    next counted =>
      refine (rows.record known (.ofOutcome outcome)).congr fun key _ => ?_
      simp only [Version.row, if_pos counted, RuleStats.ofLog_applied]
    next silent =>
      refine rows.congr fun key _ => ?_
      simp only [Version.row, if_neg silent]

theorem cleared (h : s.Keeps keys v log) :
    ({ s with tally := s.tally.clear }.noting v .cleared).Keeps keys v (.cleared :: log) where
  log_eq := h.noting_log .cleared
  rows := h.rows.clear.congr fun key _ => by simp [Version.row, RuleStats.ofLog_cleared]

/-- A new rule has counted nothing, and one of a known name shares its counters. -/
theorem enrolled (h : s.Keeps keys v log)
    (logged : ∀ stage rule outcome, .applied stage rule outcome ∈ log → (stage, rule) ∈ keys)
    (stage rule : String) :
    { s with tally := s.tally.enroll stage rule }.Keeps (keys ++ [(stage, rule)]) v log where
  log_eq := h.log_eq
  rows := by
    refine h.rows.enroll fun new => ?_
    have unknown : RuleStats.ofLog log (stage, rule) = Tally.blank stage rule :=
      RuleStats.ofLog_eq_blank fun outcome known => new (logged stage rule outcome known)
    simp [Version.row, unknown]

end Session.Keeps

/-- Sessions of two versions of a program that have gone through the same steps. Both have a row for
each of the keys. -/
structure Books (keys : List (String × String)) (v v' : Version) (s t : Session (Logged ω)) :
    Prop where
  depth : s.depth = t.depth
  world : s.world.world = t.world.world
  kept : ∃ log, (∀ stage rule outcome, .applied stage rule outcome ∈ log → (stage, rule) ∈ keys) ∧
    s.Keeps keys v log ∧ t.Keeps keys v' log

namespace Books

variable {keys : List (String × String)} {v v' : Version} {s t : Session (Logged ω)}

/-- The books do not turn on the depth or on the world beside the log. -/
theorem moved (h : Books keys v v' s t) (depth : Nat) (world : ω) :
    Books keys v v' { s with depth := depth, world := ⟨world, s.world.log⟩ }
      { t with depth := depth, world := ⟨world, t.world.log⟩ } := by
  obtain ⟨log, logged, first, second⟩ := h.kept
  exact ⟨rfl, rfl, log, logged, ⟨first.log_eq, first.rows⟩, second.log_eq, second.rows⟩

theorem applied (h : Books keys v v' s t) {E E' : Engine (Logged ω) δ}
    (counts : E.collectStats = v.counts) (counts' : E'.collectStats = v'.counts)
    {stage rule : String} (known : (stage, rule) ∈ keys)
    (outcome : Except Failure Outcome) :
    Books keys v v'
      (E.counted stage rule (.ofOutcome outcome) (s.noting v (.applied stage rule outcome)))
      (E'.counted stage rule (.ofOutcome outcome) (t.noting v' (.applied stage rule outcome))) := by
  obtain ⟨log, logged, first, second⟩ := h.kept
  refine ⟨?_, ?_, .applied stage rule outcome :: log, ?_, first.applied counts known outcome,
    second.applied counts' known outcome⟩
  · rw [Engine.counted_depth, Engine.counted_depth]
    exact h.depth
  · rw [Engine.counted_world, Engine.counted_world]
    simpa [Session.noting] using h.world
  · intro stage' rule' outcome' step
    rcases List.mem_cons.1 step with same | earlier
    · cases same
      exact known
    · exact logged stage' rule' outcome' earlier

theorem cleared (h : Books keys v v' s t) :
    Books keys v v' ({ s with tally := s.tally.clear }.noting v .cleared)
      ({ t with tally := t.tally.clear }.noting v' .cleared) := by
  obtain ⟨log, logged, first, second⟩ := h.kept
  refine ⟨h.depth, ?_, .cleared :: log, ?_, first.cleared, second.cleared⟩
  · simpa [Session.noting] using h.world
  · intro stage rule outcome step
    rcases List.mem_cons.1 step with same | earlier
    · cases same
    · exact logged stage rule outcome earlier

theorem enrolled (h : Books keys v v' s t) (stage rule : String) :
    Books (keys ++ [(stage, rule)]) v v' { s with tally := s.tally.enroll stage rule }
      { t with tally := t.tally.enroll stage rule } := by
  obtain ⟨log, logged, first, second⟩ := h.kept
  exact ⟨h.depth, h.world, log, fun stage' rule' outcome step =>
      List.mem_append_left _ (logged stage' rule' outcome step),
    first.enrolled logged stage rule, second.enrolled logged stage rule⟩

end Books

end StagedLowering
