import Mathlib.Data.List.Forall2
import StagedLowering.Proofs.Accord
import StagedLowering.Rule.Codegen

/-!
What a history of registrations makes of an engine. A stage holds what was registered for it, in
order and with repetitions, whatever was registered for other stages in between; the stages are
listed in the order of their first registration. Using an engine changes neither.
-/
namespace StagedLowering

variable {ω δ α : Type}

section

variable [BEq α] [LawfulBEq α] {l : List α} {x : α}

/-- An element at the end is a new one unless it was there before. -/
theorem eraseDups_concat_of_mem (h : x ∈ l) : (l ++ [x]).eraseDups = l.eraseDups := by
  rw [List.eraseDups_append]
  simp [List.removeAll, h]

theorem eraseDups_concat_of_not_mem (h : x ∉ l) : (l ++ [x]).eraseDups = l.eraseDups ++ [x] := by
  rw [List.eraseDups_append]
  simp [List.removeAll, h, List.eraseDups_cons]

/-- To append what is not there yet is to list without repetition. -/
theorem eraseDups_concat {names : List α} {_ : Decidable (x ∈ names)} (h : names = l.eraseDups) :
    (if x ∈ names then names else names ++ [x]) = (l ++ [x]).eraseDups := by
  subst h
  split
  next known => rw [eraseDups_concat_of_mem (List.mem_eraseDups.1 known)]
  next new => rw [eraseDups_concat_of_not_mem (mt List.mem_eraseDups.2 new)]

end

/-- A stage and the entry that is appended to it. -/
abbrev Registration (ω δ : Type) := String × Entry ω δ

/-- The entries registered for one stage, in order. -/
def registeredFor (stage : String) (regs : List (Registration ω δ)) : List (Entry ω δ) :=
  (regs.filter (·.1 = stage)).map Prod.snd

namespace Engine

/-- Carry out registrations one after the other. -/
def registerAll (E : Engine ω δ) (regs : List (Registration ω δ)) : Engine ω δ :=
  regs.foldl (fun E r => E.register r.1 r.2) E

/-- A new engine after these registrations. -/
def ofRegistrations (counts : Bool) (regs : List (Registration ω δ)) : Engine ω δ :=
  registerAll { collectStats := counts } regs

@[simp] theorem registerAll_nil (E : Engine ω δ) : E.registerAll [] = E := rfl

@[simp] theorem registerAll_cons (E : Engine ω δ) (r : Registration ω δ)
    (regs : List (Registration ω δ)) :
    E.registerAll (r :: regs) = (E.register r.1 r.2).registerAll regs := rfl

theorem stageNames_register (E : Engine ω δ) (stage : String) (entry : Entry ω δ) :
    (E.register stage entry).stageNames =
      if stage ∈ E.stageNames then E.stageNames else E.stageNames ++ [stage] :=
  OrderedMap.keys_insert ..

theorem collectStats_registerAll (E : Engine ω δ) (regs : List (Registration ω δ)) :
    (E.registerAll regs).collectStats = E.collectStats := by
  induction regs generalizing E with
  | nil => rfl
  | cons r regs ih => exact ih (E.register r.1 r.2)

theorem entries_registerAll (E : Engine ω δ) (regs : List (Registration ω δ)) (stage : String) :
    (E.registerAll regs).entries stage = E.entries stage ++ registeredFor stage regs := by
  induction regs generalizing E with
  | nil => simp [registeredFor]
  | cons r regs ih =>
    rw [registerAll_cons, ih, entries_register]
    by_cases h : r.1 = stage <;> simp [registeredFor, h]

/-- `done` are the stages registered for so far. -/
theorem stageNames_registerAll (E : Engine ω δ) (regs : List (Registration ω δ))
    (done : List String) (h : E.stageNames = done.eraseDups) :
    (E.registerAll regs).stageNames = (done ++ regs.map Prod.fst).eraseDups := by
  induction regs generalizing E done with
  | nil => simpa using h
  | cons r regs ih =>
    have next : (E.register r.1 r.2).stageNames = (done ++ [r.1]).eraseDups := by
      rw [stageNames_register, eraseDups_concat h]
    simpa using ih (E.register r.1 r.2) (done ++ [r.1]) next

theorem collectStats_ofRegistrations (counts : Bool) (regs : List (Registration ω δ)) :
    (ofRegistrations counts regs).collectStats = counts :=
  collectStats_registerAll _ regs

theorem entries_ofRegistrations (counts : Bool) (regs : List (Registration ω δ)) (stage : String) :
    (ofRegistrations counts regs).entries stage = registeredFor stage regs :=
  entries_registerAll _ regs stage

theorem stageNames_ofRegistrations (counts : Bool) (regs : List (Registration ω δ)) :
    (ofRegistrations counts regs).stageNames = (regs.map Prod.fst).eraseDups :=
  stageNames_registerAll _ regs [] rfl

/-- The policy of an entry tells whether its rule is a single one. -/
theorem forall₂_isShared (entries : List (Entry ω δ)) :
    List.Forall₂ (fun entry shared => shared = true ↔ ∃ rule, entry.supply = .shared rule) entries
      (entries.map Entry.isShared) := by
  refine List.forall₂_map_right_iff.2 (List.forall₂_same.2 fun entry _ => ?_)
  unfold Entry.isShared
  cases entry.supply <;> simp

/-- Using an engine changes its counters only. -/
theorem during_stages (E : Engine ω δ) (a : Act ω α) (world : ω) :
    (E.during a world).2.1.stages = E.stages := by
  unfold during
  split <;> rfl

variable {E E' : Engine ω δ} {stage : String}

/-- A stage runs by its entries and by whether they are counted. -/
theorem apply_congr (counts : E.collectStats = E'.collectStats)
    (entries : E.entries stage = E'.entries stage) (n : Node) (c : Context ω δ) :
    E.apply stage n c = E'.apply stage n c := by
  rw [apply, apply, entries, applyEntry_congr counts]

theorem validate_congr (entries : E.entries stage = E'.entries stage) (n : Node)
    (c : Context ω δ) : E.validate stage n c = E'.validate stage n c := by
  rw [validate, validate, entries]

/-- Checking a stage does not turn on the counters. -/
theorem validate_blind (E : Engine ω δ) (stage : String) (n : Node) (c : Context ω δ) :
    (E.validate stage n c).Blind := by
  have drawn (entry : Entry ω δ) : entry.rule.Blind := by
    intro s t h
    rw [entry.rule_apply, entry.rule_apply, ← h.2]
    exact .ok _ ⟨h.1, by simp [Entry.drawn, h.2]⟩
  refine .bind (.mapM (E.entries stage) fun entry _ => ?_) fun _ => .ofExcept _
  exact .bind (drawn entry) fun _ => .pure _

/-- What engines give and do is the same for actions that do alike. -/
theorem during_alike (E E' : Engine ω δ) {a b : Act ω α} (h : a.Accords Session.Alike b)
    (world : ω) :
    (E.during a world).1 = (E'.during b world).1 ∧
      (E.during a world).2.2 = (E'.during b world).2.2 := by
  have start : Session.Alike ⟨E.tally, 0, world⟩ ⟨E'.tally, 0, world⟩ := ⟨rfl, rfl⟩
  obtain ⟨outcome, s, t, hs, ht, h'⟩ := during_accords E E' h start
  rw [hs, ht]
  exact ⟨rfl, h'.2⟩

/-- A stage is what was registered for it: its rules are listed by the names, policies and number of
those registrations, in order. Engines with the same registrations for a stage cannot be told apart
there, by listing, checking or applying its rules, however they were registered among those of other
stages. Stages are listed by first registration, and no use of an engine changes a stage or the list
of them. -/
theorem stage_determined_by_registrations (counts : Bool) (regs regs' : List (Registration ω δ))
    (stage : String) (same : regs.filter (·.1 = stage) = regs'.filter (·.1 = stage)) :
    let E : Engine ω δ := ofRegistrations counts regs
    let E' : Engine ω δ := ofRegistrations counts regs'
    let entries := (regs.filter (·.1 = stage)).map Prod.snd
    (E.entries stage = entries ∧ E.ruleNames stage = entries.map (·.name) ∧
      List.Forall₂ (fun entry shared => shared = true ↔ ∃ rule, entry.supply = .shared rule) entries
        (E.policies stage) ∧
      E.ruleCount stage = entries.length) ∧
    (E.ruleNames stage = E'.ruleNames stage ∧ E.policies stage = E'.policies stage ∧
      E.ruleCount stage = E'.ruleCount stage) ∧
    (∀ n c, E.apply stage n c = E'.apply stage n c ∧ E.validate stage n c = E'.validate stage n c) ∧
    (∀ n c world, (∀ entry ∈ E.entries stage, entry.Blind c) →
      (E.during (E.apply stage n c) world).1 = (E'.during (E'.apply stage n c) world).1 ∧
      (E.during (E.apply stage n c) world).2.2 = (E'.during (E'.apply stage n c) world).2.2) ∧
    (∀ n c world,
      (E.during (E.validate stage n c) world).1 = (E'.during (E'.validate stage n c) world).1 ∧
      (E.during (E.validate stage n c) world).2.2 =
        (E'.during (E'.validate stage n c) world).2.2) ∧
    E.stageNames = (regs.map Prod.fst).eraseDups ∧
    ∀ (F : Engine ω δ) used n c world,
      (F.during (F.apply used n c) world).2.1.stages = F.stages ∧
      (F.during (F.validate used n c) world).2.1.stages = F.stages := by
  intro E E' entries
  have own : E.entries stage = entries := entries_ofRegistrations counts regs stage
  have both : E.entries stage = E'.entries stage := by
    rw [entries_ofRegistrations, entries_ofRegistrations, registeredFor, same, registeredFor]
  have counting : E.collectStats = E'.collectStats := by
    rw [collectStats_ofRegistrations, collectStats_ofRegistrations]
  refine ⟨⟨own, ?_, ?_, ?_⟩, ⟨?_, ?_, ?_⟩, fun n c => ⟨?_, ?_⟩, fun n c world blind => ?_,
    fun n c world => ?_, stageNames_ofRegistrations counts regs,
    fun F used n c world => ⟨during_stages .., during_stages ..⟩⟩
  · rw [ruleNames, own]
  · rw [policies, own]
    exact forall₂_isShared entries
  · rw [ruleCount, own]
  · rw [ruleNames, ruleNames, both]
  · rw [policies, policies, both]
  · rw [ruleCount, ruleCount, both]
  · exact apply_congr counting both n c
  · exact validate_congr both n c
  · rw [← apply_congr counting both n c]
    exact during_alike E E' (foldlM_alike E E stage stage c blind n) world
  · rw [← validate_congr both n c]
    exact during_alike E E' (E.validate_blind stage n c) world

/-- An operator rule twice, with a regex rule in another stage between or after them. -/
theorem stage_determined_by_registrations_twice :
    let operator : Entry Nat Unit := .ofRule Rule.binaryLowering
    let regex : Entry Nat Unit := .ofFactory "fresh" fun built => (Rule.regexLowering {}, built + 1)
    let E := ofRegistrations true [("a", operator), ("b", regex), ("a", operator)]
    let E' := ofRegistrations true [("a", operator), ("a", operator), ("c", regex)]
    E.ruleNames "a" = ["BinaryExpressionLowering", "BinaryExpressionLowering"] ∧
      E.ruleNames "a" = E'.ruleNames "a" ∧ (∀ n c, E.apply "a" n c = E'.apply "a" n c) ∧
      E.stageNames = ["a", "b"] := by
  intro operator regex E E'
  obtain ⟨-, ⟨names, -⟩, applied, -, -, stages, -⟩ :=
    stage_determined_by_registrations true [("a", operator), ("b", regex), ("a", operator)]
      [("a", operator), ("a", operator), ("c", regex)] "a" rfl
  exact ⟨rfl, names, fun n c => (applied n c).1, stages⟩

end Engine

end StagedLowering
