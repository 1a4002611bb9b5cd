import StagedLowering.Rule.Stats

/-!
How counters grow. Counting an application in a row that is enrolled changes that row where it
stands, so a tally after any number of applications is the tally before them with every row grown
by the numbers of its own.
-/
namespace StagedLowering

namespace OrderedMap

variable {κ α : Type}

theorem ext_entries {m m' : OrderedMap κ α} (h : m.entries = m'.entries) : m = m' := by
  cases m
  cases m'
  cases h
  rfl

@[simp] theorem keys_mapValues {β : Type} (m : OrderedMap κ α) (f : κ → α → β) :
    (m.mapValues f).keys = m.keys := by
  simp [keys, mapValues, Function.comp_def]

theorem mapValues_mapValues {β γ : Type} (m : OrderedMap κ α) (f : κ → α → β) (g : κ → β → γ) :
    (m.mapValues f).mapValues g = m.mapValues fun k a => g k (f k a) :=
  ext_entries (by simp [mapValues])

theorem mapValues_congr {β : Type} (m : OrderedMap κ α) {f g : κ → α → β}
    (h : ∀ k ∈ m.keys, ∀ a, f k a = g k a) : m.mapValues f = m.mapValues g :=
  ext_entries (List.map_congr_left fun e he => by rw [h e.1 (List.mem_map_of_mem he)])

theorem mapValues_id (m : OrderedMap κ α) : (m.mapValues fun _ a => a) = m :=
  ext_entries (by simp [mapValues])

variable [DecidableEq κ]

/-- Rewriting the value of a present key changes one value and no position. -/
theorem put_eq_map (k : κ) (f : α → α) (default : α) (es : List (κ × α))
    (nodup : (es.map Prod.fst).Nodup) (hk : k ∈ es.map Prod.fst) :
    put k (f ((es.lookup k).getD default)) es =
      es.map fun e => (e.1, if e.1 = k then f e.2 else e.2) := by
  induction es with
  | nil => simp at hk
  | cons e es ih =>
    obtain ⟨k', a⟩ := e
    obtain ⟨fresh, nodup⟩ := List.nodup_cons.1 nodup
    by_cases h : k' = k
    · have rest : es.map (fun e => (e.1, if e.1 = k then f e.2 else e.2)) = es := by
        refine (List.map_congr_left fun e he => ?_).trans (List.map_id es)
        have other : e.1 ≠ k := by
          intro same
          exact fresh (List.mem_map.2 ⟨e, he, same.trans h.symm⟩)
        simp [other]
      simp [put, h, rest]
    · have hk : k ∈ es.map Prod.fst := by
        rcases List.mem_cons.1 hk with same | hk
        · exact absurd same.symm h
        · exact hk
      simp [put, lookup_cons, h, ih nodup hk]

/-- A key has a value if it is one of the keys. -/
theorem isSome_get? (m : OrderedMap κ α) (k : κ) : (m.get? k).isSome ↔ k ∈ m.keys := by
  rw [get?, List.lookup_isSome_iff, keys, List.mem_map]
  simp only [beq_iff_eq]
  exact exists_congr fun e => and_congr_right fun _ => eq_comm

theorem get?_eq_none {m : OrderedMap κ α} {k : κ} (h : k ∉ m.keys) : m.get? k = none := by
  rwa [← isSome_get?, Option.not_isSome_iff_eq_none] at h

/-- A map is its keys, each with its value. -/
theorem entries_eq_map (m : OrderedMap κ α) {f : κ → α} (h : ∀ k ∈ m.keys, m.get? k = some (f k)) :
    m.entries = m.keys.map fun k => (k, f k) := by
  rw [keys, List.map_map]
  refine (List.map_id m.entries).symm.trans (List.map_congr_left fun e he => ?_)
  have found := h e.1 (List.mem_map_of_mem he)
  rw [get?, lookup_of_mem m.nodup he] at found
  exact Prod.ext rfl (Option.some.inj found)

theorem get?_modify (m : OrderedMap κ α) (k k' : κ) (default : α) (f : α → α) :
    (m.modify k default f).get? k' =
      if k = k' then some (f ((m.get? k).getD default)) else m.get? k' :=
  m.get?_insert ..

theorem keys_ensure (m : OrderedMap κ α) (k : κ) (a : α) :
    (m.ensure k a).keys = if k ∈ m.keys then m.keys else m.keys ++ [k] := by
  by_cases h : k ∈ m.keys
  · have present : m.contains k = true := decide_eq_true h
    rw [ensure, if_pos present, if_pos h]
  · have absent : m.contains k = false := decide_eq_false h
    rw [ensure, absent, if_neg Bool.false_ne_true, keys_insert]

theorem get?_ensure (m : OrderedMap κ α) (k k' : κ) (a : α) :
    (m.ensure k a).get? k' = (m.get? k').or (if k = k' then some a else none) := by
  by_cases h : k ∈ m.keys
  · have present : m.contains k = true := decide_eq_true h
    rw [ensure, if_pos present]
    split
    next same =>
      obtain ⟨a', ha'⟩ := Option.isSome_iff_exists.1 ((m.isSome_get? k).2 h)
      rw [← same, ha', Option.some_or]
    next => rw [Option.or_none]
  · have absent : m.contains k = false := decide_eq_false h
    rw [ensure, absent, if_neg Bool.false_ne_true, get?_insert]
    split
    next same => rw [← same, get?_eq_none h, Option.none_or]
    next => rw [Option.or_none]

theorem mem_keys_ensure (m : OrderedMap κ α) (k k' : κ) (a : α) :
    k' ∈ (m.ensure k a).keys ↔ k' = k ∨ k' ∈ m.keys := by
  rw [keys_ensure]
  split
  next h => exact ⟨.inr, fun h' => h'.elim (· ▸ h) id⟩
  next => rw [List.mem_append, List.mem_singleton, or_comm]

theorem modify_eq_mapValues (m : OrderedMap κ α) {k : κ} (hk : k ∈ m.keys) (default : α)
    (f : α → α) :
    m.modify k default f = m.mapValues fun k' a => if k' = k then f a else a :=
  ext_entries (put_eq_map k f default m.entries m.nodup hk)

end OrderedMap

/-- The row with so many replacements and errors more, and an application for each of them. -/
def RuleStats.grow (row : RuleStats) (replacements errors : Nat) : RuleStats :=
  { row with
    applications := row.applications + (replacements + errors)
    replacements := row.replacements + replacements
    errors := row.errors + errors }

namespace Tally

/-- The tally with the rows of one stage grown, each by what its rule has done. -/
def grow (t : Tally) (stage : String) (replacements errors : String → Nat) : Tally :=
  t.mapValues fun key row =>
    if key.1 = stage then row.grow (replacements key.2) (errors key.2) else row

@[simp] theorem keys_grow (t : Tally) (stage : String) (replacements errors : String → Nat) :
    (t.grow stage replacements errors).keys = t.keys :=
  t.keys_mapValues _

theorem grow_zero (t : Tally) (stage : String) : t.grow stage (fun _ => 0) (fun _ => 0) = t := by
  refine Eq.trans (OrderedMap.mapValues_congr t fun key _ row => ?_) t.mapValues_id
  simp [RuleStats.grow]

theorem grow_grow (t : Tally) (stage : String) (r e r' e' : String → Nat) :
    (t.grow stage r e).grow stage r' e' =
      t.grow stage (fun rule => r rule + r' rule) (fun rule => e rule + e' rule) := by
  rw [grow, grow, OrderedMap.mapValues_mapValues]
  refine OrderedMap.mapValues_congr t fun key _ row => ?_
  by_cases h : key.1 = stage
  · have applications : row.applications + (r key.2 + e key.2) + (r' key.2 + e' key.2) =
        row.applications + (r key.2 + r' key.2 + (e key.2 + e' key.2)) := by omega
    simp only [if_pos h, RuleStats.grow, applications, Nat.add_assoc]
  · simp only [if_neg h]

/-- Counting an application that replaced its node or failed. -/
theorem record_eq_grow (t : Tally) {stage rule : String} (enrolled : (stage, rule) ∈ t.keys)
    {v : Verdict} (hv : v ≠ .kept) :
    t.record stage rule v =
      t.grow stage (fun r => if rule = r ∧ v = .replaced then 1 else 0)
        (fun r => if rule = r ∧ v = .failed then 1 else 0) := by
  rw [record, OrderedMap.modify_eq_mapValues t enrolled, grow]
  refine OrderedMap.mapValues_congr t fun key _ row => ?_
  obtain ⟨stage', rule'⟩ := key
  by_cases hstage : stage' = stage
  · by_cases hrule : rule' = rule
    · cases v with
      | kept => exact absurd rfl hv
      | replaced => simp [hstage, hrule, RuleStats.count, RuleStats.grow]
      | failed => simp [hstage, hrule, RuleStats.count, RuleStats.grow]
    · simp [hstage, hrule, Ne.symm hrule, RuleStats.grow]
  · simp [hstage]

end Tally

end StagedLowering
