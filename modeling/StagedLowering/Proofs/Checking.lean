import StagedLowering.Proofs.Absence
import StagedLowering.Proofs.Resolution

/-!
What checking a stage finds, whatever the engine. The check asks for what the rules that claim the
node require; it succeeds if all of it is there, and otherwise names what is not there, each name
once. A key is there if its own slot is filled, or if it is the key of a delegate: a delegate that
is called like a slot does not fill the slot. Rules are not applied by a check, and not counted.
-/
namespace StagedLowering

variable {ω δ : Type}

namespace Context

/-- What the key stands for is there: the content of its own slot, or a delegate under the key. -/
inductive Holds (c : Context ω δ) : Key → Prop
  | lowerer (lower : HighIR → Act ω Target) (h : c.lowerer? = some lower) : c.Holds .lowerer
  | scrutinee (value : TypedValue) (h : c.scrutinee? = some value) : c.Holds .scrutinee
  | matchAnalyzer (analyze : MatchAnalyzer ω) (h : c.matchAnalyzer? = some analyze) :
      c.Holds .matchAnalyzer
  | transformArm (transform : TransformArm ω) (h : c.transformArm? = some transform) :
      c.Holds .transformArm
  | registry (resolve : String → ImportSelection → Act ω Resolution)
      (h : c.registry? = some resolve) : c.Holds .registry
  | registerFunction (register : FunctionDecl → Act ω Unit)
      (h : c.registerFunction? = some register) : c.Holds .registerFunction
  | onMissingItem (onMissing : String → Option String → Act ω Unit)
      (h : c.onMissingItem? = some onMissing) : c.Holds .onMissingItem
  | eventBus (publish : Event → Act ω Unit) (h : c.eventBus? = some publish) : c.Holds .eventBus
  | delegate (key : String) (d : Delegate ω δ) (h : (key, d) ∈ c.delegates) :
      c.Holds (.delegate key)

theorem has_iff_holds (c : Context ω δ) (k : Key) : c.has k = true ↔ c.Holds k := by
  constructor
  · intro has
    cases k with
    | delegate key =>
      obtain ⟨⟨key', d⟩, hd, same⟩ := List.any_eq_true.1 has
      cases eq_of_beq same
      exact .delegate _ d hd
    | _ =>
      obtain ⟨x, hx⟩ := Option.isSome_iff_exists.1 has
      constructor
      exact hx
  · intro holds
    cases holds with
    | delegate key d h => exact List.any_eq_true.2 ⟨(key, d), h, beq_self_eq_true key⟩
    | _ => simp [has, *]

instance (c : Context ω δ) : DecidablePred c.Holds := fun k =>
  decidable_of_iff _ (c.has_iff_holds k)

/-- A delegate is found under its own key and nowhere else, whatever the key is called. -/
theorem holds_withDelegate (c : Context ω δ) (key : String) (d : Delegate ω δ) (k : Key) :
    (c.withDelegate key d).Holds k ↔ k = .delegate key ∨ c.Holds k := by
  rw [← has_iff_holds, ← has_iff_holds]
  cases k with
  | delegate key' =>
    by_cases same : key' = key
    · simp [has, withDelegate, same]
    · have other : ¬ key = key' := fun h => same h.symm
      simp [has, withDelegate, same, other]
  | _ => simp [has, withDelegate]

/-- No slot counts for the key of a delegate. -/
theorem holds_delegate_congr {c c' : Context ω δ} (same : c'.delegates = c.delegates)
    (key : String) :
    c'.Holds (.delegate key) ↔ c.Holds (.delegate key) := by
  rw [← has_iff_holds, ← has_iff_holds, has, has, same]

/-- The names of the keys that are not there, with repetitions. -/
def lacking (c : Context ω δ) (keys : List Key) : List String :=
  (keys.filter fun k => ¬ c.Holds k).map Key.text

theorem mem_lacking {c : Context ω δ} {keys : List Key} {name : String} :
    name ∈ c.lacking keys ↔ ∃ k ∈ keys, ¬ c.Holds k ∧ k.text = name := by
  simp [lacking, and_assoc]

/-- A key that is not there is named unless its name stands there already. -/
theorem noteAbsent_of_not_holds {c : Context ω δ} {k : Key} (h : ¬ c.Holds k)
    (names : List String) :
    c.noteAbsent names k = if k.text ∈ names then names else names ++ [k.text] := by
  have hasNot : c.has k = false := by rwa [← Bool.not_eq_true, c.has_iff_holds]
  by_cases known : k.text ∈ names <;> simp [noteAbsent, hasNot, known]

theorem holds_or_lacks (c : Context ω δ) (keys : List Key) :
    (∀ k ∈ keys, c.Holds k) ∨ ∃ k ∈ keys, ¬ c.Holds k := by
  by_cases holds : ∀ k ∈ keys, c.Holds k
  · exact .inl holds
  · exact .inr (by simpa using holds)

/-- Keys of one name count for one. -/
theorem lacking_eq_singleton {c : Context ω δ} {keys : List Key} {name : String}
    (some : ∃ k ∈ keys, ¬ c.Holds k) (alike : ∀ k ∈ keys, ¬ c.Holds k → k.text = name) :
    (c.lacking keys).eraseDups = [name] := by
  have only : ∀ x ∈ c.lacking keys, x = name := by
    intro x hx
    obtain ⟨k, hk, lacks, rfl⟩ := mem_lacking.1 hx
    exact alike k hk lacks
  obtain ⟨k, hk, lacks⟩ := some
  have listed : name ∈ c.lacking keys := mem_lacking.2 ⟨k, hk, lacks, alike k hk lacks⟩
  rw [List.eq_replicate_of_mem only, eraseDups_replicate, if_pos (List.length_pos_of_mem listed)]

theorem foldl_noteAbsent (c : Context ω δ) (named : List String) (keys : List Key) :
    keys.foldl c.noteAbsent named.eraseDups = (named ++ c.lacking keys).eraseDups := by
  induction keys generalizing named with
  | nil => simp [lacking]
  | cons k keys ih =>
    by_cases holds : c.Holds k
    · have step : c.noteAbsent named.eraseDups k = named.eraseDups := by
        simp [noteAbsent, (c.has_iff_holds k).2 holds]
      have later : c.lacking (k :: keys) = c.lacking keys := by simp [lacking, holds]
      rw [List.foldl_cons, step, ih, later]
    · have step : c.noteAbsent named.eraseDups k = (named ++ [k.text]).eraseDups := by
        rw [noteAbsent_of_not_holds holds, eraseDups_concat rfl]
      have first : c.lacking (k :: keys) = k.text :: c.lacking keys := by simp [lacking, holds]
      rw [List.foldl_cons, step, ih, first, List.append_assoc, List.singleton_append]

/-- What is reported absent are the names of the keys that are not there, without repetitions. -/
theorem absent_eq_eraseDups (c : Context ω δ) (keys : List Key) :
    c.absent keys = (c.lacking keys).eraseDups :=
  c.foldl_noteAbsent [] keys

theorem absent_ne_nil {c : Context ω δ} {keys : List Key} (h : ∃ k ∈ keys, ¬ c.Holds k) :
    c.absent keys ≠ [] := by
  obtain ⟨k, hk, lacks⟩ := h
  intro none
  exact lacks ((c.has_iff_holds k).1 ((c.absent_eq_nil_iff keys).1 none k hk))

end Context

/-- The rule with something else to do. -/
def Rule.reapplying (apply : Rule ω δ → Node → Context ω δ → Act ω Outcome) (r : Rule ω δ) :
    Rule ω δ :=
  { r with apply := apply r }

namespace Entry

variable (apply : Rule ω δ → Node → Context ω δ → Act ω Outcome)

def reapplying (entry : Entry ω δ) : Entry ω δ :=
  { entry with
    supply :=
      match entry.supply with
      | .shared r => .shared (r.reapplying apply)
      | .fresh make => .fresh (do let r ← make; pure (r.reapplying apply)) }

theorem draw_reapplying (entry : Entry ω δ) (world : ω) :
    (entry.reapplying apply).draw world =
      ((entry.draw world).1.reapplying apply, (entry.draw world).2) := by
  unfold reapplying draw
  cases entry.supply with
  | shared r => rfl
  | fresh make => rfl

theorem drawAll_reapplying (entries : List (Entry ω δ)) (world : ω) :
    drawAll (entries.map (reapplying apply)) world =
      ((drawAll entries world).1.map (Rule.reapplying apply), (drawAll entries world).2) := by
  induction entries generalizing world with
  | nil => rfl
  | cons entry entries ih =>
    rw [List.map_cons, drawAll, draw_reapplying, ih]
    rfl

end Entry

namespace Engine

/-- The engine whose rules claim and require what they did, and do something else. -/
def reapplying (apply : Rule ω δ → Node → Context ω δ → Act ω Outcome) (E : Engine ω δ) :
    Engine ω δ :=
  { E with stages := E.stages.mapValues fun _ entries => entries.map (Entry.reapplying apply) }

theorem entries_reapplying (apply : Rule ω δ → Node → Context ω δ → Act ω Outcome)
    (E : Engine ω δ) (stage : String) :
    (E.reapplying apply).entries stage = (E.entries stage).map (Entry.reapplying apply) := by
  unfold entries reapplying
  rw [OrderedMap.get?_mapValues]
  cases E.stages.get? stage <;> rfl

section Check

variable (E : Engine ω δ) (stage : String) (n : Node) (c : Context ω δ)

/-- A check does not depend on what the rules do. -/
theorem validate_reapplying (apply : Rule ω δ → Node → Context ω δ → Act ω Outcome) :
    (E.reapplying apply).validate stage n c = E.validate stage n c := by
  funext s
  rw [validate_eq, validate_eq, entries_reapplying, Entry.drawAll_reapplying, List.flatMap_map]
  rfl

/-- The keys that the rules of a stage require for a node, in a world from which they are drawn. -/
def requiredKeys (world : ω) : List Key :=
  ((Entry.drawAll (E.entries stage) world).1.filter (·.applies n c)).flatMap Rule.requires

/-- The session once the rules of a stage are drawn, which changes nothing but the world. -/
def drawnSession (s : Session ω) : Session ω :=
  { s with world := (Entry.drawAll (E.entries stage) s.world).2 }

theorem flatMap_requires (rules : List (Rule ω δ)) :
    (rules.flatMap fun r => if r.applies n c then r.requires else []) =
      (rules.filter (·.applies n c)).flatMap Rule.requires := by
  induction rules with
  | nil => rfl
  | cons r rules ih =>
    cases claimed : r.applies n c <;> simp [claimed, ih]

theorem validate_of_holds {s : Session ω} (h : ∀ k ∈ E.requiredKeys stage n c s.world, c.Holds k) :
    E.validate stage n c s = .ok () (E.drawnSession stage s) := by
  have present := c.require_eq_ok _ fun k hk => (c.has_iff_holds k).2 (h k hk)
  rw [validate_eq, flatMap_requires, ← requiredKeys, present]
  rfl

theorem validate_of_lacking {s : Session ω}
    (h : ∃ k ∈ E.requiredKeys stage n c s.world, ¬ c.Holds k) :
    E.validate stage n c s =
      .error (.lowering (.missing (c.lacking (E.requiredKeys stage n c s.world)).eraseDups))
        (E.drawnSession stage s) := by
  have refused := c.require_eq_error (Context.absent_ne_nil h)
  rw [c.absent_eq_eraseDups] at refused
  rw [validate_eq, flatMap_requires, ← requiredKeys, refused]
  rfl

/-- However a check ends, it has done no more than draw the rules. -/
theorem validate_ends (s : Session ω) :
    E.validate stage n c s = .ok () (E.drawnSession stage s) ∨
      ∃ f, E.validate stage n c s = .error f (E.drawnSession stage s) := by
  rcases c.holds_or_lacks (E.requiredKeys stage n c s.world) with holds | lacks
  · exact .inl (E.validate_of_holds stage n c holds)
  · exact .inr ⟨_, E.validate_of_lacking stage n c lacks⟩

theorem during_validate (world : ω) : (E.during (E.validate stage n c) world).2.1 = E := by
  rcases E.validate_ends stage n c ⟨E.tally, 0, world⟩ with done | ⟨f, failed⟩
  · rw [during_ok done]
    rfl
  · rw [during_error failed]
    rfl

/-- A check succeeds exactly if the context holds every key that the rules claiming the node
require. Otherwise it names the keys that are not there, each name once and in the order in which
the names first come, and says by its wording whether it is one name or more; so a slot and a
delegate of that name, looked for each in its own place, are reported by one name. It does not
matter what the rules would do, and nothing is counted. -/
theorem validate_exact (s : Session ω) :
    let keys := E.requiredKeys stage n c s.world
    let names := (c.lacking keys).eraseDups
    let s' : Session ω := { s with world := (Entry.drawAll (E.entries stage) s.world).2 }
    ((∃ t, E.validate stage n c s = .ok () t) ↔ ∀ k ∈ keys, c.Holds k) ∧
    (∀ f t, E.validate stage n c s = .error f t →
      (∃ name, names = [name] ∧ f = .lowering (.missingCollaborator name)) ∨
        2 ≤ names.length ∧ f = .lowering (.missingCollaborators names)) ∧
    (names.Nodup ∧ names.Pairwise (Precedes (c.lacking keys)) ∧
      ∀ name, name ∈ names ↔ ∃ k ∈ keys, ¬ c.Holds k ∧ k.text = name) ∧
    (∀ key d k, (c.withDelegate key d).Holds k ↔ k = .delegate key ∨ c.Holds k) ∧
    (∀ c' : Context ω δ, c'.delegates = c.delegates →
      ∀ key, c'.Holds (.delegate key) ↔ c.Holds (.delegate key)) ∧
    (∀ name, (∃ k ∈ keys, ¬ c.Holds k) → (∀ k ∈ keys, ¬ c.Holds k → k.text = name) →
      E.validate stage n c s = .error (.lowering (.missingCollaborator name)) s') ∧
    (∀ apply, (E.reapplying apply).validate stage n c = E.validate stage n c) ∧
    (E.validate stage n c s = .ok () s' ∨ ∃ f, E.validate stage n c s = .error f s') ∧
    ∀ world, (E.during (E.validate stage n c) world).2.1 = E := by
  intro keys names s'
  have ordered : names.Pairwise (Precedes (c.lacking keys)) := eraseDups_precedes _
  refine ⟨⟨?_, fun holds => ⟨s', E.validate_of_holds stage n c holds⟩⟩, fun f t failed => ?_,
    ⟨nodup_of_precedes ordered, ordered, fun name => ?_⟩, c.holds_withDelegate,
    fun c' => Context.holds_delegate_congr, fun name some alike => ?_,
    E.validate_reapplying stage n c, E.validate_ends stage n c s, E.during_validate stage n c⟩
  · rintro ⟨t, done⟩
    rcases c.holds_or_lacks keys with holds | lacks
    · exact holds
    · rw [E.validate_of_lacking stage n c lacks] at done
      cases done
  · rcases c.holds_or_lacks keys with holds | lacks
    · rw [E.validate_of_holds stage n c holds] at failed
      cases failed
    · rw [E.validate_of_lacking stage n c lacks] at failed
      cases failed
      have named := Context.absent_ne_nil lacks
      rw [c.absent_eq_eraseDups] at named
      rcases LoweringError.missing_cases named with ⟨name, one, wording⟩ | ⟨more, wording⟩
      · exact .inl ⟨name, one, congrArg Failure.lowering wording⟩
      · exact .inr ⟨more, congrArg Failure.lowering wording⟩
  · rw [List.mem_eraseDups, Context.mem_lacking]
  · rw [E.validate_of_lacking stage n c some, Context.lacking_eq_singleton some alike]
    rfl

end Check

/-- A slot and a delegate that is called like it are both required. If neither is there they are
reported by one name, and a delegate does not make up for the slot. -/
theorem validate_exact_of_namesakes :
    let r : Rule Unit Nat :=
      { name := "r", requires := [.scrutinee, .delegate "scrutinee", .scrutinee]
        applies := fun _ _ => true, apply := fun _ _ => pure .unchanged }
    let E : Engine Unit Nat := Engine.register {} "s" (.ofRule r)
    let n : Node := .high (.literal .nil)
    let s : Session Unit := ⟨.empty, 0, ()⟩
    let c : Context Unit Nat := .withDelegate .empty "scrutinee" (.custom 1)
    let missing : Failure := .lowering (.missingCollaborator "scrutinee")
    E.validate "s" n .empty s = .error missing s ∧ E.validate "s" n c s = .error missing s ∧
      ∃ t, E.validate "s" n { c with scrutinee? := some ⟨.literal .nil, .nil⟩ } s = .ok () t := by
  intro r E n s c missing
  obtain ⟨-, -, -, -, -, both, -⟩ := E.validate_exact "s" n .empty s
  obtain ⟨-, -, -, -, -, slot, -⟩ := E.validate_exact "s" n c s
  obtain ⟨filled, -⟩ :=
    E.validate_exact "s" n { c with scrutinee? := some ⟨.literal .nil, .nil⟩ } s
  refine ⟨both "scrutinee" ?_ ?_, slot "scrutinee" ?_ ?_, filled.2 ?_⟩
  all_goals decide

end Engine

end StagedLowering
