import StagedLowering.Pipeline

/-!
What a lowering comes to, read off the expression alone. An expression is visited from the root
down, operands and arguments from left to right, each node with its level. A visit can be an
offence, and the first one is the fault of the expression; without a fault the expression has a
translation. Nothing here mentions a stage, a context or a session.
-/
namespace StagedLowering

namespace HighIR

/-- Induction along operands and arguments. The arms of a match are not lowered, so a match is a
case without hypotheses. -/
@[elab_as_elim]
theorem operandInduction {motive : HighIR → Prop}
    (literal : ∀ value, motive (.literal value))
    (identifier : ∀ name ty, motive (.identifier name ty))
    (binary : ∀ left op right ty, motive left → motive right → motive (.binary left op right ty))
    (regex : ∀ pattern flags, motive (.regex pattern flags))
    (call : ∀ callee args ty, (∀ a ∈ args, motive a) → motive (.call callee args ty))
    (matching : ∀ scrutinee arms ty, motive (.matching scrutinee arms ty))
    (importing : ∀ module functions, motive (.importing module functions)) :
    ∀ e, motive e
  | .literal value => literal value
  | .identifier name ty => identifier name ty
  | .binary left op right ty =>
    binary left op right ty
      (operandInduction literal identifier binary regex call matching importing left)
      (operandInduction literal identifier binary regex call matching importing right)
  | .regex pattern flags => regex pattern flags
  | .call callee args ty =>
    call callee args ty fun a _ =>
      operandInduction literal identifier binary regex call matching importing a
  | .matching scrutinee arms ty => matching scrutinee arms ty
  | .importing module functions => importing module functions

end HighIR

/-- A node of an expression and how far below the root it stands. -/
structure Visit where
  level : Nat
  node : HighIR

namespace HighIR

mutual

/-- The visits of an expression whose root is at `level`: the root, then its operands or arguments
from left to right, each with all that is below it. -/
def visits (level : Nat) : HighIR → List Visit
  | .binary left op right ty =>
    ⟨level, .binary left op right ty⟩ :: (left.visits (level + 1) ++ right.visits (level + 1))
  | .call callee args ty => ⟨level, .call callee args ty⟩ :: visitsAll (level + 1) args
  | e => [⟨level, e⟩]

def visitsAll (level : Nat) : List HighIR → List Visit
  | [] => []
  | a :: rest => a.visits level ++ visitsAll level rest

end

mutual

/-- How many levels an expression takes up. -/
def height : HighIR → Nat
  | .binary left _ right _ => 1 + max left.height right.height
  | .call _ args _ => 1 + heightAll args
  | _ => 1

def heightAll : List HighIR → Nat
  | [] => 0
  | a :: rest => max a.height (heightAll rest)

end

theorem visitsAll_eq_flatMap (level : Nat) (args : List HighIR) :
    visitsAll level args = args.flatMap (visits level) := by
  induction args with
  | nil => rfl
  | cons a rest ih => simp [visitsAll, ih]

theorem heightAll_le_iff (args : List HighIR) (n : Nat) :
    heightAll args ≤ n ↔ ∀ a ∈ args, a.height ≤ n := by
  induction args with
  | nil => simp [heightAll]
  | cons a rest ih => rw [heightAll, Nat.max_le, ih, List.forall_mem_cons]

theorem height_pos (e : HighIR) : 0 < e.height := by
  cases e <;> simp only [height] <;> omega

/-- The visits stay below a level exactly if the expression has the height for it. -/
theorem level_lt_iff (e : HighIR) (level n : Nat) :
    (∀ v ∈ e.visits level, v.level < n) ↔ level + e.height ≤ n := by
  induction e using operandInduction generalizing level with
  | literal _ | identifier _ _ | regex _ _ | matching _ _ _ | importing _ _ =>
    simp only [visits, height, List.forall_mem_singleton]
    omega
  | binary left op right ty ihl ihr =>
    have hl := ihl (level + 1)
    have hr := ihr (level + 1)
    have pos := left.height_pos
    simp only [visits, height, List.forall_mem_cons, List.forall_mem_append, hl, hr]
    omega
  | call callee args ty ih =>
    have below : (∀ v ∈ visitsAll (level + 1) args, v.level < n) ↔
        ∀ a ∈ args, level + 1 + a.height ≤ n := by
      rw [visitsAll_eq_flatMap]
      constructor
      · intro h a ha
        exact (ih a ha (level + 1)).1 fun v hv => h v (List.mem_flatMap.2 ⟨a, ha, hv⟩)
      · intro h v hv
        obtain ⟨a, ha, hv⟩ := List.mem_flatMap.1 hv
        exact (ih a ha (level + 1)).2 (h a ha) v hv
    simp only [visits, height, List.forall_mem_cons, below]
    constructor
    · rintro ⟨root, args⟩
      have := (heightAll_le_iff _ (n - (level + 1))).2 fun a ha => by have := args a ha; omega
      omega
    · intro h
      refine ⟨by omega, fun a ha => ?_⟩
      have := (heightAll_le_iff _ (n - (level + 1))).1 (by omega) a ha
      omega

/-- An element of a joined list stands in one of the two lists. -/
theorem append_eq_split {α : Type} {xs ys before after : List α} {x : α}
    (h : xs ++ ys = before ++ x :: after) :
    (∃ tail, xs = before ++ x :: tail ∧ after = tail ++ ys) ∨
      ∃ lead, ys = lead ++ x :: after ∧ before = xs ++ lead := by
  rcases List.append_eq_append_iff.1 h with ⟨lead, rfl, hy⟩ | ⟨tail, hx, hy⟩
  · exact .inr ⟨lead, hy, rfl⟩
  · cases tail with
    | nil => exact .inr ⟨[], by simpa using hy.symm, by simpa using hx.symm⟩
    | cons y tail =>
      obtain ⟨rfl, rfl⟩ := List.cons.inj hy
      exact .inl ⟨tail, hx, rfl⟩

/-- An argument whose visits hold the given place in the visits of a list of arguments. -/
theorem visitsAll_split (level : Nat) (args : List HighIR) (before after : List Visit) (v : Visit)
    (h : visitsAll level args = before ++ v :: after) :
    ∃ a ∈ args, ∃ lead tail rest, a.visits level = lead ++ v :: tail ∧ after = tail ++ rest := by
  induction args generalizing before with
  | nil => simp [visitsAll] at h
  | cons a args ih =>
    rcases append_eq_split h with ⟨tail, ha, hafter⟩ | ⟨lead, hargs, -⟩
    · exact ⟨a, List.mem_cons_self, before, tail, _, ha, hafter⟩
    · obtain ⟨b, hb, split⟩ := ih lead hargs
      exact ⟨b, List.mem_cons_of_mem a hb, split⟩

theorem visits_eq_cons (level : Nat) (e : HighIR) :
    ∃ below, e.visits level = ⟨level, e⟩ :: below := by
  cases e <;> exact ⟨_, rfl⟩

/-- Where a node is visited, the visits of its own subexpression follow. -/
theorem visits_follow (e : HighIR) (level : Nat) (before after : List Visit) (v : Visit)
    (h : e.visits level = before ++ v :: after) :
    ∃ rest, v :: after = v.node.visits v.level ++ rest := by
  induction e using operandInduction generalizing level before after with
  | literal _ | identifier _ _ | regex _ _ | matching _ _ _ | importing _ _ =>
    cases before with
    | nil =>
      obtain ⟨rfl, rfl⟩ := List.cons.inj h
      exact ⟨[], rfl⟩
    | cons b before => simp [visits] at h
  | binary left op right ty ihl ihr =>
    cases before with
    | nil =>
      obtain ⟨rfl, rfl⟩ := List.cons.inj h
      exact ⟨[], by simp [visits]⟩
    | cons b before =>
      rcases append_eq_split (List.cons.inj h).2 with ⟨tail, hl, rfl⟩ | ⟨lead, hr, -⟩
      · obtain ⟨rest, hrest⟩ := ihl _ _ _ hl
        exact ⟨rest ++ right.visits (level + 1), by rw [← List.append_assoc, ← hrest]; rfl⟩
      · exact ihr _ _ _ hr
  | call callee args ty ih =>
    cases before with
    | nil =>
      obtain ⟨rfl, rfl⟩ := List.cons.inj h
      exact ⟨[], by simp [visits]⟩
    | cons b before =>
      obtain ⟨a, ha, lead, tail, rest, hvisits, rfl⟩ :=
        visitsAll_split _ _ _ _ _ (List.cons.inj h).2
      obtain ⟨rest', hrest⟩ := ih a ha _ _ _ hvisits
      exact ⟨rest' ++ rest, by rw [← List.append_assoc, ← hrest]; rfl⟩

end HighIR

/-- Why a visit cannot be lowered: the level counts first, then what the node is. -/
def Config.offence (config : Config) (v : Visit) : Option LoweringError :=
  if config.maxDepth.toNat ≤ v.level then some (.depthExceeded config.maxDepth)
  else
    match v.node with
    | .literal (.float value) => if value.finite then none else some (.nonFiniteFloat value.text)
    | .matching _ _ _ => some (.notLowered Stage.codegen .highMatch)
    | .importing _ _ => some (.notLowered Stage.codegen .highImport)
    | _ => none

/-- A visit is no offence exactly if its level is within the limit and its node has a target. -/
theorem Config.offence_eq_none_iff (config : Config) (v : Visit) :
    config.offence v = none ↔
      v.level < config.maxDepth.toNat ∧
        (v.node.kind ≠ .highMatch ∧ v.node.kind ≠ .highImport) ∧
          ∀ value, v.node = .literal (.float value) → value.finite = true := by
  obtain ⟨level, node⟩ := v
  by_cases deep : config.maxDepth.toNat ≤ level
  · constructor
    · intro h
      simp [offence, deep] at h
    · rintro ⟨within, -⟩
      exact absurd deep (Nat.not_le.2 within)
  · have within : level < config.maxDepth.toNat := by omega
    cases node with
    | literal value => cases value <;> simp [offence, deep, within, HighIR.kind]
    | identifier name ty => simp [offence, deep, within, HighIR.kind]
    | binary left op right ty => simp [offence, deep, within, HighIR.kind]
    | regex pattern flags => simp [offence, deep, within, HighIR.kind]
    | call callee args ty => simp [offence, deep, within, HighIR.kind]
    | matching scrutinee arms ty => simp [offence, deep, HighIR.kind]
    | importing module functions => simp [offence, deep, HighIR.kind]

/-- The target leaf of a literal. -/
def Literal.target : Literal → Target
  | .int value => .number (toString value.toInt)
  | .float value => .number value.text
  | .str value => .string value
  | .bool value => .boolean value
  | .nil => .nil

namespace HighIR

/-- The first offence of an expression whose root is at `level`. -/
def fault (config : Config) (level : Nat) (e : HighIR) : Option LoweringError :=
  (e.visits level).findSome? config.offence

def faultAll (config : Config) (level : Nat) (args : List HighIR) : Option LoweringError :=
  (visitsAll level args).findSome? config.offence

mutual

/-- The target expression of an expression. A match and an import have none: what stands here for
them is never the result of a lowering. -/
def translate (config : Config) : HighIR → Target
  | .literal value => value.target
  | .identifier name _ => .identifier name
  | .binary left op right _ =>
    .binary (left.translate config) op (right.translate config) .single
  | .regex pattern flags =>
    .call
      (.identifier
        (if config.caseInsensitiveFlag ∈ flags.toList then config.regexCaseInsensitiveConstructor
          else config.regexConstructor))
      [.string pattern]
  | .call callee args _ => .call (.identifier callee) (translateAll config args)
  | .matching _ _ _ => .nil
  | .importing _ _ => .nil

def translateAll (config : Config) : List HighIR → List Target
  | [] => []
  | a :: rest => a.translate config :: translateAll config rest

end

variable (config : Config) (level : Nat)

theorem fault_deep (e : HighIR) (h : config.maxDepth.toNat ≤ level) :
    e.fault config level = some (.depthExceeded config.maxDepth) := by
  obtain ⟨below, hvisits⟩ := visits_eq_cons level e
  simp [fault, hvisits, Config.offence, h]

theorem fault_binary (left right : HighIR) (op : String) (ty : Ty)
    (h : level < config.maxDepth.toNat) :
    (HighIR.binary left op right ty).fault config level =
      (left.fault config (level + 1)).or (right.fault config (level + 1)) := by
  have root : config.offence ⟨level, .binary left op right ty⟩ = none := by
    simp [Config.offence, Nat.not_le.2 h]
  simp [fault, visits, root, List.findSome?_append]

theorem fault_call (callee : String) (args : List HighIR) (ty : Ty)
    (h : level < config.maxDepth.toNat) :
    (HighIR.call callee args ty).fault config level = faultAll config (level + 1) args := by
  have root : config.offence ⟨level, .call callee args ty⟩ = none := by
    simp [Config.offence, Nat.not_le.2 h]
  simp [fault, faultAll, visits, root]

theorem faultAll_cons (a : HighIR) (rest : List HighIR) :
    faultAll config level (a :: rest) =
      (a.fault config level).or (faultAll config level rest) := by
  simp [fault, faultAll, visitsAll, List.findSome?_append]

end HighIR

end StagedLowering
