import StagedLowering.Proofs.LoweringOutcome

/-!
Where the nodes of an expression stand. A node is placed by the path that leads to it from the root,
so that the nodes above it are those whose path is a beginning of its own. Places come in the order
in which nodes are visited, and no node comes after one that it stands above.
-/
namespace StagedLowering

/-- A node of an expression and the path to it: which operand or argument to take at each node on
the way down, counted from zero. -/
structure Place where
  path : List Nat
  node : HighIR

namespace Place

def visit (p : Place) : Visit := ⟨p.path.length, p.node⟩

/-- Whether the way to `q` leads through `p`. -/
def above (p q : Place) : Bool := p.path.isPrefixOf q.path && p.path != q.path

/-- Whether it is for this rule to lower the node. -/
def isFor (rule : String) (p : Place) : Bool := p.node.handler == rule

theorem above_iff (p q : Place) : p.above q = true ↔ p.path <+: q.path ∧ p.path ≠ q.path := by
  simp [above]

/-- A node stands above all that is reached by a step down from it. -/
theorem above_of_step {p q : Place} {i : Nat} (h : p.path ++ [i] <+: q.path) :
    p.above q = true := by
  rw [above_iff]
  refine ⟨(List.prefix_append _ _).trans h, fun same => ?_⟩
  have longer := h.length_le
  rw [← same, List.length_append] at longer
  exact Nat.not_succ_le_self _ longer

/-- Nothing that is reached from a node stands above it. -/
theorem not_above_of_below {p q : Place} (h : p.path <+: q.path) : q.above p = false := by
  rw [← Bool.not_eq_true, above_iff]
  rintro ⟨back, different⟩
  exact different (back.eq_of_length_le h.length_le)

/-- Nodes on different branches do not stand above each other. -/
theorem not_above_of_branches {path : List Nat} {i j : Nat} (hij : i ≠ j) {p q : Place}
    (hp : path ++ [i] <+: p.path) (hq : path ++ [j] <+: q.path) : p.above q = false := by
  rw [← Bool.not_eq_true, above_iff]
  rintro ⟨through, -⟩
  have same := List.prefix_of_prefix_length_le (hp.trans through) hq (by simp)
  have equal := same.eq_of_length (by simp)
  exact hij (by simpa using equal)

end Place

namespace HighIR

/-- The expressions directly below a node that are lowered with it. -/
def operands : HighIR → List HighIR
  | .binary left _ right _ => [left, right]
  | .call _ args _ => args
  | _ => []

/-- What holds of a node if it holds of its operands holds of every expression. -/
@[elab_as_elim]
theorem inductionBelow {motive : HighIR → Prop}
    (node : ∀ e, (∀ a ∈ e.operands, motive a) → motive e) (e : HighIR) : motive e := by
  induction e using operandInduction with
  | literal _ | identifier _ _ | regex _ _ | matching _ _ _ | importing _ _ =>
    exact node _ (by simp [operands])
  | binary left op right ty ihl ihr => exact node _ (by simp [operands, ihl, ihr])
  | call callee args ty ih => exact node _ ih

mutual

/-- The nodes of an expression from left to right, each before those below it; `path` leads to the
root. -/
def places (path : List Nat) : HighIR → List Place
  | .binary left op right ty =>
    ⟨path, .binary left op right ty⟩ :: (left.places (path ++ [0]) ++ right.places (path ++ [1]))
  | .call callee args ty => ⟨path, .call callee args ty⟩ :: placesFrom path 0 args
  | e => [⟨path, e⟩]

/-- The nodes of operands of which the first is number `i`. -/
def placesFrom (path : List Nat) (i : Nat) : List HighIR → List Place
  | [] => []
  | a :: rest => a.places (path ++ [i]) ++ placesFrom path (i + 1) rest

end

theorem places_eq (path : List Nat) (e : HighIR) :
    e.places path = ⟨path, e⟩ :: placesFrom path 0 e.operands := by
  cases e <;> simp [places, placesFrom, operands]

theorem visits_eq (level : Nat) (e : HighIR) :
    e.visits level = ⟨level, e⟩ :: visitsAll (level + 1) e.operands := by
  cases e <;> simp [visits, visitsAll, operands]

theorem placesFrom_visit (path : List Nat) (i : Nat) (args : List HighIR)
    (ih : ∀ a ∈ args, ∀ path : List Nat, (a.places path).map Place.visit = a.visits path.length) :
    (placesFrom path i args).map Place.visit = visitsAll (path.length + 1) args := by
  induction args generalizing i with
  | nil => rfl
  | cons a args ihargs =>
    have first := ih a List.mem_cons_self (path ++ [i])
    have rest := ihargs (i + 1) fun b hb => ih b (List.mem_cons_of_mem a hb)
    rw [List.length_append] at first
    rw [placesFrom, visitsAll, List.map_append, first, rest]
    rfl

/-- Places are visited in their order, each at the level of its path's length. -/
theorem places_visit (e : HighIR) (path : List Nat) :
    (e.places path).map Place.visit = e.visits path.length := by
  induction e using inductionBelow generalizing path with
  | node e ih =>
    rw [places_eq, visits_eq, List.map_cons, placesFrom_visit path 0 e.operands ih]
    rfl

theorem placesFrom_below (path : List Nat) (i : Nat) (args : List HighIR)
    (ih : ∀ a ∈ args, ∀ path : List Nat, ∀ p ∈ a.places path, path <+: p.path) :
    ∀ p ∈ placesFrom path i args, ∃ j, i ≤ j ∧ path ++ [j] <+: p.path := by
  induction args generalizing i with
  | nil => simp [placesFrom]
  | cons a args ihargs =>
    intro p hp
    rcases List.mem_append.1 hp with first | rest
    · exact ⟨i, Nat.le_refl i, ih a List.mem_cons_self _ p first⟩
    · obtain ⟨j, hj, below⟩ := ihargs (i + 1) (fun b hb => ih b (List.mem_cons_of_mem a hb)) p rest
      exact ⟨j, Nat.le_of_succ_le hj, below⟩

/-- The way to a node of an expression leads through its root. -/
theorem places_below (e : HighIR) (path : List Nat) : ∀ p ∈ e.places path, path <+: p.path := by
  induction e using inductionBelow generalizing path with
  | node e ih =>
    rw [places_eq, List.forall_mem_cons]
    refine ⟨List.prefix_refl path, fun p hp => ?_⟩
    obtain ⟨j, -, below⟩ := placesFrom_below path 0 e.operands ih p hp
    exact (List.prefix_append path [j]).trans below

/-- The operands of a node stand on branches of their own, numbered from left to right. -/
theorem placesFrom_branch {path : List Nat} {i : Nat} {args : List HighIR} {p : Place}
    (hp : p ∈ placesFrom path i args) : ∃ j, i ≤ j ∧ path ++ [j] <+: p.path :=
  placesFrom_below path i args (fun a _ => a.places_below) p hp

theorem placesFrom_ordered (path : List Nat) (i : Nat) (args : List HighIR)
    (ih : ∀ a ∈ args, ∀ path : List Nat,
      (a.places path).Pairwise fun p q => q.above p = false) :
    (placesFrom path i args).Pairwise fun p q => q.above p = false := by
  induction args generalizing i with
  | nil => exact List.Pairwise.nil
  | cons a args ihargs =>
    refine List.pairwise_append.2 ⟨ih a List.mem_cons_self _,
      ihargs (i + 1) fun b hb => ih b (List.mem_cons_of_mem a hb), fun p hp q hq => ?_⟩
    obtain ⟨j, hj, below⟩ := placesFrom_branch hq
    exact Place.not_above_of_branches (by omega) below (a.places_below _ p hp)

/-- No node comes after one that it stands above. -/
theorem places_ordered (e : HighIR) (path : List Nat) :
    (e.places path).Pairwise fun p q => q.above p = false := by
  induction e using inductionBelow generalizing path with
  | node e ih =>
    rw [places_eq]
    refine List.pairwise_cons.2 ⟨fun q hq => ?_, placesFrom_ordered path 0 e.operands ih⟩
    obtain ⟨j, -, below⟩ := placesFrom_branch hq
    exact Place.not_above_of_below ((List.prefix_append path [j]).trans below)

end HighIR

/-- Among places, `v` is the first that cannot be lowered, for the reason `err`, and `before` are
the places before it. -/
structure Place.FirstOffence (config : Config) (places before : List Place) (v : Place)
    (err : LoweringError) : Prop where
  split : ∃ after, places = before ++ v :: after
  sound : ∀ w ∈ before, config.offence w.visit = none
  offends : config.offence v.visit = some err

namespace Place

variable {config : Config} {before : List Place} {v : Place} {err : LoweringError}

/-- The first offence among places is the first among their visits. -/
theorem FirstOffence.visits {places : List Place}
    (h : Place.FirstOffence config places before v err) :
    StagedLowering.FirstOffence config (places.map visit) (before.map visit) v.visit err := by
  obtain ⟨after, rfl⟩ := h.split
  refine ⟨⟨after.map visit, by simp⟩, fun w hw => ?_, h.offends⟩
  obtain ⟨p, hp, rfl⟩ := List.mem_map.1 hw
  exact h.sound p hp

theorem FirstOffence.mem {places : List Place} (h : Place.FirstOffence config places before v err) :
    v ∈ places := by
  obtain ⟨after, rfl⟩ := h.split
  simp

theorem FirstOffence.fault_eq {e : HighIR} {path : List Nat}
    (h : Place.FirstOffence config (e.places path) before v err) :
    e.fault config path.length = some err := by
  have visits := h.visits
  rw [e.places_visit] at visits
  exact visits.findSome?_eq

/-- Where nothing stands above `v`, all nodes of a rule count as apart from it. -/
theorem countP_apart {ps : List Place} (rule : String) (h : ∀ p ∈ ps, p.above v = false) :
    (ps.countP fun w => w.isFor rule && !w.above v) = ps.countP (isFor rule) ∧
      ps.countP (fun w => w.isFor rule && w.above v) = 0 := by
  constructor
  · refine List.countP_congr fun p hp => ?_
    simp [h p hp]
  · refine List.countP_eq_zero.2 fun p hp => ?_
    simp [h p hp]

/-- All that stands above the first offence comes before it. -/
theorem FirstOffence.countP_above {e : HighIR} {path : List Nat}
    (h : Place.FirstOffence config (e.places path) before v err) (rule : String) :
    (e.places path).countP (fun w => w.isFor rule && w.above v) =
      before.countP fun w => w.isFor rule && w.above v := by
  obtain ⟨after, hplaces⟩ := h.split
  have ordered := e.places_ordered path
  rw [hplaces] at ordered ⊢
  have later (w : Place) (hw : w ∈ v :: after) : w.above v = false := by
    rcases List.mem_cons.1 hw with rfl | hw
    · exact not_above_of_below (List.prefix_refl _)
    · exact (List.pairwise_cons.1 (List.pairwise_append.1 ordered).2.1).1 w hw
  rw [List.countP_append, (countP_apart rule later).2, Nat.add_zero]

end Place

namespace HighIR

variable {config : Config} {e : HighIR}

/-- An expression has no fault exactly if it has no offence in any place. -/
theorem fault_eq_none_iff_sound (path : List Nat) :
    e.fault config path.length = none ↔ ∀ p ∈ e.places path, config.offence p.visit = none := by
  rw [fault, ← places_visit, List.findSome?_map]
  exact List.findSome?_eq_none_iff

/-- An expression with a fault has a first place where that is. -/
theorem exists_firstOffence (path : List Nat) {err : LoweringError}
    (h : e.fault config path.length = some err) :
    ∃ before v, Place.FirstOffence config (e.places path) before v err := by
  rw [fault, ← places_visit, List.findSome?_map] at h
  obtain ⟨before, v, after, hplaces, offends, sound⟩ := List.findSome?_eq_some_iff.1 h
  exact ⟨before, v, ⟨after, hplaces⟩, sound, offends⟩

end HighIR

end StagedLowering
