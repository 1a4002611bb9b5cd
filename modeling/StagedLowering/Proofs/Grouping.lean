import StagedLowering.Proofs.Conduct

/-!
Grouping of binary operators. Target trees keep which operand belongs to which operator, but the
text they print as does not: an operand is printed without brackets, so two trees that differ only
in how a chain of operators is grouped print the same. `Regrouped` is the congruence of these trees.
-/
namespace StagedLowering

namespace Target

/-- Trees that differ in the grouping of adjacent operators only: the least congruence in which
`(a p b) q c` is related to `a p (b q c)`. -/
inductive Regrouped : Target → Target → Prop where
  | refl (t : Target) : Regrouped t t
  | symm {t u : Target} : Regrouped t u → Regrouped u t
  | trans {t u v : Target} : Regrouped t u → Regrouped u v → Regrouped t v
  | assoc (a b c : Target) (p q : String) :
    Regrouped (.binary (.binary a p b .single) q c .single)
      (.binary a p (.binary b q c .single) .single)
  | binary {l l' r r' : Target} (op : String) (padding : Padding) :
    Regrouped l l' → Regrouped r r' →
      Regrouped (.binary l op r padding) (.binary l' op r' padding)
  | callee {f f' : Target} (args : List Target) :
    Regrouped f f' → Regrouped (.call f args) (.call f' args)
  | arg {a a' : Target} (f : Target) (before after : List Target) :
    Regrouped a a' →
      Regrouped (.call f (before ++ a :: after)) (.call f (before ++ a' :: after))

theorem print_binary (l r : Target) (op : String) :
    (Target.binary l op r .single).print = l.print ++ " " ++ op ++ " " ++ r.print := rfl

theorem print_call (f : Target) (args : List Target) :
    (Target.call f args).print = f.print ++ "(" ++ ", ".intercalate (args.map print) ++ ")" := by
  rw [print, printAll_eq_map]

/-- The text does not show the grouping. -/
theorem Regrouped.print_eq {t u : Target} (h : Regrouped t u) : t.print = u.print := by
  induction h with
  | refl t => rfl
  | symm _ ih => exact ih.symm
  | trans _ _ ih ih' => exact ih.trans ih'
  | assoc a b c p q => simp only [print_binary, String.append_assoc]
  | binary op padding _ _ ihl ihr => simp only [print, ihl, ihr]
  | callee args _ ih => simp only [print, ih]
  | arg f before after _ ih => simp only [print_call, List.map_append, List.map_cons, ih]

/-- A chain of operators with no grouping: an operand, and operators each with the next operand. -/
structure Chain where
  head : Target
  tail : List (String × Target)

namespace Chain

/-- The tree of a chain that groups its operators to the right. -/
def targetOf (head : Target) : List (String × Target) → Target
  | [] => head
  | (op, next) :: rest => .binary head op (targetOf next rest) .single

def target (c : Chain) : Target := targetOf c.head c.tail

/-- Two chains with an operator between them. -/
def join (c : Chain) (op : String) (d : Chain) : Chain := ⟨c.head, c.tail ++ (op, d.head) :: d.tail⟩

/-- Joining chains regroups the operator between their trees. -/
theorem regrouped_join (c d : Chain) (op : String) :
    Regrouped (.binary c.target op d.target .single) (c.join op d).target := by
  obtain ⟨head, tail⟩ := c
  simp only [target, join]
  induction tail generalizing head with
  | nil => exact .refl _
  | cons step tail ih =>
    obtain ⟨p, next⟩ := step
    exact (Regrouped.assoc _ _ _ p op).trans (.binary p .single (.refl head) (ih next))

end Chain

mutual

/-- The operators and operands of a tree from left to right, the arguments of calls grouped to the
right. -/
def chain : Target → Chain
  | .binary left op right _ => left.chain.join op right.chain
  | .call callee args => ⟨.call callee (rightAll args), []⟩
  | t => ⟨t, []⟩

def rightAll : List Target → List Target
  | [] => []
  | a :: rest => a.chain.target :: rightAll rest

end

/-- No tree is its own left operand. -/
theorem left_ne (l r : Target) (op : String) (padding : Padding) :
    Target.binary l op r padding ≠ l := by
  intro h
  have := congrArg sizeOf h
  simp at this
  omega

end Target

namespace Pipeline

variable {ω δ : Type}

/-- Whatever is lowered is the translation. -/
theorem eq_translate (config : Config) (e : HighIR) (s s' : Session ω) (t : Target)
    (h : (unchecked config : Pipeline ω δ).lower e s = .ok t s') : t = e.translate config := by
  rw [lower_eq] at h
  cases hfault : e.fault config s.depth with
  | none =>
    rw [hfault] at h
    injection h with ht
    exact ht.symm
  | some err =>
    rw [hfault] at h
    cases h

/-- The two groupings of three operands lower to different trees with the same text. -/
theorem print_groupings_eq (config : Config) (a b c : HighIR) (p q : String)
    (ty₁ ty₂ ty₃ ty₄ : Ty) (s s₁ s' s₂ : Session ω) (t u : Target)
    (ht : (unchecked config : Pipeline ω δ).lower (.binary (.binary a p b ty₁) q c ty₂) s =
      .ok t s₁)
    (hu : (unchecked config : Pipeline ω δ).lower (.binary a p (.binary b q c ty₃) ty₄) s' =
      .ok u s₂) :
    t ≠ u ∧ t.print = u.print ∧
      t.print = (a.translate config).print ++ " " ++ p ++ " " ++ (b.translate config).print ++
        " " ++ q ++ " " ++ (c.translate config).print := by
  obtain rfl := eq_translate config _ s s₁ t ht
  obtain rfl := eq_translate config _ s' s₂ u hu
  refine ⟨?_, (Target.Regrouped.assoc _ _ _ p q).print_eq, ?_⟩
  · intro h
    exact Target.left_ne _ _ _ _ (Target.binary.inj h).1
  · simp only [HighIR.translate, Target.print_binary]

/-- Three operands of which the last is a call: `5 - x - f(1)` in both groupings. -/
theorem print_groupings_eq_call :
    ∃ (s₁ s₂ : Session Unit) (t u : Target),
      (unchecked {} : Pipeline Unit Empty).lower
          (.binary (.binary (.literal (.int 5)) "-" (.identifier "x" .int) .int) "-"
            (.call "f" [.literal (.int 1)] .int) .int) ⟨.empty, 0, ()⟩ = .ok t s₁ ∧
      (unchecked {} : Pipeline Unit Empty).lower
          (.binary (.literal (.int 5)) "-" (.binary (.identifier "x" .int) "-"
            (.call "f" [.literal (.int 1)] .int) .int) .int) ⟨.empty, 0, ()⟩ = .ok u s₂ ∧
      t ≠ u ∧ t.print = u.print ∧ t.print = "5 - x - f(1)" := by
  refine ⟨_, _, _, _, lower_eq {} _ _, lower_eq {} _ _, ?_⟩
  obtain ⟨trees, same, text⟩ := print_groupings_eq {} (.literal (.int 5)) (.identifier "x" .int)
    (.call "f" [.literal (.int 1)] .int) "-" "-" .int .int .int .int ⟨.empty, 0, ()⟩ _
    ⟨.empty, 0, ()⟩ _ _ _
    (lower_eq {} _ _ : (unchecked {} : Pipeline Unit Empty).lower _ _ = _) (lower_eq {} _ _)
  exact ⟨trees, same, text.trans (by decide)⟩

/-- The text does not tell `(1 - 2) - 3` from `1 - (2 - 3)`: that two groupings of three operands
always print differently, even for operators that are not empty and have no blank, is false. -/
theorem not_print_groupings_ne :
    ¬ ∀ (config : Config) (a b c : HighIR) (p q : String) (ty₁ ty₂ ty₃ ty₄ : Ty)
      (s₁ s₂ : Session Unit) (t u : Target),
      p ≠ "" → q ≠ "" → ' ' ∉ p.toList → ' ' ∉ q.toList →
      (unchecked config : Pipeline Unit Empty).lower (.binary (.binary a p b ty₁) q c ty₂)
        ⟨.empty, 0, ()⟩ = .ok t s₁ →
      (unchecked config : Pipeline Unit Empty).lower (.binary a p (.binary b q c ty₃) ty₄)
        ⟨.empty, 0, ()⟩ = .ok u s₂ →
      t.print ≠ u.print := by
  intro differ
  refine differ {} (.literal (.int 1)) (.literal (.int 2)) (.literal (.int 3)) "-" "-" .int .int
    .int .int _ _ _ _ (by decide) (by decide) (by decide) (by decide) (lower_eq _ _ _)
    (lower_eq _ _ _) ?_
  decide

end Pipeline

end StagedLowering
