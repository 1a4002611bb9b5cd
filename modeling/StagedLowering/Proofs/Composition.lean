import StagedLowering.Proofs.Registrations
import StagedLowering.Proofs.Sights
import StagedLowering.Proofs.Tallies

/-!
Stages compose. Running through two lists of stages is running through the one and then, if that
went well, through the other; stages that were never registered do not matter; and it is all one
whether rules stand in one stage or are spread over two.
-/
namespace StagedLowering

variable {ω δ : Type}

namespace Engine

/-- The same engine, not counting. -/
def silenced (E : Engine ω δ) : Engine ω δ := { E with collectStats := false }

theorem entries_unregistered {E : Engine ω δ} {stage : String} (h : stage ∉ E.stageNames) :
    E.entries stage = [] := by
  rw [entries, OrderedMap.get?_eq_none h]
  rfl

section

variable (E : Engine ω δ) (n : Node) (c : Context ω δ)

theorem applyAll_cons (stage : String) (stages : List String) :
    E.applyAll (stage :: stages) n c = E.apply stage n c >>= fun n' => E.applyAll stages n' c :=
  List.foldlM_cons ..

theorem applyAll_append (ss ts : List String) :
    E.applyAll (ss ++ ts) n c = E.applyAll ss n c >>= fun n' => E.applyAll ts n' c :=
  List.foldlM_append ..

theorem applyAll_pair (stage stage' : String) :
    E.applyAll [stage, stage'] n c = E.apply stage n c >>= fun n' => E.apply stage' n' c := by
  simp [applyAll]

/-- Stages that were never registered pass a node on. -/
theorem applyAll_registered (ss : List String) :
    E.applyAll ss n c = E.applyAll (ss.filter (· ∈ E.stageNames)) n c := by
  induction ss generalizing n with
  | nil => rfl
  | cons stage ss ih =>
    by_cases h : stage ∈ E.stageNames
    · rw [List.filter_cons_of_pos (by simpa using h), applyAll_cons, applyAll_cons]
      exact congrArg (E.apply stage n c >>= ·) (funext ih)
    · rw [List.filter_cons_of_neg (by simpa using h), ← ih, applyAll_cons, apply,
        entries_unregistered h, List.foldlM_nil, pure_bind]

end

variable {E W : Engine ω δ} {S S₁ S₂ : String}

/-- Where nothing is counted, stage names do not matter to an entry. -/
theorem applyEntry_silent (quiet : E.collectStats = false) (quiet' : W.collectStats = false)
    (stage stage' : String) : E.applyEntry stage = W.applyEntry stage' := by
  funext c n entry
  unfold applyEntry record
  rw [quiet, quiet']
  rfl

/-- Rules in one stage or spread over two: the same action if nothing is counted. -/
theorem apply_eq_applyAll (quiet : E.collectStats = false) (quiet' : W.collectStats = false)
    (h : W.entries S = E.entries S₁ ++ E.entries S₂) (n : Node) (c : Context ω δ) :
    W.apply S n c = E.applyAll [S₁, S₂] n c := by
  rw [applyAll_pair, apply, h, List.foldlM_append, applyEntry_silent quiet' quiet S S₁]
  refine congrArg (E.apply S₁ n c >>= ·) (funext fun n' => ?_)
  rw [applyEntry_silent quiet quiet S₁ S₂, apply]

/-- If it is, their counters have other names; rules that do not look at them do the same. -/
theorem apply_alike_applyAll (h : W.entries S = E.entries S₁ ++ E.entries S₂) (n : Node)
    {c : Context ω δ} (blind : ∀ entry ∈ W.entries S, entry.Blind c) :
    (W.apply S n c).Accords Session.Alike (E.applyAll [S₁, S₂] n c) := by
  rw [h] at blind
  rw [applyAll_pair, apply, h, List.foldlM_append]
  refine .bind (foldlM_alike W E S S₁ c (fun e he => ?_) n) fun n' =>
    foldlM_alike W E S S₂ c (fun e he => ?_) n'
  · exact blind e (List.mem_append_left _ he)
  · exact blind e (List.mem_append_right _ he)

theorem entries_observed_append (c : Context ω δ) (h : W.entries S = E.entries S₁ ++ E.entries S₂) :
    (W.observed c).entries S = (E.observed c).entries S₁ ++ (E.observed c).entries S₂ := by
  rw [entries_observed, entries_observed, entries_observed, h, List.map_append]

/-- Stages compose: lists of stages run one after the other, unregistered stages are neutral, and
rules that stand in one stage do, step by step, what they do in two. Under observation both show the
same walk, in which the rules are tested in order, each against the output of those before it, and
nothing is tested or applied after a failure. -/
theorem stages_compose (E : Engine ω δ) (n : Node) (c : Context ω δ) :
    (∀ ss ts, E.applyAll (ss ++ ts) n c = E.applyAll ss n c >>= fun n' => E.applyAll ts n' c) ∧
    (∀ ss, E.applyAll ss n c = E.applyAll (ss.filter (· ∈ E.stageNames)) n c) ∧
    ∀ (W : Engine ω δ) (S S₁ S₂ : String), W.entries S = E.entries S₁ ++ E.entries S₂ →
      ((∀ entry ∈ W.entries S, entry.Blind c) →
        (W.apply S n c).Accords Session.Alike (E.applyAll [S₁, S₂] n c)) ∧
      ∀ (s : Session ω) (sights : List Sight),
        ∃ (seen : List Sight) (result : Except Failure Node) (s' : Session ω),
          (W.silenced.apply S n c s = Act.resume result s' ∧
            E.silenced.applyAll [S₁, S₂] n c s = Act.resume result s') ∧
          ((W.observed c).apply S n {} (s.observing sights) =
              Act.resume result (s'.observing (sights ++ seen)) ∧
            (E.observed c).applyAll [S₁, S₂] n {} (s.observing sights) =
              Act.resume result (s'.observing (sights ++ seen))) ∧
          Walk c (W.entries S) n seen result ∧ Orderly (W.ruleNames S) n seen result := by
  refine ⟨E.applyAll_append n c, E.applyAll_registered n c, fun W S S₁ S₂ h =>
    ⟨apply_alike_applyAll h n, fun s sights => ?_⟩⟩
  obtain ⟨seen, result, s', walk, shown, run⟩ := observed_walk (O := W.observed c) rfl S c {} n s
    sights (E := W.silenced) rfl S (W.entries S)
  rw [← entries_observed] at shown
  refine ⟨seen, result, s', ⟨run, ?_⟩, ⟨shown, ?_⟩, walk, walk.orderly⟩
  · rw [← apply_eq_applyAll (E := E.silenced) (W := W.silenced) (S := S) rfl rfl h]
    exact run
  · rw [← apply_eq_applyAll (E := E.observed c) (W := W.observed c) (S := S) rfl rfl
      (entries_observed_append c h)]
    exact shown

/-- A rule that counts itself in the world, then one that fails, then the first again. -/
theorem stages_compose_refused :
    let claimed : NodePattern := .satisfying fun _ => true
    let tick : Entry Nat Unit := .ofRule <| .ofPattern "Tick" "" claimed fun _ _ => do
      Act.onWorld (modify (· + 1))
      pure (.replaced (.target .nil))
    let refuse : Entry Nat Unit := .ofRule <| .ofPattern "Refuse" "" claimed fun n _ =>
      Rule.refuse "Refuse" "a call" n
    let W := ofRegistrations true [("all", tick), ("all", refuse), ("all", tick)]
    let E := ofRegistrations true [("first", tick), ("second", refuse), ("second", tick)]
    let n : Node := .target (.boolean true)
    ((W.during (W.apply "all" n {}) 0).1 =
        .error (.lowering (.unexpectedNode "Refuse" "a call" .targetNil)) ∧
      (W.during (W.apply "all" n {}) 0).2.2 = 1) ∧
    (W.apply "all" n {}).Accords Session.Alike (E.applyAll ["first", "second"] n {}) := by
  intro claimed tick refuse W E n
  have ticks : tick.Blind {} := by
    intro world n s t h
    exact .ok _ ⟨h.1, congrArg (· + 1) h.2⟩
  have refuses : refuse.Blind {} := fun world n => .fail _
  have blind : ∀ entry ∈ W.entries "all", entry.Blind {} := by
    simpa [W, entries_ofRegistrations, registeredFor] using ⟨ticks, refuses, ticks⟩
  obtain ⟨-, -, spread⟩ := stages_compose E n {}
  exact ⟨⟨rfl, rfl⟩, (spread W "all" "first" "second" rfl).1 blind⟩

end Engine

end StagedLowering
