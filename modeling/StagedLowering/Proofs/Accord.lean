import StagedLowering.Proofs.Stage

/-!
Two runs side by side. Actions are in accord under a relation between sessions when, from sessions
that are related, they come to the same value or the same failure in sessions that are related
again. Engines are in accord where their rules are.
-/
namespace StagedLowering

variable {ω ω' δ δ' α β : Type}

/-- The same value or the same failure, in related sessions. -/
inductive SameEnd (R : Session ω → Session ω' → Prop) :
    EStateM.Result Failure (Session ω) α → EStateM.Result Failure (Session ω') α → Prop
  | ok (x : α) {s : Session ω} {t : Session ω'} (h : R s t) : SameEnd R (.ok x s) (.ok x t)
  | error (f : Failure) {s : Session ω} {t : Session ω'} (h : R s t) :
      SameEnd R (.error f s) (.error f t)

theorem SameEnd.inv {R : Session ω → Session ω' → Prop}
    {r : EStateM.Result Failure (Session ω) α} {r' : EStateM.Result Failure (Session ω') α}
    (h : SameEnd R r r') :
    (∃ x s t, r = .ok x s ∧ r' = .ok x t ∧ R s t) ∨
      ∃ f s t, r = .error f s ∧ r' = .error f t ∧ R s t := by
  cases h with
  | ok x h => exact .inl ⟨x, _, _, rfl, rfl, h⟩
  | error f h => exact .inr ⟨f, _, _, rfl, rfl, h⟩

/-- From related sessions the actions come to the same end. -/
def Act.Accords (R : Session ω → Session ω' → Prop) (a : Act ω α) (b : Act ω' α) : Prop :=
  ∀ s t, R s t → SameEnd R (a s) (b t)

namespace Act.Accords

variable {R : Session ω → Session ω' → Prop}

theorem pure (x : α) : Accords R (pure x) (pure x) := fun _ _ h => .ok x h

theorem fail (e : LoweringError) : Accords R (Act.fail e : Act ω α) (Act.fail e) :=
  fun _ _ h => .error _ h

theorem ofExcept (x : Except LoweringError α) : Accords R (Act.ofExcept x) (Act.ofExcept x) := by
  cases x with
  | ok x => exact .pure x
  | error e => exact .fail e

theorem ofExcept_bind {x : Except LoweringError α} {f : α → Act ω β} {g : α → Act ω' β}
    (rest : ∀ a, x = .ok a → (f a).Accords R (g a)) :
    (Act.ofExcept x >>= f).Accords R (Act.ofExcept x >>= g) := by
  cases x with
  | ok a => exact rest a rfl
  | error e => exact fun _ _ h => .error _ h

theorem bind {a : Act ω α} {b : Act ω' α} {f : α → Act ω β} {g : α → Act ω' β}
    (first : a.Accords R b) (rest : ∀ x, (f x).Accords R (g x)) :
    (a >>= f).Accords R (b >>= g) := by
  intro s t h
  rcases (first s t h).inv with ⟨x, s', t', ha, hb, h'⟩ | ⟨e, s', t', ha, hb, h'⟩
  · rw [bind_ok ha, bind_ok hb]
    exact rest x s' t' h'
  · rw [bind_error ha, bind_error hb]
    exact .error e h'

theorem attempted {a : Act ω α} {b : Act ω' α} (h : a.Accords R b) {s : Session ω}
    {t : Session ω'} (hst : R s t) : ∃ outcome s' t',
      Act.attempt a s = .ok outcome s' ∧ Act.attempt b t = .ok outcome t' ∧ R s' t' := by
  rcases (h s t hst).inv with ⟨x, s', t', ha, hb, h'⟩ | ⟨e, s', t', ha, hb, h'⟩
  · exact ⟨.ok x, s', t', attempt_ok ha, attempt_ok hb, h'⟩
  · exact ⟨.error e, s', t', attempt_error ha, attempt_error hb, h'⟩

theorem attempt {a : Act ω α} {b : Act ω' α} (h : a.Accords R b) :
    (Act.attempt a).Accords R (Act.attempt b) := by
  intro s t hst
  obtain ⟨outcome, s', t', ha, hb, h'⟩ := h.attempted hst
  rw [ha, hb]
  exact .ok outcome h'

theorem resume (outcome : Except Failure α) :
    Accords R (Act.resume outcome) (Act.resume outcome) := by
  cases outcome with
  | ok x => exact .pure x
  | error f => exact fun _ _ h => .error f h

theorem mapM {κ : Type} {f : κ → Act ω α} {g : κ → Act ω' α} (ks : List κ)
    (step : ∀ k ∈ ks, (f k).Accords R (g k)) : (ks.mapM f).Accords R (ks.mapM g) := by
  induction ks with
  | nil => exact .pure []
  | cons k ks ih =>
    obtain ⟨first, rest⟩ := List.forall_mem_cons.1 step
    rw [List.mapM_cons, List.mapM_cons]
    exact .bind first fun _ => .bind (ih rest) fun _ => .pure _

theorem forM {κ : Type} {f : κ → Act ω Unit} {g : κ → Act ω' Unit}
    (step : ∀ k, (f k).Accords R (g k)) (ks : List κ) : (ks.forM f).Accords R (ks.forM g) := by
  induction ks with
  | nil => exact .pure ()
  | cons k ks ih => exact .bind (step k) fun _ => ih

/-- Steps in accord fold in accord. -/
theorem foldlM {κ : Type} {f : β → κ → Act ω β} {g : β → κ → Act ω' β} (ks : List κ)
    (step : ∀ k ∈ ks, ∀ x, (f x k).Accords R (g x k)) (x : β) :
    (ks.foldlM f x).Accords R (ks.foldlM g x) := by
  induction ks generalizing x with
  | nil => exact .pure x
  | cons k ks ih =>
    obtain ⟨first, rest⟩ := List.forall_mem_cons.1 step
    rw [List.foldlM_cons, List.foldlM_cons]
    exact .bind (first x) (ih rest)

end Act.Accords

namespace Engine

/-- An engine's own counters and stages do not matter to what it does with an entry. -/
theorem applyEntry_congr {E E' : Engine ω δ} (h : E.collectStats = E'.collectStats) :
    E.applyEntry = E'.applyEntry := by
  funext stage c n entry
  unfold applyEntry record
  rw [h]

/-- The turns of two entries are in accord if their rules claim alike, come to the same outcome, and
leave related sessions once that is counted. -/
theorem applyEntry_accords {R : Session ω → Session ω' → Prop} {E : Engine ω δ}
    {E' : Engine ω' δ'} {stage stage' : String} {c : Context ω δ} {c' : Context ω' δ'} {n : Node}
    {entry : Entry ω δ} {entry' : Entry ω' δ'}
    (claims : ∀ s t, R s t →
      (entry.draw s.world).1.applies n c = (entry'.draw t.world).1.applies n c')
    (drawn : ∀ s t, R s t → R (entry.drawn s) (entry'.drawn t))
    (applied : ∀ s t, R s t → ∃ outcome s' t',
      Act.attempt ((entry.draw s.world).1.apply n c) (entry.drawn s) = .ok outcome s' ∧
      Act.attempt ((entry'.draw t.world).1.apply n c') (entry'.drawn t) = .ok outcome t' ∧
      R (E.counted stage entry.name (.ofOutcome outcome) s')
        (E'.counted stage' entry'.name (.ofOutcome outcome) t')) :
    (E.applyEntry stage c n entry).Accords R (E'.applyEntry stage' c' n entry') := by
  intro s t h
  rw [applyEntry, applyEntry, Act.bind_ok (entry.rule_apply s), Act.bind_ok (entry'.rule_apply t),
    ← claims s t h]
  split
  · obtain ⟨outcome, s', t', hs, ht, h'⟩ := applied s t h
    rw [Act.bind_ok hs, Act.bind_ok ht, Act.bind_ok (E.record_apply ..),
      Act.bind_ok (E'.record_apply ..)]
    exact Act.Accords.bind (.resume outcome) (fun _ => .pure _) _ _ h'
  · exact .ok n (drawn s t h)

/-- Engines that are put to actions in accord end alike, with related sessions behind them. -/
theorem during_accords {R : Session ω → Session ω' → Prop} (E : Engine ω δ) (E' : Engine ω' δ')
    {a : Act ω α} {b : Act ω' α} (h : a.Accords R b) {world : ω} {world' : ω'}
    (start : R ⟨E.tally, 0, world⟩ ⟨E'.tally, 0, world'⟩) : ∃ outcome s t,
      E.during a world = (outcome, { E with tally := s.tally }, s.world) ∧
      E'.during b world' = (outcome, { E' with tally := t.tally }, t.world) ∧ R s t := by
  rcases (h _ _ start).inv with ⟨x, s, t, hs, ht, h'⟩ | ⟨f, s, t, hs, ht, h'⟩
  · exact ⟨.ok x, s, t, during_ok hs, during_ok ht, h'⟩
  · exact ⟨.error f, s, t, during_error hs, during_error ht, h'⟩

end Engine

/-- The sessions differ in their counters at most. -/
def Session.Alike (s t : Session ω) : Prop := s.depth = t.depth ∧ s.world = t.world

/-- The action takes no notice of the counters. -/
def Act.Blind (a : Act ω α) : Prop := a.Accords Session.Alike a

/-- No rule of the entry takes notice of the counters when it is applied in this context. -/
def Entry.Blind (c : Context ω δ) (entry : Entry ω δ) : Prop :=
  ∀ world n, ((entry.draw world).1.apply n c).Blind

namespace Engine

/-- Engines treat a node alike under any stage names, whether they count or not. -/
theorem applyEntry_alike (E E' : Engine ω δ) (stage stage' : String) (c : Context ω δ) (n : Node)
    {entry : Entry ω δ} (blind : entry.Blind c) :
    (E.applyEntry stage c n entry).Accords Session.Alike (E'.applyEntry stage' c n entry) := by
  have drawn (s t : Session ω) (h : s.Alike t) : (entry.drawn s).Alike (entry.drawn t) :=
    ⟨h.1, by simp [Entry.drawn, h.2]⟩
  refine applyEntry_accords (fun s t h => by rw [h.2]) drawn fun s t h => ?_
  obtain ⟨outcome, s', t', hs, ht, h'⟩ := (blind s.world n).attempted (drawn s t h)
  rw [← h.2]
  exact ⟨outcome, s', t', hs, ht, by simpa using h'.1, by simpa using h'.2⟩

theorem foldlM_alike (E E' : Engine ω δ) (stage stage' : String) (c : Context ω δ)
    {entries : List (Entry ω δ)} (blind : ∀ entry ∈ entries, entry.Blind c) (n : Node) :
    (entries.foldlM (E.applyEntry stage c) n).Accords Session.Alike
      (entries.foldlM (E'.applyEntry stage' c) n) :=
  .foldlM entries
    (fun entry hentry n => E.applyEntry_alike E' stage stage' c n (blind entry hentry)) n

end Engine

end StagedLowering
