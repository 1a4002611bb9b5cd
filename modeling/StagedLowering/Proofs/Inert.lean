import StagedLowering.Proofs.Recasting
import StagedLowering.Proofs.RuleOrder

/-!
Rules that can never claim a node. A rule built from a list of kinds is inert exactly if the list is
empty, since there is a node of every kind. Inert rules can stand anywhere in an engine: the engine
acts as it does without them, and the counters of the other rules are the same; an inert rule itself
counts nothing.
-/
namespace StagedLowering

variable {ω δ α : Type}

/-! ### Rules built from kinds -/

theorem Node.exists_kind (k : NodeKind) : ∃ n : Node, n.kind = k := by
  cases k with
  | sourceNumber => exact ⟨.source (.number 0), rfl⟩
  | sourceString => exact ⟨.source (.string ""), rfl⟩
  | sourceBoolean => exact ⟨.source (.boolean true), rfl⟩
  | sourceIdentifier => exact ⟨.source (.identifier "x"), rfl⟩
  | sourceRegex => exact ⟨.source (.regex "" ""), rfl⟩
  | sourceBinary => exact ⟨.source (.binary default "+" default), rfl⟩
  | sourceCall => exact ⟨.source (.call default []), rfl⟩
  | sourceMatch => exact ⟨.source (.matching default []), rfl⟩
  | sourceImport => exact ⟨.source (.importing default), rfl⟩
  | highLiteral => exact ⟨.high (.literal .nil), rfl⟩
  | highIdentifier => exact ⟨.high (.identifier "x" .int), rfl⟩
  | highBinary => exact ⟨.high (.binary default "+" default .int), rfl⟩
  | highRegex => exact ⟨.high (.regex "" ""), rfl⟩
  | highCall => exact ⟨.high (.call "f" [] .int), rfl⟩
  | highMatch => exact ⟨.high (.matching default [] .int), rfl⟩
  | highImport => exact ⟨.high (.importing "m" []), rfl⟩
  | targetIdentifier => exact ⟨.target (.identifier "x"), rfl⟩
  | targetNumber => exact ⟨.target (.number "0"), rfl⟩
  | targetString => exact ⟨.target (.string ""), rfl⟩
  | targetBoolean => exact ⟨.target (.boolean true), rfl⟩
  | targetNil => exact ⟨.target .nil, rfl⟩
  | targetBinary => exact ⟨.target (.infixed .nil "+" .nil), rfl⟩
  | targetCall => exact ⟨.target (.callNamed "f" []), rfl⟩

namespace KindSet

theorem claims_ofList (ks : List NodeKind) (n : Node) :
    (ofList ks).claims n = decide (n.kind ∈ ks) := by
  simp [claims, contains]

theorem isEmpty_ofList (ks : List NodeKind) : (ofList ks).isEmpty = ks.isEmpty := by
  rw [Bool.eq_iff_iff, isEmpty, List.isEmpty_iff, List.isEmpty_iff]
  simp only [List.eq_nil_iff_forall_not_mem, mem_kinds_ofList]

/-- A set is its members, whatever list it was made of. -/
theorem ofList_eq_iff (ks ks' : List NodeKind) :
    ofList ks = ofList ks' ↔ ∀ k, k ∈ ks ↔ k ∈ ks' := by
  refine ⟨fun same k => ?_, fun same => ?_⟩
  · rw [← mem_kinds_ofList ks, same, mem_kinds_ofList]
  · simp only [ofList, mk.injEq]
    exact List.filter_congr fun k _ => by simp [same]

end KindSet

/-- The rules that are built from a list of kinds: those that hand the nodes to a delegate, and
those that have a function for them. -/
inductive Rule.OfKinds (ks : List NodeKind) : Rule ω δ → Prop
  | delegation {D : Type} (d : Delegation ω δ D) (claims : d.claims = .ofList ks) (name : String) :
      OfKinds ks (d.rule name)
  | pattern (name description : String) (transform : Node → Context ω δ → Act ω Outcome) :
      OfKinds ks (.ofPattern name description (.kinds (.ofList ks)) transform)

namespace Rule.OfKinds

variable {r : Rule ω δ} {ks : List NodeKind} (h : r.OfKinds ks)

include h

theorem claimsKinds : r.ClaimsKinds ks := by
  intro n c
  cases h with
  | delegation d claims name =>
    change d.claims.claims n = _
    rw [claims, KindSet.claims_ofList]
  | pattern name description transform => exact KindSet.claims_ofList ks n

theorem inert_eq : r.inert = ks.isEmpty := by
  cases h with
  | delegation d claims name =>
    change d.claims.isEmpty = _
    rw [claims, KindSet.isEmpty_ofList]
  | pattern name description transform => exact KindSet.isEmpty_ofList ks

theorem applies_iff (n : Node) (c : Context ω δ) : r.applies n c = true ↔ n.kind ∈ ks := by
  rw [h.claimsKinds n c, decide_eq_true_iff]

/-- There is a node of the first kind in the list, if there is a first, and the rule claims it. -/
theorem inert_iff (c : Context ω δ) : r.inert = true ↔ ∀ n, r.applies n c = false := by
  simp only [h.inert_eq, h.claimsKinds _ c, decide_eq_false_iff_not]
  cases ks with
  | nil => simp
  | cons k ks =>
    obtain ⟨n, rfl⟩ := Node.exists_kind k
    simp only [List.isEmpty_cons, Bool.false_eq_true, false_iff]
    exact fun none => none n List.mem_cons_self

end Rule.OfKinds

/-! ### Inert entries among others -/

/-- The entry does nothing but supply inert rules that are built from kinds: an entry whose maker
changes the world is not one of these, even if the rules it makes are. -/
def Entry.Inert (entry : Entry ω δ) : Prop :=
  ∀ world, (entry.draw world).2 = world ∧ (entry.draw world).1.inert = true ∧
    ∃ ks, (entry.draw world).1.OfKinds ks

/-- The second list is the first with idle items anywhere between the others. -/
inductive Padded (idle : α → Prop) : List α → List α → Prop
  | nil : Padded idle [] []
  | both (a : α) {as as' : List α} (rest : Padded idle as as') : Padded idle (a :: as) (a :: as')
  | idle (a : α) {as as' : List α} (h : idle a) (rest : Padded idle as as') :
      Padded idle as (a :: as')

theorem Padded.subset {idle : α → Prop} {as as' : List α} (h : Padded idle as as') : as ⊆ as' := by
  induction h with
  | nil => exact List.Subset.refl []
  | both a _ ih => exact List.cons_subset_cons a ih
  | idle a _ _ ih => exact List.subset_cons_of_subset a ih

theorem Padded.registeredFor {regs regs' : List (Registration ω δ)}
    (h : Padded (fun r => r.2.Inert) regs regs') (stage : String) :
    Padded Entry.Inert (registeredFor stage regs) (registeredFor stage regs') := by
  unfold StagedLowering.registeredFor
  induction h with
  | nil => exact .nil
  | both r _ ih =>
    by_cases here : r.1 = stage
    · simpa [here] using ih.both r.2
    · simpa [here] using ih
  | idle r inert _ ih =>
    by_cases here : r.1 = stage
    · simpa [here] using ih.idle r.2 inert
    · simpa [here] using ih

namespace Entry.Inert

variable {entry : Entry ω δ} (h : entry.Inert)

include h

theorem declines (world : ω) (n : Node) (c : Context ω δ) :
    (entry.draw world).1.applies n c = false := by
  obtain ⟨-, inert, ks, built⟩ := h world
  exact (built.inert_iff c).1 inert n

theorem applyEntry (E : Engine ω δ) (stage : String) (c : Context ω δ) (n : Node) :
    E.applyEntry stage c n entry = pure n := by
  funext s
  have still : entry.drawn s = s := by rw [drawn, (h s.world).1]
  rw [E.applyEntry_declined stage c n s entry (h.declines s.world n c), still, Act.pure_apply]

end Entry.Inert

namespace Padded

variable {es es' : List (Entry ω δ)} (h : Padded Entry.Inert es es') (c : Context ω δ)

include h

theorem foldlM_applyEntry (E : Engine ω δ) (stage : String) (n : Node) :
    es'.foldlM (E.applyEntry stage c) n = es.foldlM (E.applyEntry stage c) n := by
  induction h generalizing n with
  | nil => rfl
  | both entry _ ih =>
    rw [List.foldlM_cons, List.foldlM_cons]
    exact congrArg (E.applyEntry stage c n entry >>= ·) (funext ih)
  | idle entry inert _ ih => rw [List.foldlM_cons, inert.applyEntry, pure_bind, ih]

/-- To draw inert rules among the others leaves the world to the others, and requires nothing. -/
theorem drawAll (n : Node) (world : ω) :
    (Entry.drawAll es' world).2 = (Entry.drawAll es world).2 ∧
      ((Entry.drawAll es' world).1.flatMap fun r => if r.applies n c then r.requires else []) =
        (Entry.drawAll es world).1.flatMap fun r => if r.applies n c then r.requires else [] := by
  induction h generalizing world with
  | nil => exact ⟨rfl, rfl⟩
  | both entry _ ih =>
    obtain ⟨worlds, keys⟩ := ih (entry.draw world).2
    simp only [Entry.drawAll, List.flatMap_cons, worlds, keys, and_self]
  | idle entry inert _ ih =>
    obtain ⟨worlds, keys⟩ := ih world
    simp only [Entry.drawAll, List.flatMap_cons, (inert world).1, inert.declines world n c, worlds,
      keys, Bool.false_eq_true, if_false, List.nil_append, and_self]

end Padded

/-! ### Counters beside those of inert rules -/

/-- The stages and names under which registrations are counted. -/
def countedUnder (regs : List (Registration ω δ)) : List (String × String) :=
  regs.map fun r => (r.1, r.2.name)

/-- The second tally has what the first has under the keys in `kept`, and nothing counted under the
others in `all`. -/
structure Tally.Widened (kept all : List (String × String)) (t t' : Tally) : Prop where
  same : ∀ key ∈ kept, t'.get? key = t.get? key
  spare : ∀ key ∈ all, key ∉ kept → t'.get? key = some (blank key.1 key.2)

/-- The sessions differ in such tallies at most. -/
structure Session.Widened (kept all : List (String × String)) (s t : Session ω) : Prop where
  tally : s.tally.Widened kept all t.tally
  depth : s.depth = t.depth
  world : s.world = t.world

variable {kept all : List (String × String)}

namespace Tally.Widened

variable {t t' : Tally} (h : t.Widened kept all t')

include h

theorem record {stage rule : String} (known : (stage, rule) ∈ kept) (v : Verdict) :
    (t.record stage rule v).Widened kept all (t'.record stage rule v) where
  same key hkey := by
    rw [Tally.record, Tally.record, OrderedMap.get?_modify, OrderedMap.get?_modify,
      h.same _ known, h.same key hkey]
  spare key hkey other := by
    have apart : (stage, rule) ≠ key := fun same => other (same ▸ known)
    rw [Tally.record, OrderedMap.get?_modify, if_neg apart, h.spare key hkey other]

theorem clear : t.clear.Widened kept all t'.clear where
  same key hkey := by
    rw [Tally.clear, Tally.clear, OrderedMap.get?_mapValues, OrderedMap.get?_mapValues,
      h.same key hkey]
  spare key hkey other := by
    rw [Tally.clear, OrderedMap.get?_mapValues, h.spare key hkey other]
    rfl

end Tally.Widened

theorem Session.Widened.counted {s t : Session ω} (h : s.Widened kept all t) (E : Engine ω δ)
    {stage rule : String} (known : (stage, rule) ∈ kept) (v : Verdict) :
    (E.counted stage rule v s).Widened kept all (E.counted stage rule v t) := by
  unfold Engine.counted
  split
  · exact ⟨h.tally.record known v, h.depth, h.world⟩
  · exact h

/-- No rule of the entry, applied in this context, tells related sessions apart. -/
def Entry.Discreet (R : Session ω → Session ω → Prop) (c : Context ω δ) (entry : Entry ω δ) :
    Prop :=
  ∀ world n, ((entry.draw world).1.apply n c).Accords R ((entry.draw world).1.apply n c)

namespace Engine

/-- A use of an engine with these entries, in a context in which they do not tell related sessions
apart. To ask for the counters is no such use; to check a stage is one in any context. -/
inductive Call.Discreet (R : Session ω → Session ω → Prop) (entries : String → List (Entry ω δ)) :
    Call (Context ω δ) → Prop
  | apply (stage : String) (n : Node) (c : Context ω δ)
      (h : ∀ entry ∈ entries stage, entry.Discreet R c) : Discreet R entries (.apply stage n c)
  | applyAll (stages : List String) (n : Node) (c : Context ω δ)
      (h : ∀ stage ∈ stages, ∀ entry ∈ entries stage, entry.Discreet R c) :
      Discreet R entries (.applyAll stages n c)
  | validate (stage : String) (n : Node) (c : Context ω δ) :
      Discreet R entries (.validate stage n c)
  | resetStats : Discreet R entries .resetStats

section

variable (E : Engine ω δ) (c : Context ω δ) (n : Node)

theorem apply_widened {stage : String}
    (known : ∀ entry ∈ E.entries stage, (stage, entry.name) ∈ kept)
    (discreet : ∀ entry ∈ E.entries stage, entry.Discreet (Session.Widened kept all) c) :
    (E.apply stage n c).Accords (Session.Widened kept all) (E.apply stage n c) := by
  refine .foldlM _ (fun entry hentry n => ?_) n
  have drawn (s t : Session ω) (h : s.Widened kept all t) :
      (entry.drawn s).Widened kept all (entry.drawn t) :=
    ⟨h.tally, h.depth, by simp [Entry.drawn, h.world]⟩
  refine applyEntry_accords (fun s t h => by rw [h.world]) drawn fun s t h => ?_
  obtain ⟨outcome, s', t', hs, ht, h'⟩ := (discreet entry hentry s.world n).attempted (drawn s t h)
  rw [← h.world]
  exact ⟨outcome, s', t', hs, ht, h'.counted E (known entry hentry) _⟩

theorem validate_widened (stage : String) :
    (E.validate stage n c).Accords (Session.Widened kept all) (E.validate stage n c) := by
  intro s t h
  rw [validate_eq, validate_eq, ← h.world]
  exact Act.Accords.ofExcept _ _ _ ⟨h.tally, h.depth, rfl⟩

end

/-- The second engine has inert entries among those of the first, and its counters for them. -/
structure Widened (kept all : List (String × String)) (E E' : Engine ω δ) : Prop where
  collectStats : E'.collectStats = E.collectStats
  entries : ∀ stage, Padded Entry.Inert (E.entries stage) (E'.entries stage)
  known : ∀ stage, ∀ entry ∈ E.entries stage, (stage, entry.name) ∈ kept
  tally : E.tally.Widened kept all E'.tally

namespace Widened

variable {E E' : Engine ω δ} (h : E.Widened kept all E')

include h

/-- The engines do the same, whatever the session. -/
theorem apply_eq (stage : String) (n : Node) (c : Context ω δ) :
    E'.apply stage n c = E.apply stage n c := by
  rw [apply, apply, applyEntry_congr h.collectStats, (h.entries stage).foldlM_applyEntry]

theorem applyAll_eq (stages : List String) (n : Node) (c : Context ω δ) :
    E'.applyAll stages n c = E.applyAll stages n c := by
  simp only [applyAll, h.apply_eq]

theorem validate_eq (stage : String) (n : Node) (c : Context ω δ) :
    E'.validate stage n c = E.validate stage n c := by
  funext s
  obtain ⟨worlds, keys⟩ := (h.entries stage).drawAll c n s.world
  rw [Engine.validate_eq, Engine.validate_eq, worlds, keys]

theorem withTally {t t' : Tally} (tally : t.Widened kept all t') :
    Widened kept all { E with tally := t } { E' with tally := t' } :=
  ⟨h.collectStats, h.entries, h.known, tally⟩

/-- Actions that do not tell the sessions apart come to the same in both engines. -/
theorem during {a : Act ω α} (accords : a.Accords (Session.Widened kept all) a) (world : ω)
    (make : Except Failure α → Answer) : ∃ answer world' t t',
      (E.during a world).map make id = (answer, { E with tally := t }, world') ∧
      (E'.during a world).map make id = (answer, { E' with tally := t' }, world') ∧
      t.Widened kept all t' := by
  have start : Session.Widened kept all ⟨E.tally, 0, world⟩ ⟨E'.tally, 0, world⟩ :=
    ⟨h.tally, rfl, rfl⟩
  obtain ⟨outcome, s, t, hs, ht, after⟩ := during_accords E E' accords start
  rw [hs, ht, ← after.world]
  exact ⟨make outcome, s.world, s.tally, t.tally, rfl, rfl, after.tally⟩

/-- One call is answered alike and leaves the counters alike. -/
theorem answer (world : ω) {call : Call (Context ω δ)}
    (discreet : call.Discreet (Session.Widened kept all) E.entries) :
    ∃ answer world' t t', E.answer world call = (answer, { E with tally := t }, world') ∧
      E'.answer world call = (answer, { E' with tally := t' }, world') ∧
      t.Widened kept all t' := by
  cases discreet with
  | apply stage n c discreet =>
    simp only [Engine.answer, h.apply_eq]
    exact h.during (E.apply_widened c n (h.known stage) discreet) world .node
  | applyAll stages n c discreet =>
    simp only [Engine.answer, h.applyAll_eq]
    exact h.during (.foldlM stages (fun stage hstage n =>
      E.apply_widened c n (h.known stage) (discreet stage hstage)) n) world .node
  | validate stage n c =>
    simp only [Engine.answer, h.validate_eq]
    exact h.during (E.validate_widened c n stage) world .checked
  | resetStats => exact ⟨.done, world, _, _, rfl, rfl, h.tally.clear⟩

theorem answers (world : ω) (calls : List (Call (Context ω δ)))
    (discreet : ∀ call ∈ calls, call.Discreet (Session.Widened kept all) E.entries) :
    ∃ answers world' t t', E.answers world calls = (answers, { E with tally := t }, world') ∧
      E'.answers world calls = (answers, { E' with tally := t' }, world') ∧
      t.Widened kept all t' := by
  induction calls generalizing E E' world with
  | nil => exact ⟨[], world, E.tally, E'.tally, rfl, rfl, h.tally⟩
  | cons call calls ih =>
    obtain ⟨first, rest⟩ := List.forall_mem_cons.1 discreet
    obtain ⟨answer, world₁, t₁, t₁', left, right, widened⟩ := h.answer world first
    -- A call changes the counters only, so the entries that the other calls are about are the same.
    obtain ⟨answers, world₂, t₂, t₂', left', right', widened'⟩ :=
      ih (h.withTally widened) world₁ rest
    refine ⟨answer :: answers, world₂, t₂, t₂', ?_, ?_, widened'⟩
    · rw [Engine.answers, left]
      simp only [left']
      rfl
    · rw [Engine.answers, right]
      simp only [right']
      rfl

end Widened

theorem get?_ofRegistrations (counts : Bool) {regs : List (Registration ω δ)}
    {key : String × String} (h : key ∈ countedUnder regs) :
    (ofRegistrations counts regs).tally.get? key = some (Tally.blank key.1 key.2) := by
  rw [ofRegistrations, Tally.get?_registerAll]
  exact if_pos h

/-- Registrations with inert entries among them widen an engine. -/
theorem widened_of_padded (counts : Bool) {regs regs' : List (Registration ω δ)}
    (padded : Padded (fun r => r.2.Inert) regs regs') :
    (ofRegistrations counts regs).Widened (countedUnder regs) (countedUnder regs')
      (ofRegistrations counts regs') where
  collectStats := by rw [collectStats_ofRegistrations, collectStats_ofRegistrations]
  entries stage := by
    rw [entries_ofRegistrations, entries_ofRegistrations]
    exact padded.registeredFor stage
  known stage entry hentry := by
    rw [entries_ofRegistrations] at hentry
    obtain ⟨r, hr, rfl⟩ := List.mem_map.1 hentry
    obtain ⟨hr, here⟩ := List.mem_filter.1 hr
    exact List.mem_map.2 ⟨r, hr, by rw [of_decide_eq_true here]⟩
  tally := by
    refine ⟨fun key hkey => ?_, fun key hkey _ => get?_ofRegistrations counts hkey⟩
    rw [get?_ofRegistrations counts hkey,
      get?_ofRegistrations counts (List.map_subset _ padded.subset hkey)]

end Engine

/-- An emitter whose engine has codegen rules does not tell the sessions apart. -/
theorem Emitter.lowerWithin_widened (config : Config) {E : Engine ω δ} {rules : List (Rule ω δ)}
    (entries : E.entries Stage.codegen = rules.map Entry.ofRule)
    (hrules : rules ⊆ Pipeline.codegenRules config)
    (known : ∀ r ∈ rules, (Stage.codegen, r.name) ∈ kept) (levels : Nat) (e : HighIR) :
    ((ofConfig E config).lowerWithin levels e).Accords (Session.Widened kept all)
      ((ofConfig E config).lowerWithin levels e) := by
  refine lowerWithin_accords rfl (fun _ _ h => h.depth) (fun _ _ h _ => ⟨h.tally, rfl, h.world⟩)
    (fun levels ih n => ?_) levels e
  refine ⟨E.validate_widened _ n _, E.apply_widened _ n ?_ ?_⟩
  · rw [entries]
    exact List.forall_mem_map.2 known
  · rw [entries]
    exact List.forall_mem_map.2 fun r hr world n => codegenRules_accord config ih n r (hrules hr)

namespace Engine

/-- Inert rules are those that can never claim a node, and they do not matter. A rule built from
kinds claims the nodes of these kinds, and is inert exactly if there are none; which set the kinds
make is a matter of what kinds there are. An engine that has inert rules registered anywhere among
the others does the same in every session as the engine without them, and emitters do the same over
either. The answers to a sequence of calls are the same, and so are the worlds, with all notes that
collaborators take of being called, and the counters of the other rules, provided that these do not
look at the counters of inert rules. An inert rule that no other shares its counters with has
counted nothing. -/
theorem inert_rules_neutral :
    (∀ (ks : List NodeKind) (r : Rule ω δ), r.OfKinds ks →
      (∀ n c, r.applies n c = true ↔ n.kind ∈ ks) ∧
      ∀ c, r.inert = true ↔ ∀ n, r.applies n c = false) ∧
    (∀ ks ks' : List NodeKind,
      KindSet.ofList ks = KindSet.ofList ks' ↔ ∀ k, k ∈ ks ↔ k ∈ ks') ∧
    ∀ (counts : Bool) (regs regs' : List (Registration ω δ)),
      Padded (fun r => r.2.Inert) regs regs' →
      let E : Engine ω δ := ofRegistrations counts regs
      let E' : Engine ω δ := ofRegistrations counts regs'
      (∀ stage n c, E'.apply stage n c = E.apply stage n c ∧
        E'.validate stage n c = E.validate stage n c) ∧
      (∀ stages n c, E'.applyAll stages n c = E.applyAll stages n c) ∧
      (∀ config, (Emitter.ofConfig E' config).lower = (Emitter.ofConfig E config).lower) ∧
      ∀ (world : ω) (calls : List (Call (Context ω δ))),
        (∀ call ∈ calls,
          call.Discreet (Session.Widened (countedUnder regs) (countedUnder regs')) E.entries) →
        let run := E.answers world calls
        let run' := E'.answers world calls
        run'.1 = run.1 ∧ run'.2.2 = run.2.2 ∧
        (∀ key ∈ countedUnder regs, run'.2.1.tally.get? key = run.2.1.tally.get? key) ∧
        ∀ key ∈ countedUnder regs', key ∉ countedUnder regs →
          run'.2.1.tally.get? key = some (Tally.blank key.1 key.2) := by
  refine ⟨fun ks r built => ⟨built.applies_iff, built.inert_iff⟩, KindSet.ofList_eq_iff,
    fun counts regs regs' padded => ?_⟩
  intro E E'
  have widened : E.Widened (countedUnder regs) (countedUnder regs') E' :=
    widened_of_padded counts padded
  refine ⟨fun stage n c => ⟨widened.apply_eq stage n c, widened.validate_eq stage n c⟩,
    widened.applyAll_eq, fun config => ?_, fun world calls discreet => ?_⟩
  · exact Emitter.lowerWithin_congr (.ofConfig E config) (.ofConfig E' config) rfl rfl
      (widened.apply_eq _) (widened.validate_eq _) _
  · obtain ⟨answers, world', t, t', left, right, tallies⟩ := widened.answers world calls discreet
    rw [left, right]
    exact ⟨rfl, rfl, tallies.same, tallies.spare⟩

/-- The codegen stage on `1 + 2`, where the operator rule has the emitter lower the operands and the
emitter comes back to the engine, with the lowerings noted in the world. In one engine an inert rule
stands in front, another, that goes by the name of the operator rule, between the others, and a
third is made anew for each use in a stage of its own. -/
theorem inert_rules_neutral_sum :
    let config : Config := {}
    let leaves : Rule (List String) Unit := Emitter.leafLowering config.delegateKey
    let operators : Rule (List String) Unit := Rule.binaryLowering
    let idle : Delegation (List String) Unit (HighIR → Act (List String) Target) :=
      { type := Emitter.delegateType
        claims := .ofList []
        methodName := "none"
        method := fun _ n => pure n }
    let namesake : Rule (List String) Unit :=
      .ofPattern operators.name "" (.kinds (.ofList [])) fun n _ => Rule.refuse "" "nothing" n
    let regs : List (Registration (List String) Unit) :=
      [(Stage.codegen, .ofRule leaves), (Stage.codegen, .ofRule operators)]
    let regs' : List (Registration (List String) Unit) :=
      [(Stage.codegen, .ofRule (idle.rule "Idle")), (Stage.codegen, .ofRule leaves),
        (Stage.codegen, .ofRule namesake), (Stage.codegen, .ofRule operators),
        ("later", .ofFactory "Spare" (pure namesake))]
    let E : Engine (List String) Unit := ofRegistrations true regs
    let E' : Engine (List String) Unit := ofRegistrations true regs'
    let sum : HighIR := .binary (.literal (.int 1)) "+" (.literal (.int 2)) .int
    let noting (e : HighIR) : Act (List String) Target := do
      Act.onWorld (modify (· ++ ["lower"]))
      (Emitter.ofConfig E config).lower e
    let c : Context (List String) Unit := (Emitter.ofConfig E config).context noting
    let calls : List (Call (Context (List String) Unit)) :=
      [.validate Stage.codegen (.high sum) c, .applyAll [Stage.codegen, "later"] (.high sum) c]
    let run := E.answers [] calls
    let run' := E'.answers [] calls
    E'.ruleNames Stage.codegen =
        ["Idle", "TargetEmitter::emit_leaf", operators.name, operators.name] ∧
      run'.1 = run.1 ∧ run'.2.2 = ["lower", "lower"] ∧
      run'.2.1.tally.get? (Stage.codegen, operators.name) =
        some ⟨operators.name, Stage.codegen, 1, 1, 0, 0⟩ ∧
      run'.2.1.tally.get? (Stage.codegen, "Idle") = some (Tally.blank Stage.codegen "Idle") ∧
      run'.2.1.tally.get? ("later", "Spare") = some (Tally.blank "later" "Spare") := by
  intro config leaves operators idle namesake regs regs' E E' sum noting c calls run run'
  have noted : run.2.2 = ["lower", "lower"] := by decide +kernel
  have counted : run.2.1.tally.get? (Stage.codegen, operators.name) =
      some ⟨operators.name, Stage.codegen, 1, 1, 0, 0⟩ := by decide +kernel
  have names : E'.ruleNames Stage.codegen =
      ["Idle", "TargetEmitter::emit_leaf", operators.name, operators.name] := rfl
  have listed : E.entries Stage.codegen = [leaves, operators].map Entry.ofRule := rfl
  have later : E.entries "later" = [] := rfl
  have padded : Padded (fun r => r.2.Inert) regs regs' := by
    have first : (Entry.ofRule (idle.rule "Idle")).Inert := fun _ =>
      ⟨rfl, rfl, [], .delegation idle rfl "Idle"⟩
    have second : (Entry.ofRule namesake).Inert := fun _ => ⟨rfl, rfl, [], .pattern ..⟩
    have third : (Entry.ofFactory "Spare" (pure namesake)).Inert := fun _ =>
      ⟨rfl, rfl, [], .pattern ..⟩
    exact .idle _ first (.both _ (.idle _ second (.both _ (.idle _ third .nil))))
  let R : Session (List String) → Session (List String) → Prop :=
    Session.Widened (countedUnder regs) (countedUnder regs')
  have spared : (Stage.codegen, "Idle") ∈ countedUnder regs' ∧
      (Stage.codegen, "Idle") ∉ countedUnder regs ∧ ("later", "Spare") ∈ countedUnder regs' ∧
      ("later", "Spare") ∉ countedUnder regs := by decide
  have shared : (Stage.codegen, operators.name) ∈ countedUnder regs := .tail _ (.head _)
  obtain ⟨-, -, neutral⟩ := inert_rules_neutral (ω := List String) (δ := Unit)
  have alike : ∀ calls, (∀ call ∈ calls, call.Discreet R E.entries) →
      (E'.answers [] calls).1 = (E.answers [] calls).1 ∧
      (E'.answers [] calls).2.2 = (E.answers [] calls).2.2 ∧
      (∀ key ∈ countedUnder regs, (E'.answers [] calls).2.1.tally.get? key =
        (E.answers [] calls).2.1.tally.get? key) ∧
      ∀ key ∈ countedUnder regs', key ∉ countedUnder regs →
        (E'.answers [] calls).2.1.tally.get? key = some (Tally.blank key.1 key.2) :=
    (neutral true regs regs' padded).2.2.2 []
  -- From here on it does not matter which engines they are.
  clear_value E E'
  have known : ∀ r ∈ [leaves, operators], (Stage.codegen, r.name) ∈ countedUnder regs :=
    List.forall_mem_cons.2 ⟨.head _, List.forall_mem_singleton.2 (.tail _ (.head _))⟩
  have placed : [leaves, operators] ⊆ Pipeline.codegenRules config :=
    List.cons_subset.2 ⟨.head _, List.cons_subset.2 ⟨.tail _ (.tail _ (.head _)), nofun⟩⟩
  have lowers (e : HighIR) : (noting e).Accords R (noting e) := by
    refine .bind (fun s t hst => .ok () ⟨hst.tally, hst.depth, ?_⟩) fun _ =>
      Emitter.lowerWithin_widened config listed placed known _ e
    exact congrArg (· ++ ["lower"]) hst.world
  have discreet : ∀ stage ∈ [Stage.codegen, "later"], ∀ entry ∈ E.entries stage,
      entry.Discreet R c := by
    refine List.forall_mem_cons.2 ⟨?_, List.forall_mem_singleton.2 ?_⟩
    · rw [listed]
      exact List.forall_mem_map.2 fun r hr world n =>
        Emitter.codegenRules_accord config lowers n r (placed hr)
    · rw [later]
      exact nofun
  obtain ⟨answers, worlds, rows, spare⟩ := alike calls
    (List.forall_mem_cons.2 ⟨.validate .., List.forall_mem_singleton.2 (.applyAll _ _ _ discreet)⟩)
  exact ⟨names, answers, worlds.trans noted, (rows _ shared).trans counted,
    spare _ spared.1 spared.2.1, spare _ spared.2.2.1 spared.2.2.2⟩

end Engine

end StagedLowering
