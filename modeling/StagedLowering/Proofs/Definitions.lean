import StagedLowering.Json.Decode
import StagedLowering.Proofs.Registrations
import StagedLowering.Proofs.Tallies

/-!
What a history of definitions makes of a registry. The last definition of a function is the one that
is found, and the first one decides where it stands. Modules are listed in the order in which they
were first named, by a definition or in a file where they have no functions.
-/
namespace StagedLowering

namespace OrderedMap

variable {κ α : Type} [DecidableEq κ]

/-- The value that a list gives to a key last. -/
def lastValue (es : List (κ × α)) (k : κ) : Option α :=
  ((es.filter (·.1 = k)).getLast?).map Prod.snd

theorem lastValue_cons (e : κ × α) (es : List (κ × α)) (k : κ) :
    lastValue (e :: es) k = (lastValue es k).or (if e.1 = k then some e.2 else none) := by
  have split : (e :: es).filter (·.1 = k) = [e].filter (·.1 = k) ++ es.filter (·.1 = k) :=
    List.filter_append [e] es
  rw [lastValue, split, List.getLast?_append, Option.map_or]
  by_cases h : e.1 = k <;> simp [lastValue, h]

theorem get?_foldl_insert (m : OrderedMap κ α) (es : List (κ × α)) (k : κ) :
    (es.foldl (fun m e => m.insert e.1 e.2) m).get? k = (lastValue es k).or (m.get? k) := by
  induction es generalizing m with
  | nil => rfl
  | cons e es ih =>
    rw [List.foldl_cons, ih, get?_insert, lastValue_cons, Option.or_assoc]
    by_cases h : e.1 = k <;> simp [h]

/-- Of the values of a key the last one counts. -/
theorem get?_ofList (es : List (κ × α)) (k : κ) : (ofList es).get? k = lastValue es k := by
  rw [ofList, get?_foldl_insert, get?_empty, Option.or_none]

/-- `done` are the keys that were written so far. -/
theorem keys_foldl_insert (m : OrderedMap κ α) (es : List (κ × α)) (done : List κ)
    (h : m.keys = done.eraseDups) :
    (es.foldl (fun m e => m.insert e.1 e.2) m).keys = (done ++ es.map Prod.fst).eraseDups := by
  induction es generalizing m done with
  | nil => simpa using h
  | cons e es ih =>
    have next : (m.insert e.1 e.2).keys = (done ++ [e.1]).eraseDups := by
      rw [keys_insert, eraseDups_concat h]
    simpa using ih (m.insert e.1 e.2) (done ++ [e.1]) next

/-- A key stands where it came first. -/
theorem keys_ofList (es : List (κ × α)) :
    (ofList es).keys = (es.map Prod.fst).eraseDups :=
  keys_foldl_insert empty es [] rfl

theorem ofList_concat (es : List (κ × α)) (e : κ × α) :
    ofList (es ++ [e]) = (ofList es).insert e.1 e.2 := by
  simp [ofList]

end OrderedMap

section

variable {κ α : Type} [BEq κ] [LawfulBEq κ]

theorem eraseDups_replicate (k : κ) (count : Nat) :
    (List.replicate count k).eraseDups = if 0 < count then [k] else [] := by
  cases count with
  | zero => rfl
  | succ count => simp [List.replicate_succ, List.eraseDups_cons]

/-- Keys that are repeated on the spot, or left out, come once in the same order. -/
theorem eraseDups_flatMap_replicate (es : List (κ × α)) (count : κ × α → Nat)
    (nodup : (es.map Prod.fst).Nodup) :
    (es.flatMap fun e => List.replicate (count e) e.1).eraseDups =
      (es.filter fun e => 0 < count e).map Prod.fst := by
  induction es with
  | nil => rfl
  | cons e es ih =>
    obtain ⟨new, nodup⟩ := List.nodup_cons.1 nodup
    have later : (es.flatMap fun e => List.replicate (count e) e.1).removeAll
        (List.replicate (count e) e.1) =
          es.flatMap fun e => List.replicate (count e) e.1 := by
      refine List.filter_eq_self.2 fun k hk => ?_
      obtain ⟨e', he', hk⟩ := List.mem_flatMap.1 hk
      have other : k ≠ e.1 := by
        rintro rfl
        rw [(List.mem_replicate.1 hk).2] at new
        exact new (List.mem_map_of_mem he')
      simp [other]
    rw [List.flatMap_cons, List.eraseDups_append, later, ih nodup, eraseDups_replicate,
      List.filter_cons]
    by_cases h : 0 < count e <;> simp [h]

theorem OrderedMap.eraseDups_keys (m : OrderedMap κ α) : m.keys.eraseDups = m.keys := by
  have once := eraseDups_flatMap_replicate m.entries (fun _ => 1) m.nodup
  have keys : (m.entries.flatMap fun e => List.replicate 1 e.1) = m.keys := List.map_eq_flatMap.symm
  rw [List.filter_eq_self.2 fun e _ => by simp, keys] at once
  exact once

end

namespace Registry

/-- The last definition of a function. -/
def lastDefinition (ds : List FunctionDecl) (m n : String) : Option FunctionDecl :=
  (ds.filter fun d => d.module = m ∧ d.name = n).getLast?

/-- The names that are defined in a module, in the order of their first definition. -/
def namesIn (ds : List FunctionDecl) (m : String) : List String :=
  ((ds.filter (·.module = m)).map (·.name)).eraseDups

/-- The functions that are defined in a module, each as it is defined last, where it is defined
first. -/
def definedIn (ds : List FunctionDecl) (m : String) : List FunctionDecl :=
  (namesIn ds m).filterMap (lastDefinition ds m)

theorem of_lastDefinition {ds : List FunctionDecl} {m n : String} {d : FunctionDecl}
    (h : lastDefinition ds m n = some d) : d ∈ ds ∧ d.module = m ∧ d.name = n := by
  have last := List.mem_of_getLast? h
  simpa using List.mem_filter.1 last

theorem lastDefinition_concat (ds : List FunctionDecl) (d : FunctionDecl) (m n : String) :
    lastDefinition (ds ++ [d]) m n =
      if d.module = m ∧ d.name = n then some d else lastDefinition ds m n := by
  by_cases h : d.module = m ∧ d.name = n
  · simp [lastDefinition, h]
  · have others : (ds ++ [d]).filter (fun d => d.module = m ∧ d.name = n) =
        ds.filter fun d => d.module = m ∧ d.name = n := by
      rw [List.filter_append, List.filter_cons_of_neg (by simpa using h), List.filter_nil,
        List.append_nil]
    rw [if_neg h, lastDefinition, others, lastDefinition]

theorem mem_namesIn {ds : List FunctionDecl} {m n : String} :
    n ∈ namesIn ds m ↔ (lastDefinition ds m n).isSome := by
  rw [namesIn, List.mem_eraseDups, lastDefinition, List.getLast?_isSome, ne_eq,
    List.filter_eq_nil_iff]
  simp [and_assoc]

theorem namesIn_concat (ds : List FunctionDecl) (d : FunctionDecl) (m : String) :
    namesIn (ds ++ [d]) m =
      if d.module = m ∧ d.name ∉ namesIn ds m then namesIn ds m ++ [d.name] else namesIn ds m := by
  by_cases same : d.module = m
  · have step : ((ds ++ [d]).filter (·.module = m)).map (·.name) =
        (ds.filter (·.module = m)).map (·.name) ++ [d.name] := by simp [same]
    rw [namesIn, step]
    by_cases known : d.name ∈ namesIn ds m
    · rw [if_neg fun new => new.2 known, eraseDups_concat_of_mem (List.mem_eraseDups.1 known),
        namesIn]
    · rw [if_pos ⟨same, known⟩, eraseDups_concat_of_not_mem (mt List.mem_eraseDups.2 known),
        namesIn]
  · simp [namesIn, same]

/-- Functions that are defined again are replaced where they stand. -/
theorem definedIn_concat {ds : List FunctionDecl} {d : FunctionDecl}
    (known : (lastDefinition ds d.module d.name).isSome) (m : String) :
    definedIn (ds ++ [d]) m =
      (definedIn ds m).map fun f => if f.module = d.module ∧ f.name = d.name then d else f := by
  have names : namesIn (ds ++ [d]) m = namesIn ds m := by
    rw [namesIn_concat, if_neg]
    rintro ⟨rfl, new⟩
    exact new (mem_namesIn.2 known)
  rw [definedIn, definedIn, names, List.map_filterMap]
  refine congrArg (List.filterMap · _) (funext fun n => ?_)
  rw [lastDefinition_concat]
  cases found : lastDefinition ds m n with
  | none =>
    have other : ¬ (d.module = m ∧ d.name = n) := by
      rintro ⟨rfl, rfl⟩
      simp [found] at known
    rw [if_neg other, Option.map_none]
  | some f =>
    obtain ⟨-, rfl, rfl⟩ := of_lastDefinition found
    by_cases same : f.module = d.module ∧ f.name = d.name
    · simp [same]
    · have other : ¬ (d.module = f.module ∧ d.name = f.name) := fun h => same ⟨h.1.symm, h.2.symm⟩
      simp [same, other]

/-! ### Registries by their history -/

/-- What a registry keeps of a definition, under the name of the function. -/
def kept (d : FunctionDecl) : String × Signature := (d.name, ⟨d.params, d.returns, d.exported⟩)

/-- What a registry keeps of a module after these definitions. -/
def contents (ds : List FunctionDecl) (m : String) : OrderedMap String Signature :=
  .ofList ((ds.filter (·.module = m)).map kept)

theorem contents_concat (ds : List FunctionDecl) (d : FunctionDecl) (m : String) :
    contents (ds ++ [d]) m =
      if d.module = m then (contents ds m).insert (kept d).1 (kept d).2 else contents ds m := by
  by_cases h : d.module = m
  · rw [if_pos h, contents, List.filter_append, List.map_append,
      List.filter_cons_of_pos (by simpa using h)]
    exact OrderedMap.ofList_concat _ (kept d)
  · simp [contents, h]

theorem contents_eq_empty {ds : List FunctionDecl} {m : String} (h : ∀ d ∈ ds, d.module ≠ m) :
    contents ds m = .empty := by
  have none : ds.filter (·.module = m) = [] := by simpa using h
  rw [contents, none]
  rfl

theorem contents_eq_nil_iff (ds : List FunctionDecl) (m : String) :
    (contents ds m).entries = [] ↔ ∀ d ∈ ds, d.module ≠ m := by
  refine ⟨fun none d hd same => ?_, fun h => by rw [contents_eq_empty h]; rfl⟩
  have named : d.name ∈ (contents ds m).keys := by
    rw [contents, OrderedMap.keys_ofList, List.mem_eraseDups, List.map_map]
    exact List.mem_map.2 ⟨d, by simpa using ⟨hd, same⟩, rfl⟩
  rw [OrderedMap.keys, none] at named
  cases named

theorem keys_contents (ds : List FunctionDecl) (m : String) :
    (contents ds m).keys = namesIn ds m := by
  rw [contents, OrderedMap.keys_ofList, List.map_map]
  rfl

theorem get?_contents (ds : List FunctionDecl) (m n : String) :
    ((contents ds m).get? n).map (declOf m n) = lastDefinition ds m n := by
  have both (d : FunctionDecl) : (decide ((kept d).1 = n) && decide (d.module = m)) =
      decide (d.module = m ∧ d.name = n) := by
    rw [Bool.and_comm, Bool.decide_and]
    rfl
  rw [contents, OrderedMap.get?_ofList, OrderedMap.lastValue, List.filter_map, List.filter_filter]
  simp only [Function.comp_apply, both, List.getLast?_map, Option.map_map]
  rw [← lastDefinition]
  cases found : lastDefinition ds m n with
  | none => rfl
  | some d =>
    obtain ⟨-, rfl, rfl⟩ := of_lastDefinition found
    rfl

/-- A module lists its functions as they are defined. -/
theorem functions_contents (ds : List FunctionDecl) (m : String) :
    ((contents ds m).entries.map fun e => declOf m e.1 e.2) = definedIn ds m := by
  rw [definedIn, ← keys_contents, OrderedMap.keys, List.filterMap_map]
  have found (e : String × Signature) (he : e ∈ (contents ds m).entries) :
      lastDefinition ds m e.1 = some (declOf m e.1 e.2) := by
    rw [← get?_contents, OrderedMap.get?, OrderedMap.lookup_of_mem (contents ds m).nodup he,
      Option.map_some]
  generalize (contents ds m).entries = es at found
  induction es with
  | nil => rfl
  | cons e es ih =>
    obtain ⟨first, rest⟩ := List.forall_mem_cons.1 found
    rw [List.map_cons, ih rest,
      List.filterMap_cons_some (f := lastDefinition ds m ∘ Prod.fst) first]

/-- The registry came to be by naming these modules, in order, and making these definitions. -/
inductive Reached : Registry → List String → List FunctionDecl → Prop
  | empty : Reached .empty [] []
  | addModule {r : Registry} {ms : List String} {ds : List FunctionDecl} (before : Reached r ms ds)
      (m : String) : Reached (r.addModule m) (ms ++ [m]) ds
  | define {r : Registry} {ms : List String} {ds : List FunctionDecl} (before : Reached r ms ds)
      (d : FunctionDecl) : Reached (r.define d) (ms ++ [d.module]) (ds ++ [d])

namespace Reached

variable {r : Registry} {ms : List String} {ds : List FunctionDecl}

/-- A definition names its module. -/
theorem named (h : Reached r ms ds) : ∀ d ∈ ds, d.module ∈ ms := by
  induction h with
  | empty => simp
  | addModule _ m ih => exact fun d hd => List.mem_append_left _ (ih d hd)
  | define _ d ih =>
    intro d' hd'
    rcases List.mem_append.1 hd' with earlier | last
    · exact List.mem_append_left _ (ih d' earlier)
    · rw [List.mem_singleton.1 last]
      exact List.mem_append_right _ List.mem_cons_self

theorem moduleNames_eq (h : Reached r ms ds) : r.moduleNames = ms.eraseDups := by
  induction h with
  | empty => rfl
  | addModule _ m ih =>
    rw [← eraseDups_concat ih]
    exact OrderedMap.keys_ensure ..
  | define _ d ih =>
    rw [← eraseDups_concat ih]
    exact OrderedMap.keys_insert ..

/-- A module that was named has what was defined in it, and no other module is there. -/
theorem get?_eq (h : Reached r ms ds) (m : String) :
    r.modules.get? m = if m ∈ ms then some (contents ds m) else none := by
  induction h with
  | empty => simp [Registry.empty]
  | @addModule r ms ds before m' ih =>
    rw [Registry.addModule, OrderedMap.get?_ensure, ih]
    by_cases known : m ∈ ms
    · simp [known]
    · have blank : contents ds m = .empty :=
        contents_eq_empty fun d hd same => known (same ▸ before.named d hd)
      by_cases same : m' = m
      · simp [same, known, blank]
      · simp [same, Ne.symm same, known]
  | @define r ms ds before d ih =>
    rw [Registry.define, OrderedMap.get?_modify, contents_concat]
    by_cases same : d.module = m
    · subst same
      have defined : (r.modules.get? d.module).getD .empty = contents ds d.module := by
        rw [ih]
        by_cases known : d.module ∈ ms
        · simp [known]
        · have blank : contents ds d.module = .empty :=
            contents_eq_empty fun d' hd' same => known (same ▸ before.named d' hd')
          simp [known, blank]
      simp [defined, kept]
    · rw [if_neg same, if_neg same, ih]
      simp [Ne.symm same]

theorem lookup_eq (h : Reached r ms ds) (m n : String) :
    r.lookup m n = lastDefinition ds m n := by
  rw [lookup, h.get?_eq, ← get?_contents]
  by_cases known : m ∈ ms
  · simp [known]
  · have blank : contents ds m = .empty :=
      contents_eq_empty fun d hd same => known (same ▸ h.named d hd)
    simp [known, blank]

theorem functions?_eq (h : Reached r ms ds) (m : String) :
    r.functions? m = if m ∈ ms then some (definedIn ds m) else none := by
  rw [functions?, h.get?_eq]
  by_cases known : m ∈ ms
  · rw [if_pos known, if_pos known, Option.map_some, functions_contents]
  · rw [if_neg known, if_neg known, Option.map_none]

theorem hasModule_iff (h : Reached r ms ds) (m : String) : r.hasModule m = true ↔ m ∈ ms := by
  rw [hasModule, OrderedMap.contains, decide_eq_true_iff]
  change m ∈ r.moduleNames ↔ _
  rw [h.moduleNames_eq, List.mem_eraseDups]

theorem entries_eq (h : Reached r ms ds) :
    r.modules.entries = ms.eraseDups.map fun m => (m, contents ds m) := by
  rw [← h.moduleNames_eq]
  refine r.modules.entries_eq_map fun m hm => ?_
  have named : m ∈ ms := List.mem_eraseDups.1 (h.moduleNames_eq ▸ hm)
  rw [h.get?_eq, if_pos named]

theorem defineAll (h : Reached r ms ds) (ds' : List FunctionDecl) :
    Reached (r.defineAll ds') (ms ++ ds'.map (·.module)) (ds ++ ds') := by
  induction ds' generalizing r ms ds with
  | nil => simpa [Registry.defineAll] using h
  | cons d ds' ih => simpa [Registry.defineAll] using ih (h.define d)

end Reached

/-! ### Registries from files -/

/-- The definitions that a listing stands for, in order. -/
def fileOrder (listing : OrderedMap String (List FunctionDecl)) : List FunctionDecl :=
  listing.entries.flatMap fun e => e.2.map ({ · with module := e.1 })

/-- A listing names a module once and then again with each of its functions. -/
theorem reached_ofListing (listing : OrderedMap String (List FunctionDecl)) :
    Reached (ofListing listing)
      (listing.entries.flatMap fun e => List.replicate (e.2.length + 1) e.1)
      (fileOrder listing) := by
  have step {r : Registry} {ms : List String} {ds : List FunctionDecl} (h : Reached r ms ds)
      (es : List (String × List FunctionDecl)) :
      Reached (es.foldl (fun r e =>
          (r.addModule e.1).defineAll (e.2.map ({ · with module := e.1 }))) r)
        (ms ++ es.flatMap fun e => List.replicate (e.2.length + 1) e.1)
        (ds ++ es.flatMap fun e => e.2.map ({ · with module := e.1 })) := by
    induction es generalizing r ms ds with
    | nil => simpa using h
    | cons e es ih =>
      have next := ih ((h.addModule e.1).defineAll (e.2.map ({ · with module := e.1 })))
      have names : [e.1] ++ (e.2.map ({ · with module := e.1 })).map (·.module) =
          List.replicate (e.2.length + 1) e.1 := by
        simp [List.replicate_succ, Function.comp_def, List.map_const']
      simpa [← names] using next
  exact step .empty listing.entries

theorem moduleNames_ofListing (listing : OrderedMap String (List FunctionDecl)) :
    (listing.entries.flatMap fun e => List.replicate (e.2.length + 1) e.1).eraseDups =
      listing.keys := by
  rw [eraseDups_flatMap_replicate _ (fun e => e.2.length + 1) listing.nodup,
    List.filter_eq_self.2 fun e _ => by simp, OrderedMap.keys]

/-- A module has no functions if its list is empty. -/
theorem contents_fileOrder {listing : OrderedMap String (List FunctionDecl)}
    {e : String × List FunctionDecl} (he : e ∈ listing.entries) :
    (contents (fileOrder listing) e.1).entries = [] ↔ e.2 = [] := by
  rw [contents_eq_nil_iff]
  constructor
  · intro none
    refine List.eq_nil_iff_forall_not_mem.2 fun d hd => ?_
    have listed : { d with module := e.1 } ∈ fileOrder listing :=
      List.mem_flatMap.2 ⟨e, he, List.mem_map_of_mem hd⟩
    exact none _ listed rfl
  · intro none d hd same
    obtain ⟨e', he', hd⟩ := List.mem_flatMap.1 hd
    obtain ⟨d', hd', rfl⟩ := List.mem_map.1 hd
    -- No other entry of the listing has this key.
    have found := OrderedMap.lookup_of_mem listing.nodup he'
    rw [show e'.1 = e.1 from same, OrderedMap.lookup_of_mem listing.nodup he, none] at found
    rw [← Option.some.inj found] at hd'
    cases hd'

/-- Defining what a listing holds gives the modules of the listing that have functions. -/
theorem entries_defineAll_fileOrder (listing : OrderedMap String (List FunctionDecl)) :
    (Registry.empty.defineAll (fileOrder listing)).modules.entries =
      (ofListing listing).modules.entries.filter fun e => !e.2.entries.isEmpty := by
  have names : (fileOrder listing).map (·.module) =
      listing.entries.flatMap fun e => List.replicate e.2.length e.1 := by
    simp [fileOrder, List.map_flatMap, Function.comp_def, List.map_const']
  have nonempty : (listing.entries.filter fun e => decide (0 < e.2.length)) =
      listing.entries.filter fun e => !(contents (fileOrder listing) e.1).entries.isEmpty := by
    refine List.filter_congr fun e he => ?_
    rw [Bool.eq_iff_iff, decide_eq_true_iff, List.length_pos_iff, ne_eq, ← contents_fileOrder he,
      Bool.not_eq_true', ← Bool.not_eq_true, List.isEmpty_iff]
  have defined := (Reached.empty.defineAll (fileOrder listing)).entries_eq
  rw [List.nil_append, List.nil_append, names, eraseDups_flatMap_replicate _ _ listing.nodup,
    nonempty] at defined
  rw [defined, (reached_ofListing listing).entries_eq, moduleNames_ofListing, OrderedMap.keys,
    List.filter_map, List.filter_map]
  rfl

/-- What a registry file lists. -/
def listed : Decoder (OrderedMap String (List FunctionDecl)) := fun room j => do
  let r ← JsonRecord.ofJson ["modules"] room j
  r.required "modules" (.map (.list FunctionDecl.decode))

/-- A registry file is read by what it lists. -/
theorem decode_ofText (text : String) :
    Registry.decode.ofText text = (listed.ofText text).map ofListing := by
  have decoded (j : Json) : Registry.decode Decoder.textRoom j =
      (listed Decoder.textRoom j).map ofListing := by
    simp only [Registry.decode, listed, Option.bind_eq_bind, Option.map_eq_bind,
      Option.bind_assoc]
    rfl
  rw [Decoder.ofText, Decoder.ofText, Option.map_bind, funext decoded]
  rfl

/-- A registry answers for the modules that were named and the definitions that were made. -/
structure Records (r : Registry) (ms : List String) (ds : List FunctionDecl) : Prop where
  /-- The last definition is the one that is found. -/
  lookup : ∀ m n, r.lookup m n = lastDefinition ds m n
  /-- It bears the names under which it is found. -/
  own : ∀ m n d, r.lookup m n = some d → d.module = m ∧ d.name = n
  hasModule : ∀ m, r.hasModule m = true ↔ m ∈ ms
  /-- Modules stand in the order in which they were first named. -/
  moduleNames : r.moduleNames = ms.eraseDups
  /-- Functions stand in the order in which they were first defined. -/
  functions : ∀ m, r.functions? m = if m ∈ ms then some (definedIn ds m) else none

theorem Records.congr {r : Registry} {ms ms' : List String} {ds : List FunctionDecl}
    (h : Records r ms ds) (same : ms.eraseDups = ms'.eraseDups) : Records r ms' ds := by
  have mem (m : String) : m ∈ ms ↔ m ∈ ms' := by
    rw [← List.mem_eraseDups, same, List.mem_eraseDups]
  exact ⟨h.lookup, h.own, fun m => (h.hasModule m).trans (mem m), h.moduleNames.trans same,
    fun m => by simp only [h.functions, mem]⟩

theorem Reached.records {r : Registry} {ms : List String} {ds : List FunctionDecl}
    (h : Reached r ms ds) : Records r ms ds where
  lookup := h.lookup_eq
  own m n d found := by
    rw [h.lookup_eq] at found
    exact (of_lastDefinition found).2
  hasModule := h.hasModule_iff
  moduleNames := h.moduleNames_eq
  functions := h.functions?_eq

/-- To define a function again is to change what is found under its name, where it stands. -/
structure Redefines (r r' : Registry) (d : FunctionDecl) : Prop where
  found : r'.lookup d.module d.name = some d
  others : ∀ m n, ¬ (d.module = m ∧ d.name = n) → r'.lookup m n = r.lookup m n
  moduleNames : (r.lookup d.module d.name).isSome → r'.moduleNames = r.moduleNames
  functions : (r.lookup d.module d.name).isSome → ∀ m, r'.functions? m =
    (r.functions? m).map
      (List.map fun f => if f.module = d.module ∧ f.name = d.name then d else f)

theorem Reached.redefines {r : Registry} {ms : List String} {ds : List FunctionDecl}
    (h : Reached r ms ds) (d : FunctionDecl) : Redefines r (r.define d) d := by
  have after := h.define d
  have named (known : (r.lookup d.module d.name).isSome) : d.module ∈ ms := by
    obtain ⟨d', found⟩ := Option.isSome_iff_exists.1 known
    rw [h.lookup_eq] at found
    obtain ⟨hd', same, -⟩ := of_lastDefinition found
    exact same ▸ h.named d' hd'
  refine ⟨?_, fun m n other => ?_, fun known => ?_, fun known m => ?_⟩
  · rw [after.lookup_eq, lastDefinition_concat, if_pos ⟨rfl, rfl⟩]
  · rw [after.lookup_eq, lastDefinition_concat, if_neg other, h.lookup_eq]
  · rw [after.moduleNames_eq, eraseDups_concat_of_mem (named known), h.moduleNames_eq]
  · have last := known
    rw [h.lookup_eq] at last
    rw [after.functions?_eq, h.functions?_eq, definedIn_concat last]
    by_cases hm : m ∈ ms
    · simp [hm]
    · have other : m ≠ d.module := fun same => hm (same ▸ named known)
      simp [hm, other]

/-- A registry answers by the history of its definitions: what is found was defined last, and stands
where it was defined first. A registry file gives the registry of its declarations in file order,
each in the module under which it is listed; beyond that its empty modules are there. -/
theorem registry_records_history :
    (∀ ds : List FunctionDecl,
      let r := Registry.empty.defineAll ds
      Records r (ds.map (·.module)) ds ∧ ∀ d, Redefines r (r.define d) d) ∧
    (∀ text, Registry.decode.ofText text = (listed.ofText text).map ofListing) ∧
    ∀ listing,
      Records (ofListing listing) listing.keys (fileOrder listing) ∧
      (Registry.empty.defineAll (fileOrder listing)).modules.entries =
        (ofListing listing).modules.entries.filter (fun e => !e.2.entries.isEmpty) := by
  refine ⟨fun ds => ?_, decode_ofText, fun listing => ⟨?_, entries_defineAll_fileOrder listing⟩⟩
  · have reached : Reached (Registry.empty.defineAll ds) (ds.map (·.module)) ds := by
      simpa using Reached.empty.defineAll ds
    exact ⟨reached.records, reached.redefines⟩
  · refine (reached_ofListing listing).records.congr ?_
    rw [moduleNames_ofListing, listing.eraseDups_keys]

end Registry

end StagedLowering
