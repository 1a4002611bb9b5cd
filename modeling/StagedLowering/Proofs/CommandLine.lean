import Mathlib.Data.List.TakeWhile
import StagedLowering.Command.Import

/-!
Command lines written from options. The pieces of a command line, each of one or two words, are
understood one by one, and what they are understood as can be taken in any order, but for the names
to import among themselves. So the options come out of every command line that is written from them.
No command line comes to an import of everything along with names.
-/
namespace StagedLowering.Command

/-! ### Steps that can be taken in any order -/

section Steps

variable {ε σ κ : Type} {f : σ → κ → Except ε σ}

/-- It does not matter which of the two is taken first. -/
def Swap (f : σ → κ → Except ε σ) (x y : κ) : Prop :=
  ∀ s, (do let t ← f s x; f t y) = (do let t ← f s y; f t x)

theorem Swap.symm {x y : κ} (h : Swap f x y) : Swap f y x := fun s => (h s).symm

theorem foldlM_perm {xs ys : List κ} (perm : xs.Perm ys)
    (swap : ∀ x ∈ xs, ∀ y ∈ xs, Swap f x y) (s : σ) : xs.foldlM f s = ys.foldlM f s := by
  induction perm generalizing s with
  | nil => rfl
  | cons x perm ih =>
    have later := ih fun y hy z hz => swap y (.tail x hy) z (.tail x hz)
    rw [List.foldlM_cons, List.foldlM_cons]
    simp only [later]
  | swap x y zs =>
    have first := swap y (.head _) x (.tail y (.head _)) s
    simp only [List.foldlM_cons, ← bind_assoc]
    rw [first]
  | trans perm perm' ih ih' =>
    rw [ih swap, ih' fun x hx y hy => swap x (perm.mem_iff.2 hx) y (perm.mem_iff.2 hy)]

/-- A step that swaps with all others can be taken last. -/
theorem foldlM_cons_swap {x : κ} {ys : List κ} (swap : ∀ y ∈ ys, Swap f x y) (s : σ) :
    (x :: ys).foldlM f s = (ys ++ [x]).foldlM f s := by
  induction ys generalizing s with
  | nil => rfl
  | cons y ys ih =>
    have later := ih fun z hz => swap z (.tail y hz)
    have first := swap y (.head _) s
    simp only [List.cons_append, List.foldlM_cons, ← bind_assoc] at later ⊢
    rw [first]
    simp only [bind_assoc, later]

theorem foldlM_append_swap {xs ys : List κ} (swap : ∀ x ∈ xs, ∀ y ∈ ys, Swap f x y) (s : σ) :
    (xs ++ ys).foldlM f s = (ys ++ xs).foldlM f s := by
  induction xs generalizing s with
  | nil => rw [List.nil_append, List.append_nil]
  | cons x xs ih =>
    have later := ih fun z hz => swap z (.tail x hz)
    have last := foldlM_cons_swap (swap x (.head _)) s
    calc (x :: xs ++ ys).foldlM f s
        = (x :: (ys ++ xs)).foldlM f s := by
          rw [List.cons_append, List.foldlM_cons, List.foldlM_cons]
          simp only [later]
      _ = (ys ++ [x] ++ xs).foldlM f s := by
          rw [← List.cons_append, List.foldlM_append, last, ← List.foldlM_append]
      _ = (ys ++ x :: xs).foldlM f s := by rw [List.append_assoc, List.singleton_append]

end Steps

/-! ### Words -/

/-- The words of an argument on a command line; a value follows its option. -/
def Argument.words : Argument → List String
  | .flag name => ["--" ++ name]
  | .option name value => ["--" ++ name, value]
  | .positional value => [value]
  | .help => ["--help"]
  | .bad => []

/-- A text that no dash begins. -/
def Plain (text : String) : Prop := text.toList.head? ≠ some '-'

instance : DecidablePred Plain :=
  fun text => inferInstanceAs (Decidable (text.toList.head? ≠ some '-'))

namespace Plain

variable {text : String} (h : Plain text)
include h

theorem isDashed_eq_false : isDashed text = false := by
  unfold isDashed
  split
  next dashed => exact absurd (by rw [dashed]; rfl) h
  next => rfl

theorem long?_eq_none : long? text = none := by
  unfold long?
  split
  next dashed => exact absurd (by rw [dashed]; rfl) h
  next => rfl

theorem ne_dashes : text ≠ "--" := by
  rintro rfl
  exact h rfl

end Plain

/-- Names that can be told from one another and from the two dashes that end the options. -/
structure Declaration.Sound (c : Declaration) : Prop where
  nonempty : ∀ name ∈ c.flags ++ c.options, name ≠ ""
  unassigned : ∀ name ∈ c.flags ++ c.options, '=' ∉ name.toList
  apart : ∀ name ∈ c.options, name ∉ c.flags

theorem lowerCommand_sound : lowerCommand.Sound := ⟨by decide, by decide, by decide⟩

theorem importCommand_sound : importCommand.Sound := ⟨by decide, by decide, by decide⟩

theorem toList_dashes (name : String) : ("--" ++ name).toList = '-' :: '-' :: name.toList := by
  rw [String.toList_append]
  rfl

theorem long?_dashes {name : String} (h : '=' ∉ name.toList) :
    long? ("--" ++ name) = some (name, none) := by
  have all : ∀ c ∈ name.toList, (c != '=') = true := by
    intro c hc
    simp only [bne_iff_ne, ne_eq]
    rintro rfl
    exact h hc
  unfold long?
  rw [toList_dashes]
  simp [List.takeWhile_eq_self_iff.2 all, List.dropWhile_eq_nil_iff.2 all]

theorem dashes_append_ne {name : String} (h : name ≠ "") : "--" ++ name ≠ "--" := by
  intro same
  have nothing : ("--" ++ name).toList = '-' :: '-' :: [] := by rw [same]; rfl
  rw [toList_dashes, List.cons.injEq, List.cons.injEq, String.toList_eq_nil_iff] at nothing
  exact h nothing.2.2

/-- An argument that the command understands. -/
def Argument.Known (c : Declaration) : Argument → Prop
  | .flag name => name ∈ c.flags
  | .option name value => name ∈ c.options ∧ Plain value
  | .positional value => Plain value
  | .help => False
  | .bad => False

theorem classify_words {c : Declaration} (sound : c.Sound) {a : Argument} (known : a.Known c)
    (rest : List String) : classify c (a.words ++ rest) = a :: classify c rest := by
  cases a with
  | flag name =>
    have member : name ∈ c.flags ++ c.options := List.mem_append_left _ known
    rw [Argument.words, List.singleton_append, classify,
      if_neg (dashes_append_ne (sound.nonempty name member)),
      long?_dashes (sound.unassigned name member)]
    simp only [if_pos (List.contains_iff_mem.2 known)]
  | option name value =>
    obtain ⟨option, plain⟩ := known
    have member : name ∈ c.flags ++ c.options := List.mem_append_right _ option
    have other : ¬ c.flags.contains name = true :=
      fun flag => sound.apart name option (List.contains_iff_mem.1 flag)
    rw [Argument.words, List.cons_append, classify,
      if_neg (dashes_append_ne (sound.nonempty name member)),
      long?_dashes (sound.unassigned name member)]
    simp only [if_neg other, if_pos (List.contains_iff_mem.2 option), List.singleton_append,
      plain.isDashed_eq_false, Bool.false_eq_true, if_false]
  | positional value =>
    have plain : Plain value := known
    rw [Argument.words, List.singleton_append, classify, if_neg plain.ne_dashes,
      plain.long?_eq_none]
    simp only [plain.isDashed_eq_false, Bool.false_eq_true, if_false]
  | help => exact known.elim
  | bad => exact known.elim

/-- Arguments are understood as what they were written from. -/
theorem classify_flatMap {c : Declaration} (sound : c.Sound) {args : List Argument}
    (known : ∀ a ∈ args, a.Known c) : classify c (args.flatMap Argument.words) = args := by
  induction args with
  | nil => rw [List.flatMap_nil, classify]
  | cons a args ih =>
    rw [List.forall_mem_cons] at known
    rw [List.flatMap_cons, classify_words sound known.1, ih known.2]

/-! ### Drafts -/

/-- A flag, or an option with its value. -/
def Argument.IsSetting : Argument → Prop
  | .flag _ => True
  | .option _ _ => True
  | .positional _ => False
  | .help => False
  | .bad => False

namespace Draft

variable (c : Declaration)

-- Two arguments under different names write in different places; under one name the second of them
-- is refused, whichever it is.
theorem swap_flag_flag (m n : String) : Swap (add c) (.flag m) (.flag n) := by
  intro d
  by_cases same : m = n
  · rw [same]
  · cases first : d.flags m <;> cases second : d.flags n <;>
      simp [add, bind, Except.bind, first, second, same, Ne.symm same, Bool.or_left_comm]

theorem swap_option_option (m x n y : String) : Swap (add c) (.option m x) (.option n y) := by
  intro d
  by_cases same : m = n
  · cases first : d.options n <;> simp [add, bind, Except.bind, first, same]
  · have either (k : String) : (if k = n then some y else if k = m then some x else d.options k) =
        if k = m then some x else if k = n then some y else d.options k := by
      by_cases left : k = m
      · simp [left, same]
      · simp [left]
    cases first : d.options m <;> cases second : d.options n <;>
      simp [add, bind, Except.bind, first, second, same, Ne.symm same, either]

theorem swap_flag_option (m n value : String) : Swap (add c) (.flag m) (.option n value) := by
  intro d
  cases flag : d.flags m <;> cases option : d.options n <;>
    simp [add, bind, Except.bind, flag, option]

theorem swap_flag_positional (m value : String) : Swap (add c) (.flag m) (.positional value) := by
  intro d
  cases flag : d.flags m <;> cases room : d.positionals.isEmpty || c.further.isSome <;>
    simp [add, bind, Except.bind, flag, room]

theorem swap_option_positional (m x y : String) :
    Swap (add c) (.option m x) (.positional y) := by
  intro d
  cases option : d.options m <;> cases room : d.positionals.isEmpty || c.further.isSome <;>
    simp [add, bind, Except.bind, option, room]

/-- A command that takes one positional argument refuses the second, whichever it is. -/
theorem swap_positional_positional {c : Declaration} (single : c.further = none) (x y : String) :
    Swap (add c) (.positional x) (.positional y) := by
  intro d
  cases room : d.positionals.isEmpty <;> simp [add, bind, Except.bind, single, room]

variable {c}

/-- Flags and options swap with all arguments. -/
theorem swap_setting {x y : Argument} (hx : x.IsSetting) (hy : y.Known c) : Swap (add c) x y :=
  match x, y with
  | .flag m, .flag n => swap_flag_flag c m n
  | .flag m, .option n b => swap_flag_option c m n b
  | .flag m, .positional b => swap_flag_positional c m b
  | .option m a, .flag n => (swap_flag_option c n m a).symm
  | .option m a, .option n b => swap_option_option c m a n b
  | .option m a, .positional b => swap_option_positional c m a b
  | .positional _, _ => hx.elim
  | .help, _ => hx.elim
  | .bad, _ => hx.elim
  | _, .help => hy.elim
  | _, .bad => hy.elim

/-- Where there is one positional argument only, all arguments swap. -/
theorem swap_known (single : c.further = none) {x y : Argument} (hx : x.Known c)
    (hy : y.Known c) : Swap (add c) x y := by
  cases x with
  | flag m => exact swap_setting trivial hy
  | option m a => exact swap_setting trivial hy
  | help => exact hx.elim
  | bad => exact hx.elim
  | positional a =>
    cases y with
    | positional b => exact swap_positional_positional single a b
    | flag n => exact (swap_setting (x := .flag n) trivial hx).symm
    | option n b => exact (swap_setting (x := .option n b) trivial hx).symm
    | help => exact hy.elim
    | bad => exact hy.elim

/-- A command that takes further positional arguments takes any number of them. -/
theorem foldlM_positionals (many : c.further.isSome = true) (d : Draft) (values : List String) :
    (values.map .positional).foldlM (add c) d =
      .ok { d with positionals := d.positionals ++ values } := by
  induction values generalizing d with
  | nil => simp [pure, Except.pure]
  | cons value values ih =>
    have first : d.add c (.positional value) =
        .ok { d with positionals := d.positionals ++ [value] } := by
      simp [add, many]
    have later := ih { d with positionals := d.positionals ++ [value] }
    rw [List.append_assoc, List.singleton_append] at later
    rw [List.map_cons, List.foldlM_cons, first]
    exact later

end Draft

/-! ### Command lines -/

namespace Argument

/-- The flag, if it is given. -/
def ofFlag (name : String) (given : Bool) : List Argument := if given then [.flag name] else []

/-- The option with its value, if there is one. -/
def ofOption (name : String) (value? : Option String) : List Argument :=
  value?.toList.map (.option name)

variable {c : Declaration} {name : String}

theorem known_ofFlag (h : name ∈ c.flags) (given : Bool) : ∀ a ∈ ofFlag name given, a.Known c := by
  unfold ofFlag
  split
  · exact List.forall_mem_singleton.2 h
  · exact List.forall_mem_nil _

theorem known_ofOption (h : name ∈ c.options) {value? : Option String}
    (plain : ∀ text ∈ value?.toList, Plain text) : ∀ a ∈ ofOption name value?, a.Known c :=
  List.forall_mem_map.2 fun text htext => ⟨h, plain text htext⟩

theorem isSetting_ofFlag (name : String) (given : Bool) :
    ∀ a ∈ ofFlag name given, a.IsSetting := by
  unfold ofFlag
  split
  · exact List.forall_mem_singleton.2 trivial
  · exact List.forall_mem_nil _

theorem isSetting_ofOption (name : String) (value? : Option String) :
    ∀ a ∈ ofOption name value?, a.IsSetting :=
  List.forall_mem_map.2 fun _ _ => trivial

end Argument

open Argument

/-- Where the flag for debugging stands, if anywhere. -/
inductive DebugFlag where
  | absent
  | beforeCommand
  | afterCommand
  deriving DecidableEq

/-- The words of a command line: a command and its arguments. -/
def DebugFlag.line (debug : DebugFlag) (command : String) (args : List Argument) : List String :=
  (ofFlag "debug" (debug = .beforeCommand)).flatMap words ++ command :: args.flatMap words

/-- The flag, if it is among the arguments of the command. -/
def DebugFlag.late (debug : DebugFlag) : List Argument := ofFlag "debug" (debug = .afterCommand)

theorem parse_line_import (debug : DebugFlag) (args : List Argument) :
    parse (debug.line "import" args) = parseImport (args.flatMap words) := by
  cases debug <;> rfl

theorem parse_line_lower (debug : DebugFlag) (args : List Argument) :
    parse (debug.line "lower" args) = parseLower (args.flatMap words) := by
  cases debug <;> rfl

/-- Arguments that are understood and suffice come to what is made of them. -/
theorem parse_of_draft {c : Declaration} (sound : c.Sound) {args : List Argument}
    (known : ∀ a ∈ args, a.Known c) {d : Draft} (read : args.foldlM (Draft.add c) {} = .ok d)
    (complete : d.complete c = true) (request : Draft → Request) :
    parseArguments c request (args.flatMap words) = .run (request d) := by
  rw [parseArguments, classify_flatMap sound known, read]
  change Invocation.ofResult (if d.complete c then _ else _) = _
  rw [if_pos complete]
  rfl

namespace LowerOptions

/-- The texts that a command line takes over as they are. -/
def texts (o : LowerOptions) : List String := o.file :: o.config.toList

def arguments (o : LowerOptions) : List Argument :=
  .positional o.file :: (ofOption "config" o.config ++ ofFlag "stats" o.stats)

variable (o : LowerOptions) (debug : DebugFlag)

theorem known_arguments (plain : ∀ text ∈ o.texts, Plain text) :
    ∀ a ∈ o.arguments ++ debug.late, a.Known lowerCommand := by
  obtain ⟨file, config⟩ := List.forall_mem_cons.1 plain
  refine List.forall_mem_append.2 ⟨List.forall_mem_cons.2 ⟨file, ?_⟩, known_ofFlag (by decide) _⟩
  exact List.forall_mem_append.2
    ⟨known_ofOption (by decide) config, known_ofFlag (by decide) _⟩

theorem foldlM_arguments :
    ∃ d, (o.arguments ++ debug.late).foldlM (Draft.add lowerCommand) {} = .ok d ∧
      d.complete lowerCommand = true ∧ ofDraft d = o := by
  obtain ⟨file, config, stats⟩ := o
  cases config <;> cases stats <;> cases debug <;> exact ⟨_, rfl, rfl, rfl⟩

theorem parse_line {args : List Argument} (plain : ∀ text ∈ o.texts, Plain text)
    (perm : args.Perm (o.arguments ++ debug.late)) :
    parse (debug.line "lower" args) = .run (.lower o) := by
  have known : ∀ a ∈ args, a.Known lowerCommand :=
    fun a ha => o.known_arguments debug plain a (perm.mem_iff.1 ha)
  obtain ⟨d, read, complete, options⟩ := o.foldlM_arguments debug
  rw [← foldlM_perm perm fun x hx y hy => Draft.swap_known rfl (known x hx) (known y hy)] at read
  rw [parse_line_lower, parseLower, parse_of_draft lowerCommand_sound known read complete, options]

end LowerOptions

namespace ImportOptions

/-- The texts that a command line takes over as they are. -/
def texts (o : ImportOptions) : List String :=
  o.module :: o.items ++ (o.library.toList ++ o.origin.toList)

/-- The module and the names to import from it. -/
def names (o : ImportOptions) : List Argument := (o.module :: o.items).map .positional

def settings (o : ImportOptions) : List Argument :=
  ofFlag "all" o.all ++ (ofOption "stdlib" o.library ++ ofOption "origin" o.origin)

variable (o : ImportOptions) (debug : DebugFlag)

theorem known_names (plain : ∀ text ∈ o.texts, Plain text) :
    ∀ a ∈ o.names, a.Known importCommand :=
  List.forall_mem_map.2 (List.forall_mem_append.1 plain).1

theorem known_settings (plain : ∀ text ∈ o.texts, Plain text) :
    ∀ a ∈ o.settings ++ debug.late, a.Known importCommand := by
  obtain ⟨library, origin⟩ := List.forall_mem_append.1 (List.forall_mem_append.1 plain).2
  refine List.forall_mem_append.2 ⟨List.forall_mem_append.2 ⟨known_ofFlag (by decide) _, ?_⟩,
    known_ofFlag (by decide) _⟩
  exact List.forall_mem_append.2
    ⟨known_ofOption (by decide) library, known_ofOption (by decide) origin⟩

theorem isSetting_settings : ∀ a ∈ o.settings ++ debug.late, a.IsSetting := by
  refine List.forall_mem_append.2 ⟨List.forall_mem_append.2 ⟨isSetting_ofFlag _ _, ?_⟩,
    isSetting_ofFlag _ _⟩
  exact List.forall_mem_append.2 ⟨isSetting_ofOption _ _, isSetting_ofOption _ _⟩

theorem foldlM_settings :
    ∃ d, (o.settings ++ debug.late).foldlM (Draft.add importCommand) {} = .ok d ∧
      d.positionals = [] ∧ d.flags "all" = o.all ∧ d.options "stdlib" = o.library ∧
        d.options "origin" = o.origin := by
  obtain ⟨module, items, all, library, origin⟩ := o
  cases all <;> cases library <;> cases origin <;> cases debug <;>
    exact ⟨_, rfl, rfl, rfl, rfl, rfl⟩

/-- The settings around the names might as well stand before them, in a fixed order. -/
theorem foldlM_around {before after : List Argument} (plain : ∀ text ∈ o.texts, Plain text)
    (perm : (before ++ after).Perm (o.settings ++ debug.late)) (d : Draft) :
    (before ++ (o.names ++ after)).foldlM (Draft.add importCommand) d =
      (o.settings ++ debug.late ++ o.names).foldlM (Draft.add importCommand) d := by
  have setting : ∀ a ∈ before ++ after, a.IsSetting :=
    fun a ha => o.isSetting_settings debug a (perm.mem_iff.1 ha)
  have known : ∀ a ∈ before ++ after, a.Known importCommand :=
    fun a ha => o.known_settings debug plain a (perm.mem_iff.1 ha)
  have past : ∀ x ∈ o.names, ∀ y ∈ after, Swap (Draft.add importCommand) x y := fun x hx y hy =>
    (Draft.swap_setting (setting y (List.mem_append_right before hy))
      (o.known_names plain x hx)).symm
  have among : ∀ x ∈ before ++ after, ∀ y ∈ before ++ after, Swap (Draft.add importCommand) x y :=
    fun x hx y hy => Draft.swap_setting (setting x hx) (known y hy)
  calc (before ++ (o.names ++ after)).foldlM (Draft.add importCommand) d
      = (before ++ (after ++ o.names)).foldlM (Draft.add importCommand) d := by
        rw [List.foldlM_append, List.foldlM_append]
        simp only [foldlM_append_swap past]
    _ = (before ++ after ++ o.names).foldlM (Draft.add importCommand) d := by
        rw [List.append_assoc]
    _ = (o.settings ++ debug.late ++ o.names).foldlM (Draft.add importCommand) d := by
        rw [List.foldlM_append, foldlM_perm perm among, ← List.foldlM_append]

/-- An import needs a module, and asking for all of it excludes naming items. -/
theorem complete_iff (d : Draft) :
    d.complete importCommand = true ↔
      d.positionals ≠ [] ∧ ¬ ((ofDraft d).all = true ∧ (ofDraft d).items ≠ []) := by
  change (!d.positionals.isEmpty && !(d.flags "all" && !d.positionals.tail.isEmpty || false)) =
    true ↔ _
  cases all : d.flags "all" <;> simp [ofDraft, all]

theorem parse_line {before after : List Argument} (plain : ∀ text ∈ o.texts, Plain text)
    (consistent : ¬ (o.all = true ∧ o.items ≠ []))
    (perm : (before ++ after).Perm (o.settings ++ debug.late)) :
    parse (debug.line "import" (before ++ (o.names ++ after))) = .run (.importing o) := by
  have known : ∀ a ∈ before ++ (o.names ++ after), a.Known importCommand := by
    have around := fun a ha => o.known_settings debug plain a (perm.mem_iff.1 ha)
    obtain ⟨early, late⟩ := List.forall_mem_append.1 around
    exact List.forall_mem_append.2
      ⟨early, List.forall_mem_append.2 ⟨o.known_names plain, late⟩⟩
  obtain ⟨d, settings, none, all, library, origin⟩ := o.foldlM_settings debug
  let d' : Draft := { d with positionals := o.module :: o.items }
  have read : (before ++ (o.names ++ after)).foldlM (Draft.add importCommand) {} = .ok d' := by
    rw [o.foldlM_around debug plain perm, List.foldlM_append, settings]
    exact (Draft.foldlM_positionals rfl d _).trans (by rw [none]; rfl)
  have options : ofDraft d' = o := by
    simp only [ofDraft, d', all, library, origin]
    rfl
  have complete : d'.complete importCommand = true :=
    (complete_iff d').2 ⟨List.cons_ne_nil _ _, by rwa [options]⟩
  rw [parse_line_import, parseImport, parse_of_draft importCommand_sound known read complete,
    options]

end ImportOptions

/-! ### All of a module, or names -/

/-- A request comes from a complete draft. -/
theorem complete_of_parseArguments {c : Declaration} {request : Draft → Request}
    {args : List String} {r : Request} (h : parseArguments c request args = .run r) :
    ∃ d, d.complete c = true ∧ request d = r := by
  unfold parseArguments at h
  cases read : (classify c args).foldlM (Draft.add c) {} with
  | error halt => rw [read] at h; cases halt <;> cases h
  | ok d =>
    rw [read] at h
    change Invocation.ofResult (if d.complete c then _ else _) = _ at h
    split at h
    next complete => cases h; exact ⟨d, complete, rfl⟩
    next => cases h

theorem parseLower_ne_importing (args : List String) (o : ImportOptions) :
    parseLower args ≠ .run (.importing o) := by
  intro h
  obtain ⟨d, -, request⟩ := complete_of_parseArguments h
  cases request

theorem consistent_of_parseImport {args : List String} {o : ImportOptions}
    (h : parseImport args = .run (.importing o)) : ¬ (o.all = true ∧ o.items ≠ []) := by
  obtain ⟨d, complete, request⟩ := complete_of_parseArguments h
  cases request
  exact ((ImportOptions.complete_iff d).1 complete).2

/-- Whatever stands before the command, an import comes from the arguments of that command. -/
theorem consistent_of_parseFrom {debug : Bool} {args : List String} {o : ImportOptions}
    (h : parseFrom debug args = .run (.importing o)) : ¬ (o.all = true ∧ o.items ≠ []) := by
  fun_induction parseFrom debug args with
  | case2 debug rest => exact absurd h (parseLower_ne_importing rest o)
  | case3 => exact consistent_of_parseImport h
  | case4 debug rest =>
    unfold parseHelp at h
    split at h
    · cases h
    · split at h <;> cases h
    · cases h
  | case6 debug rest _ _ _ _ ih => exact ih h
  | case1 | case5 | case7 | case8 | case9 | case10 | case11 => cases h

theorem loadRegistry_ne_refused (files : Files) (library : Option String) (message : String) :
    loadRegistry files library ≠ .error (.refused message) := by
  intro refused
  cases library with
  | none => cases refused
  | some file =>
    rw [loadRegistry, readFile] at refused
    cases read : files file with
    | none => rw [read] at refused; cases refused
    | some text =>
      rw [read] at refused
      change decodeFile Registry.decode _ text = _ at refused
      unfold decodeFile at refused
      split at refused <;> cases refused

/-- The refusal of an import of everything along with names comes from nothing else. -/
theorem importing_refuses_iff (files : Files) (o : ImportOptions) :
    importing files o = .error (.refused "--all cannot be combined with explicit items") ↔
      o.all = true ∧ o.items ≠ [] := by
  constructor
  · intro refused
    unfold importing at refused
    split at refused
    next conflict => simpa using conflict
    next =>
      split at refused
      · exact absurd refused (by simp)
      · cases registry : loadRegistry files o.library with
        | error e =>
          rw [registry] at refused
          cases refused
          exact absurd registry (loadRegistry_ne_refused _ _ _)
        | ok found =>
          rw [registry] at refused
          dsimp only [bind, Except.bind] at refused
          split at refused <;> cases refused
  · rintro ⟨all, items⟩
    rw [importing, if_pos (by simp [all, items])]

/-- Options come back from every command line that is written from them: the settings of an import
may stand in any order before and after its names, and the arguments for lowering in any order at
all, with the flag for debugging among them, before the command or nowhere. On the other hand no
command line whatsoever comes to an import of everything along with names, so that such an import is
never what is refused. -/
theorem parse_reads_back :
    (∀ (o : ImportOptions) (debug : DebugFlag) (before after : List Argument),
      (∀ text ∈ o.texts, Plain text) → ¬ (o.all = true ∧ o.items ≠ []) →
      (before ++ after).Perm (o.settings ++ debug.late) →
      parse (debug.line "import" (before ++ (o.names ++ after))) = .run (.importing o)) ∧
    (∀ (o : LowerOptions) (debug : DebugFlag) (args : List Argument),
      (∀ text ∈ o.texts, Plain text) → args.Perm (o.arguments ++ debug.late) →
      parse (debug.line "lower" args) = .run (.lower o)) ∧
    ∀ (args : List String) (o : ImportOptions), parse args = .run (.importing o) →
      ¬ (o.all = true ∧ o.items ≠ []) ∧
      ∀ files, importing files o ≠
        .error (.refused "--all cannot be combined with explicit items") := by
  refine ⟨fun o debug _ _ plain consistent perm => o.parse_line debug plain consistent perm,
    fun o debug _ plain perm => o.parse_line debug plain perm, fun args o run => ?_⟩
  have consistent := consistent_of_parseFrom run
  exact ⟨consistent, fun files refused => consistent ((importing_refuses_iff files o).1 refused)⟩

/-- The names of commands and numbers are values like any other. -/
theorem parse_reads_back_commands :
    parse ["import", "--origin", "help", "lower", "7", "import", "--debug", "--stdlib", "9"] =
      .run (.importing ⟨"lower", ["7", "import"], false, some "9", some "help"⟩) ∧
    (∀ files, importing files ⟨"lower", ["7", "import"], false, some "9", some "help"⟩ ≠
      .error (.refused "--all cannot be combined with explicit items")) ∧
    parse ["--debug", "lower", "--stats", "import", "--config", "0"] =
      .run (.lower ⟨"import", some "0", true⟩) := by
  have imported := parse_reads_back.1 ⟨"lower", ["7", "import"], false, some "9", some "help"⟩
    .afterCommand [.option "origin" "help"] [.flag "debug", .option "stdlib" "9"]
    (by decide) (by decide) (by decide)
  have lowered := parse_reads_back.2.1 ⟨"import", some "0", true⟩ .beforeCommand
    [.flag "stats", .positional "import", .option "config" "0"] (by decide) (by decide)
  exact ⟨imported, (parse_reads_back.2.2 _ _ imported).2, lowered⟩

end StagedLowering.Command
