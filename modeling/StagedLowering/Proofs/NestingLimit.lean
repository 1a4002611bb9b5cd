import StagedLowering.Command.Lower
import StagedLowering.Json.Encode
import StagedLowering.Proofs.LoweringOutcome
import StagedLowering.Proofs.Spellings

/-!
How the brackets of a text bound the nesting of the expression it spells. Each operator on the way
down opens two brackets and each call three, whichever way it is written, so a text in which 127 may
be open at a time spells no expression that is higher than 64. Towers of operators come as high as
that, and are what the limit on lowerings is tested against.
-/
namespace StagedLowering

/-! ### Room for expressions -/

namespace JsonVariant

variable {α : Type} {v : JsonVariant} {room : Nat} {j : Json} {a : α}

theorem room_of_ofJson (opened : ofJson room j = some v) {c : Nat × Json}
    (hc : v.content = some c) : c.1 + 1 = room := by
  unfold ofJson at opened
  split at opened
  · cases opened
    cases hc
  · cases opened
    cases hc
    rfl
  · cases opened

theorem pos_of_single {d : Decoder α} (opened : ofJson room j = some v)
    (h : v.single d = some a) : 0 < room := by
  obtain ⟨c, hc, -⟩ := Option.bind_eq_some_iff.1 h
  have inner := room_of_ofJson opened hc
  omega

end JsonVariant

namespace JsonRecord

variable {α : Type} {r : JsonRecord}

theorem room_of_ofJson {names : List String} {room : Nat} {j : Json}
    (h : ofJson names room j = some r) : r.room + 1 = room := by
  unfold ofJson at h
  split at h
  · obtain ⟨fields, -, rfl⟩ := Option.map_eq_some_iff.1 h
    rfl
  · split at h
    · cases h
      rfl
    · cases h
  · cases h

theorem exists_of_required {name : String} {d : Decoder α} {a : α}
    (h : r.required name d = some a) : ∃ j, d r.room j = some a := by
  obtain ⟨j, -, read⟩ := Option.bind_eq_some_iff.1 h
  exact ⟨j, read⟩

end JsonRecord

/-- The fields of a variant are two brackets further in. -/
theorem JsonVariant.built_of_record {α : Type} {v : JsonVariant} {room : Nat} {j : Json}
    (opened : ofJson room j = some v) {names : List String} {build : JsonRecord → Option α} {a : α}
    (h : v.record names build = some a) : ∃ r, r.room + 2 = room ∧ build r = some a := by
  obtain ⟨c, hc, h⟩ := Option.bind_eq_some_iff.1 h
  obtain ⟨r, hr, built⟩ := Option.bind_eq_some_iff.1 h
  have outer := room_of_ofJson opened hc
  have inner := JsonRecord.room_of_ofJson hr
  exact ⟨r, by omega, built⟩

namespace HighIR

/-- Whatever `d` decodes, two brackets could be opened for each of its levels but the last. -/
def Roomy (d : Decoder HighIR) : Prop :=
  ∀ room j e, d room j = some e → 2 * e.height ≤ room + 1

theorem heightAll_le_of_mapM {d : Decoder HighIR} (h : Roomy d) {room : Nat} {values : List Json}
    {args : List HighIR} (read : values.mapM (d room) = some args) :
    2 * heightAll args ≤ room + 1 := by
  induction values generalizing args with
  | nil =>
    cases read
    simp [heightAll]
  | cons value values ih =>
    simp only [List.mapM_cons, Option.bind_eq_bind, Option.bind_eq_some_iff] at read
    obtain ⟨a, ha, rest, hrest, made⟩ := read
    cases made
    have first := h room value a ha
    have others := ih hrest
    simp only [heightAll]
    omega

theorem heightAll_le_of_list {d : Decoder HighIR} (h : Roomy d) {room : Nat} {j : Json}
    {args : List HighIR} (read : Decoder.list d room j = some args) :
    2 * heightAll args ≤ room := by
  unfold Decoder.list at read
  split at read
  · exact heightAll_le_of_mapM h read
  · cases read

/-- A layer spends at least two brackets on a level. -/
theorem layer_roomy {self : Decoder HighIR} (ih : Roomy self) : Roomy (layer self) := by
  intro room j e h
  obtain ⟨v, opened, h⟩ := Option.bind_eq_some_iff.1 h
  -- the variants in the order in which they are tried; only operators and calls go further down
  split at h
  · obtain ⟨value, single, rfl⟩ := Option.map_eq_some_iff.1 h
    have pos := JsonVariant.pos_of_single opened single
    simp only [height]
    omega
  · obtain ⟨r, inner, h⟩ := JsonVariant.built_of_record opened h
    simp only [Option.bind_eq_bind, Option.bind_eq_some_iff, Option.some.injEq] at h
    obtain ⟨name, -, ty, -, rfl⟩ := h
    simp only [height]
    omega
  · obtain ⟨r, inner, h⟩ := JsonVariant.built_of_record opened h
    simp only [Option.bind_eq_bind, Option.bind_eq_some_iff, Option.some.injEq] at h
    obtain ⟨left, hleft, op, -, right, hright, ty, -, rfl⟩ := h
    obtain ⟨_, hleft⟩ := JsonRecord.exists_of_required hleft
    obtain ⟨_, hright⟩ := JsonRecord.exists_of_required hright
    have leftRoom := ih _ _ _ hleft
    have rightRoom := ih _ _ _ hright
    simp only [height]
    omega
  · obtain ⟨r, inner, h⟩ := JsonVariant.built_of_record opened h
    simp only [Option.bind_eq_bind, Option.bind_eq_some_iff, Option.some.injEq] at h
    obtain ⟨pattern, -, flags, -, rfl⟩ := h
    simp only [height]
    omega
  · obtain ⟨r, inner, h⟩ := JsonVariant.built_of_record opened h
    simp only [Option.bind_eq_bind, Option.bind_eq_some_iff, Option.some.injEq] at h
    obtain ⟨callee, -, args, hargs, ty, -, rfl⟩ := h
    obtain ⟨_, hargs⟩ := JsonRecord.exists_of_required hargs
    have argsRoom := heightAll_le_of_list ih hargs
    simp only [height]
    omega
  · obtain ⟨r, inner, h⟩ := JsonVariant.built_of_record opened h
    simp only [Option.bind_eq_bind, Option.bind_eq_some_iff, Option.some.injEq] at h
    obtain ⟨scrutinee, -, arms, -, ty, -, rfl⟩ := h
    simp only [height]
    omega
  · obtain ⟨r, inner, h⟩ := JsonVariant.built_of_record opened h
    simp only [Option.bind_eq_bind, Option.bind_eq_some_iff, Option.some.injEq] at h
    obtain ⟨module, -, functions, -, rfl⟩ := h
    simp only [height]
    omega
  · cases h

theorem decode_roomy : Roomy decode := by
  have tied (layers : Nat) : Roomy (Decoder.nested.tie layer layers) := by
    induction layers with
    | zero => exact fun _ _ _ h => nomatch h
    | succ layers ih => exact layer_roomy ih
  exact fun room => tied (room + 1) room

/-- The highest expression that a text can spell. -/
def highest : Nat := 64

theorem height_le_highest {text : String} {e : HighIR} (h : decode.ofText text = some e) :
    e.height ≤ highest := by
  obtain ⟨j, -, read⟩ := Option.bind_eq_some_iff.1 h
  have room := decode_roomy _ _ _ read
  simp only [Decoder.textRoom] at room
  simp only [highest]
  omega

end HighIR

/-! ### Texts -/

/-- A text made of whole tokens. -/
def Token.Scans (text : String) (ts : List Token) : Prop :=
  ∀ found, text.toList.foldlM step ⟨found, .between⟩ = some ⟨ts.reverse ++ found, .between⟩

theorem Token.Scans.append {a b : String} {ts us : List Token} (h : Scans a ts) (h' : Scans b us) :
    Scans (a ++ b) (ts ++ us) := by
  intro found
  rw [String.toList_append, List.foldlM_append, h found]
  have rest := h' (ts.reverse ++ found)
  rwa [← List.append_assoc, ← List.reverse_append] at rest

/-- Tokens that spell a value, wherever one may stand. -/
def Json.SpeltBy (j : Json) (ts : List Token) : Prop :=
  ∀ stack, ts.foldlM Assembly.step (.value stack) = some (.after j stack)

theorem Json.read_of_scans {text : String} {ts : List Token} {j : Json} (h : Token.Scans text ts)
    (spelt : j.SpeltBy ts) : Json.read text = some j := by
  have tokens : Token.scanAll text.toList = some ts := by
    rw [Token.scanAll, h []]
    simp [Token.settle]
  rw [Json.read, tokens, Option.bind_some, Json.ofTokens, spelt []]

namespace HighIR

/-- A tower of operators, each the left operand of the one above it. -/
def tower : Nat → HighIR
  | 0 => .literal .nil
  | n + 1 => .binary (tower n) "+" (.literal .nil) .nil

/-- The text of a tower, as encoders have it. -/
def towerText : Nat → String
  | 0 => "\x7b\"Literal\":\"Nil\"\x7d"
  | n + 1 =>
    "\x7b\"Binary\":\x7b\"left\":" ++ towerText n ++
      ",\"op\":\"+\",\"right\":\x7b\"Literal\":\"Nil\"\x7d,\"ty\":\"Nil\"\x7d\x7d"

def towerTokens : Nat → List Token
  | 0 => [.openBrace, .string (some "Literal"), .colon, .string (some "Nil"), .closeBrace]
  | n + 1 =>
    [.openBrace, .string (some "Binary"), .colon, .openBrace, .string (some "left"), .colon] ++
      towerTokens n ++
      [.comma, .string (some "op"), .colon, .string (some "+"), .comma, .string (some "right"),
       .colon, .openBrace, .string (some "Literal"), .colon, .string (some "Nil"), .closeBrace,
       .comma, .string (some "ty"), .colon, .string (some "Nil"), .closeBrace, .closeBrace]

theorem towerText_scans (n : Nat) : Token.Scans (towerText n) (towerTokens n) := by
  induction n with
  | zero => exact fun _ => rfl
  | succ n ih =>
    have before : Token.Scans "\x7b\"Binary\":\x7b\"left\":"
        [.openBrace, .string (some "Binary"), .colon, .openBrace, .string (some "left"), .colon] :=
      fun _ => rfl
    exact (before.append ih).append fun _ => rfl

theorem tower_speltBy (n : Nat) : (tower n).encode.SpeltBy (towerTokens n) := by
  induction n with
  | zero => exact fun _ => rfl
  | succ n ih =>
    intro stack
    rw [towerTokens, List.foldlM_append, List.foldlM_append]
    change (towerTokens n).foldlM Json.Assembly.step (.value _) >>= _ = _
    rw [ih]
    rfl

theorem read_towerText (n : Nat) : Json.read (towerText n) = some (tower n).encode :=
  Json.read_of_scans (towerText_scans n) (tower_speltBy n)

theorem tie_foot {layers room : Nat} (layered : 0 < layers) (deep : 0 < room) :
    Decoder.nested.tie layer layers room (tower 0).encode = some (tower 0) := by
  obtain ⟨layers, rfl⟩ : ∃ l, layers = l + 1 := ⟨layers - 1, by omega⟩
  obtain ⟨room, rfl⟩ : ∃ r, room = r + 1 := ⟨room - 1, by omega⟩
  rfl

/-- A tower takes two brackets for each operator and one for what stands at its foot. -/
theorem tie_tower {n layers room : Nat} (layered : n < layers) (deep : 2 * n < room) :
    Decoder.nested.tie layer layers room (tower n).encode = some (tower n) := by
  induction n generalizing layers room with
  | zero => exact tie_foot layered deep
  | succ n ih =>
    obtain ⟨layers, rfl⟩ : ∃ l, layers = l + 1 := ⟨layers - 1, by omega⟩
    obtain ⟨room, rfl⟩ : ∃ r, room = r + 2 := ⟨room - 2, by omega⟩
    have left := @ih layers room (by omega) (by omega)
    have right := @tie_foot layers room (by omega) (by omega)
    -- the record's fields are decoded in order, the left operand first
    change (Decoder.nested.tie layer layers room (tower n).encode).bind _ = _
    rw [left]
    change (Decoder.nested.tie layer layers room (tower 0).encode).bind _ = _
    rw [right]
    rfl

/-- The text of a tower no higher than the highest expression is accepted. -/
theorem decode_towerText {n : Nat} (h : n < highest) :
    decode.ofText (towerText n) = some (tower n) := by
  simp only [highest] at h
  rw [Decoder.ofText, read_towerText, Option.bind_some]
  exact tie_tower (by simp only [Decoder.textRoom]; omega) (by simp only [Decoder.textRoom]; omega)

theorem height_tower (n : Nat) : (tower n).height = n + 1 := by
  induction n with
  | zero => rfl
  | succ n ih =>
    simp only [tower, height, ih]
    omega

theorem fault_tower {config : Config} (n level : Nat) (deep : config.maxDepth.toNat ≤ level + n) :
    (tower n).fault config level = some (.depthExceeded config.maxDepth) := by
  induction n generalizing level with
  | zero => exact fault_deep config level _ deep
  | succ n ih =>
    by_cases within : level < config.maxDepth.toNat
    · rw [tower, fault_binary config level _ _ _ _ within, ih (level + 1) (by omega)]
      rfl
    · exact fault_deep config level _ (Nat.le_of_not_lt within)

/-- Only an expression that is too high has a fault of depth. -/
theorem lt_height_of_fault {config : Config} {level : Nat} {e : HighIR} {max : UInt64}
    (h : e.fault config level = some (.depthExceeded max)) :
    config.maxDepth.toNat < level + e.height := by
  refine Nat.lt_of_not_le fun fits => ?_
  have shallow := (level_lt_iff e level _).2 fits
  obtain ⟨v, hv, offence⟩ := List.exists_of_findSome?_eq_some h
  have within := Nat.not_le.2 (shallow v hv)
  unfold Config.offence at offence
  grind

end HighIR

/-! ### Settings in a text -/

namespace Token

theorem start_digit {c : Char} (h : Numeral.isDigit c = true) (found : List Token) :
    start found c = some ⟨found, .numeral [c]⟩ := by
  have blank : isBlank c = false := by
    rw [← Bool.not_eq_true]
    intro blank
    simp only [isBlank, Bool.or_eq_true, decide_eq_true_eq] at blank
    rcases blank with ((rfl | rfl) | rfl) | rfl <;> cases h
  have quote : c ≠ '"' := by
    rintro rfl
    cases h
  simp [start, blank, quote, startsNumeral, h]

theorem foldlM_digits {cs : List Char} (h : ∀ c ∈ cs, Numeral.isDigit c = true)
    (found : List Token) (done : List Char) :
    cs.foldlM step ⟨found, .numeral done⟩ = some ⟨found, .numeral (cs.reverse ++ done)⟩ := by
  induction cs generalizing done with
  | nil => rfl
  | cons c cs ih =>
    obtain ⟨first, rest⟩ := List.forall_mem_cons.1 h
    have next : step ⟨found, .numeral done⟩ c = some ⟨found, .numeral (c :: done)⟩ := by
      simp [step, isNumeralChar, first]
    rw [List.foldlM_cons, next]
    simpa using ih rest (c :: done)

/-- A numeral ends where the object around it does. -/
theorem scans_numeral {cs : List Char} (digits : ∀ c ∈ cs, Numeral.isDigit c = true) {n : Numeral}
    (h : Numeral.ofChars cs = some n) :
    Scans (String.ofList cs ++ "\x7d") [.number n.value, .closeBrace] := by
  intro found
  cases cs with
  | nil => cases h
  | cons c cs =>
    obtain ⟨first, rest⟩ := List.forall_mem_cons.1 digits
    have begun : step ⟨found, .between⟩ c = some ⟨found, .numeral [c]⟩ := start_digit first found
    have gathered := foldlM_digits rest found [c]
    have ended : step ⟨found, .numeral (cs.reverse ++ [c])⟩ '\x7d' =
        some ⟨.closeBrace :: .number n.value :: found, .between⟩ := by
      have settled : settle ⟨found, .numeral (cs.reverse ++ [c])⟩ =
          some (.number n.value :: found) := by
        simp [settle, h]
      change (settle _).bind _ = _
      rw [settled]
      rfl
    rw [String.toList_append, String.toList_ofList, List.foldlM_append, List.foldlM_cons, begun]
    change (cs.foldlM step _ >>= _) = _
    rw [gathered]
    change step _ '\x7d' >>= _ = _
    rw [ended]
    rfl

end Token

/-- The numerals of the depths below the highest expression. -/
theorem numerals_below_highest : ∀ m ∈ List.range HighIR.highest,
    (Nat.toDigits 10 m).all Numeral.isDigit = true ∧
      (Numeral.ofChars (Nat.toDigits 10 m)).map Numeral.value = some (.int m) := by
  decide

/-- Settings with nothing but a depth. -/
def depthText (m : Nat) : String := "\x7b\"max_lowering_depth\":" ++ (m.repr ++ "\x7d")

theorem read_depthText {m : Nat} (h : m < HighIR.highest) :
    Json.read (depthText m) = some (.ofMembers [("max_lowering_depth", .ofNat m)]) := by
  obtain ⟨digits, value⟩ := numerals_below_highest m (List.mem_range.2 h)
  obtain ⟨n, numeral, value⟩ := Option.map_eq_some_iff.1 value
  have before : Token.Scans "\x7b\"max_lowering_depth\":"
      [.openBrace, .string (some "max_lowering_depth"), .colon] := fun _ => rfl
  have scans := before.append (Token.scans_numeral (List.all_eq_true.1 digits) numeral)
  rw [value] at scans
  exact Json.read_of_scans scans fun _ => rfl

theorem Config.ofText_depthText {max : UInt64} (pos : 0 < max.toNat)
    (h : max.toNat < HighIR.highest) :
    Config.ofText (depthText max.toNat) = .ok { maxDepth := max } := by
  have number : Decoder.uint64 126 (.ofNat max.toNat) = some max :=
    Decoder.reads_uint64 127 126 (by decide) max (Nat.zero_le 126) _ (.plain _)
  have decoded : Decoder.ofText Config.decode (depthText max.toNat) = some { maxDepth := max } := by
    rw [Decoder.ofText, read_depthText h, Option.bind_some]
    change (Decoder.uint64 126 (.ofNat max.toNat)).bind _ = _
    rw [number]
    rfl
  have valid : ({ maxDepth := max } : Config).validate = .ok () := by
    change (if max = 0 then Except.error _ else Except.ok ()) = _
    refine if_neg ?_
    rintro rfl
    cases pos
  rw [Config.ofText, decoded]
  dsimp only
  rw [valid]

/-! ### The lowering command -/

namespace Command

variable {files : Files} {o : LowerOptions}

/-- Settings that are not valid are reported as such. -/
theorem validate_error {config : Config} {err : LoweringError}
    (h : config.validate = .error err) : ∃ message, err = .config message := by
  unfold Config.validate at h
  grind

theorem ofText_cases (text : String) :
    (∃ config, Config.ofText text = .ok config ∧ config.validate = .ok ()) ∨
      Config.ofText text = .error .malformed ∨
      ∃ message, Config.ofText text = .error (.rejected (.config message)) := by
  unfold Config.ofText
  cases Decoder.ofText Config.decode text with
  | none => exact .inr (.inl rfl)
  | some c =>
    cases valid : c.validate with
    | ok => exact .inl ⟨c, by simp only [valid], valid⟩
    | error e =>
      obtain ⟨message, rfl⟩ := validate_error valid
      exact .inr (.inr ⟨message, by simp only [valid]⟩)

/-- Settings are loaded valid or not at all, and never fail for the depth of an expression. -/
theorem loadConfig_cases (files : Files) (file : Option String) :
    (∃ config, loadConfig files file = .ok config ∧ config.validate = .ok ()) ∨
      ∃ err, loadConfig files file = .error err ∧
        ∀ context max, err ≠ .failed context (.lowering (.depthExceeded max)) := by
  cases file with
  | none => exact .inl ⟨{}, rfl, rfl⟩
  | some file =>
    cases found : files file with
    | none =>
      refine .inr ⟨.unreadable ("reading config " ++ file), ?_, by simp⟩
      simp only [loadConfig, readFile, found, bind, Except.bind]
    | some text =>
      rcases ofText_cases text with ⟨config, read, valid⟩ | read | ⟨message, read⟩
      · refine .inl ⟨config, ?_, valid⟩
        simp only [loadConfig, readFile, found, bind, Except.bind, read]
      · refine .inr ⟨.malformed ("loading config " ++ file), ?_, by simp⟩
        simp only [loadConfig, readFile, found, bind, Except.bind, read]
      · refine .inr ⟨.failed (some ("loading config " ++ file)) (.lowering (.config message)), ?_,
          by simp⟩
        simp only [loadConfig, readFile, found, bind, Except.bind, read]

/-- The command has an expression and settings to work with. -/
structure Loads (files : Files) (o : LowerOptions) (e : HighIR) (config : Config) : Prop where
  expression : ∃ text, files o.file = some text ∧ HighIR.decode.ofText text = some e
  settings : loadConfig files o.config = .ok config

/-- With an expression and settings, the command comes to what a lowering with them comes to. -/
theorem lower_of_loads {e : HighIR} {config : Config} (h : Loads files o e config) :
    (∀ err, e.fault config 0 = some err → lower files o = .error (.failed none (.lowering err))) ∧
      (e.fault config 0 = none → ∃ output, lower files o = .ok output) := by
  obtain ⟨⟨text, found, decoded⟩, settings⟩ := h
  have valid : config.validate = .ok () := by
    rcases loadConfig_cases files o.config with ⟨config', loaded, valid⟩ | ⟨err, failed, -⟩
    · rw [settings] at loaded
      cases loaded
      exact valid
    · rw [settings] at failed
      cases failed
  have pipeline : (Pipeline.ofConfig config : Except LoweringError (Pipeline Unit Empty)) =
      .ok (Pipeline.unchecked config) := by
    rw [Pipeline.ofConfig, valid]
    rfl
  let p : Pipeline Unit Empty := Pipeline.unchecked config
  have run : p.lower e ⟨p.engine.tally, 0, ()⟩ = settle (e.fault config 0) (e.translate config) _ :=
    Pipeline.lower_eq config e ⟨p.engine.tally, 0, ()⟩
  constructor
  · intro err fault
    rw [fault] at run
    simp only [lower, readFile, found, decodeFile, decoded, settings, pipeline, bind, Except.bind]
    rw [Engine.during_error run]
  · intro sound
    rw [sound] at run
    simp only [lower, readFile, found, decodeFile, decoded, settings, pipeline, bind, Except.bind]
    rw [Engine.during_ok run]
    exact ⟨_, rfl⟩

/-- A depth that is too great is the fault of an expression that was loaded. -/
theorem fault_of_depthExceeded {context : Option String} {max : UInt64}
    (h : lower files o = .error (.failed context (.lowering (.depthExceeded max)))) :
    ∃ e config, Loads files o e config ∧ e.fault config 0 = some (.depthExceeded max) := by
  cases found : files o.file with
  | none => simp [lower, readFile, found, bind, Except.bind] at h
  | some text =>
    cases decoded : HighIR.decode.ofText text with
    | none => simp [lower, readFile, found, decodeFile, decoded, bind, Except.bind] at h
    | some e =>
      rcases loadConfig_cases files o.config with ⟨config, settings, -⟩ | ⟨err, failed, other⟩
      · have loads : Loads files o e config := ⟨⟨text, found, decoded⟩, settings⟩
        refine ⟨e, config, loads, ?_⟩
        obtain ⟨failing, sound⟩ := lower_of_loads loads
        cases fault : e.fault config 0 with
        | none =>
          obtain ⟨output, done⟩ := sound fault
          rw [h] at done
          cases done
        | some err =>
          have failed := failing err fault
          rw [h] at failed
          cases failed
          rfl
      · simp only [lower, readFile, found, decodeFile, decoded, failed, bind, Except.bind] at h
        exact absurd (Except.error.inj h) (other context max)

/-- Files with a tower and settings that allow one level less. -/
def towerFiles (max : UInt64) : Files := fun file =>
  if file = "settings" then some (depthText max.toNat) else some (HighIR.towerText max.toNat)

def towerOptions : LowerOptions := { file := "tower", config := some "settings" }

theorem loads_tower {max : UInt64} (pos : 0 < max.toNat) (low : max.toNat < HighIR.highest) :
    Loads (towerFiles max) towerOptions (HighIR.tower max.toNat) { maxDepth := max } := by
  refine ⟨⟨HighIR.towerText max.toNat, rfl, HighIR.decode_towerText low⟩, ?_⟩
  have read := Config.ofText_depthText pos low
  simp only [loadConfig, readFile, towerFiles, towerOptions, bind, Except.bind, if_true, read]

/-- Where settings allow as many levels as the highest expression has, no lowering goes too deep. -/
theorem lower_ne_depthExceeded
    (h : ∀ config, loadConfig files o.config = .ok config → 64 ≤ config.maxDepth.toNat)
    (context : Option String) (max : UInt64) :
    lower files o ≠ .error (.failed context (.lowering (.depthExceeded max))) := by
  intro failed
  obtain ⟨e, config, loads, fault⟩ := fault_of_depthExceeded failed
  obtain ⟨text, -, decoded⟩ := loads.expression
  have high := HighIR.lt_height_of_fault fault
  have low := HighIR.height_le_highest decoded
  have limit := h config loads.settings
  simp only [HighIR.highest] at low
  omega

/-- A text spells no expression that is higher than 64, and some are as high. So no lowering from a
file goes too deep where the settings allow as much, as they do by default; where they allow less,
one does. -/
theorem lower_depth_bound :
    (∀ text e, HighIR.decode.ofText text = some e → e.height ≤ 64) ∧
    (∃ text e, HighIR.decode.ofText text = some e ∧ e.height = 64) ∧
    (∀ files o, (∀ config, loadConfig files o.config = .ok config → 64 ≤ config.maxDepth.toNat) →
      ∀ context max, lower files o ≠ .error (.failed context (.lowering (.depthExceeded max)))) ∧
    (∀ files o, o.config = none →
      ∀ context max, lower files o ≠ .error (.failed context (.lowering (.depthExceeded max)))) ∧
    ∀ max : UInt64, 1 ≤ max.toNat → max.toNat ≤ 63 →
      ∃ files o e config, Loads files o e config ∧ config.maxDepth = max ∧
        lower files o = .error (.failed none (.lowering (.depthExceeded max))) := by
  refine ⟨fun text e decoded => HighIR.height_le_highest decoded,
    ⟨HighIR.towerText 63, HighIR.tower 63, HighIR.decode_towerText (by decide),
      HighIR.height_tower 63⟩,
    fun files o h => lower_ne_depthExceeded h, fun files o default => ?_, fun max pos low => ?_⟩
  · refine lower_ne_depthExceeded fun config loaded => ?_
    rw [default] at loaded
    cases loaded
    decide
  · have loads := loads_tower pos (Nat.lt_succ_of_le low)
    refine ⟨_, _, _, _, loads, rfl, (lower_of_loads loads).1 _ ?_⟩
    exact HighIR.fault_tower max.toNat 0 (Nat.le_add_left _ _)

end Command

end StagedLowering
