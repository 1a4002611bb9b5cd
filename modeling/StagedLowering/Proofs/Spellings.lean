import Mathlib.Data.List.Forall2
import StagedLowering.Json.Decode
import StagedLowering.Json.Encode

/-!
The ways in which a value may be written as JSON. A layout says which parts of a value are lists,
records and variants, and so where there is a choice: the fields of a record may come by name, in
any order and among others, or by position, and the name of a variant without content may stand
alone or over a null. A decoder that reads every spelling need not know which was chosen.
-/
namespace StagedLowering

/-- How a value is laid out; `plain` is what can be written in one way only. -/
inductive Layout where
  | plain (value : Json)
  | float (value : Double)
  | list (items : List Layout)
  | bare (name : String)
  | variant (name : String) (content : Layout)
  | record (fields : List (String × Layout))

namespace Layout

def string (s : String) : Layout := .plain (.ofString s)

def int (i : Int) : Layout := .plain (.ofInt i)

def bool (b : Bool) : Layout := .plain (.bool b)

def ofOption {α : Type} (layout : α → Layout) : Option α → Layout
  | none => .plain .null
  | some a => layout a

mutual

/-- The spelling that an encoder chooses: fields by name and in order, names of variants alone. -/
def json : Layout → Json
  | .plain value => value
  | .float value => .ofDouble value
  | .list items => .array (jsonAll items)
  | .bare name => .ofString name
  | .variant name content => .variant name content.json
  | .record fields => .ofMembers (jsonFields fields)

def jsonAll : List Layout → List Json
  | [] => []
  | l :: rest => l.json :: jsonAll rest

def jsonFields : List (String × Layout) → List (String × Json)
  | [] => []
  | (name, l) :: rest => (name, l.json) :: jsonFields rest

end

mutual

/-- How many brackets may be open at a time in a spelling, outside of what is passed over. -/
def depth : Layout → Nat
  | .plain _ => 0
  | .float _ => 0
  | .list items => depthAll items + 1
  | .bare _ => 1
  | .variant _ content => content.depth + 1
  | .record fields => depthFields fields + 1

def depthAll : List Layout → Nat
  | [] => 0
  | l :: rest => max l.depth (depthAll rest)

def depthFields : List (String × Layout) → Nat
  | [] => 0
  | (_, l) :: rest => max l.depth (depthFields rest)

end

mutual

/-- The floats in a layout. -/
def floats : Layout → List Double
  | .plain _ => []
  | .float value => [value]
  | .list items => floatsAll items
  | .bare _ => []
  | .variant _ content => content.floats
  | .record fields => floatsFields fields

def floatsAll : List Layout → List Double
  | [] => []
  | l :: rest => l.floats ++ floatsAll rest

def floatsFields : List (String × Layout) → List Double
  | [] => []
  | (_, l) :: rest => l.floats ++ floatsFields rest

end

/-- No float is an infinity or a NaN, for which there is no number. -/
def Finite (l : Layout) : Prop := ∀ d ∈ l.floats, d.finite = true

/-- The values that spell a layout. The parts of it are spelled independently. -/
inductive Spelled : Layout → Json → Prop
  | plain (value : Json) : Spelled (.plain value) value
  | float {d : Double} (finite : d.finite = true) : Spelled (.float d) (.ofDouble d)
  | list {items : List Layout} {values : List Json} (each : List.Forall₂ Spelled items values) :
      Spelled (.list items) (.array values)
  | alone (name : String) : Spelled (.bare name) (.ofString name)
  | overNull (name : String) : Spelled (.bare name) (.variant name .null)
  | variant {name : String} {content : Layout} {j : Json} (inner : Spelled content j) :
      Spelled (.variant name content) (.variant name j)
  /-- Fields by position. -/
  | array {fields : List (String × Layout)} {values : List Json}
      (each : List.Forall₂ Spelled (fields.map Prod.snd) values) :
      Spelled (.record fields) (.array values)
  /-- Fields by name, in any order and with any `others` among them. -/
  | object {fields : List (String × Layout)} {values : List Json}
      {others members : List (String × Json)}
      (each : List.Forall₂ Spelled (fields.map Prod.snd) values)
      (unknown : ∀ m ∈ others, m.1 ∉ fields.map Prod.fst)
      (order : members.Perm ((fields.map Prod.fst).zip values ++ others)) :
      Spelled (.record fields) (.ofMembers members)

theorem depthAll_le_iff (items : List Layout) (n : Nat) :
    depthAll items ≤ n ↔ ∀ l ∈ items, l.depth ≤ n := by
  induction items with
  | nil => simp [depthAll]
  | cons l rest ih => rw [depthAll, Nat.max_le, ih, List.forall_mem_cons]

theorem depthFields_le_iff (fields : List (String × Layout)) (n : Nat) :
    depthFields fields ≤ n ↔ ∀ f ∈ fields, f.2.depth ≤ n := by
  induction fields with
  | nil => simp [depthFields]
  | cons f rest ih => rw [depthFields, Nat.max_le, ih, List.forall_mem_cons]

theorem jsonFields_eq_zip (fields : List (String × Layout)) :
    jsonFields fields = (fields.map Prod.fst).zip (jsonAll (fields.map Prod.snd)) := by
  induction fields with
  | nil => rfl
  | cons f rest ih => simp [jsonFields, jsonAll, ih]

mutual

/-- What an encoder writes is a spelling. -/
theorem spelled_json : ∀ (l : Layout), l.Finite → l.Spelled l.json
  | .plain value, _ => .plain value
  | .float value, finite => .float (finite value List.mem_cons_self)
  | .list items, finite => .list (spelled_jsonAll items finite)
  | .bare name, _ => .alone name
  | .variant name content, finite => .variant (spelled_json content finite)
  | .record fields, finite => by
    have order : (jsonFields fields).Perm
        ((fields.map Prod.fst).zip (jsonAll (fields.map Prod.snd)) ++ []) := by
      rw [List.append_nil, jsonFields_eq_zip]
    exact .object (spelled_jsonFields fields finite) (by simp) order

theorem spelled_jsonAll : ∀ (items : List Layout), (∀ d ∈ floatsAll items, d.finite = true) →
    List.Forall₂ Spelled items (jsonAll items)
  | [], _ => .nil
  | l :: rest, finite =>
    .cons (spelled_json l fun d hd => finite d (List.mem_append_left _ hd))
      (spelled_jsonAll rest fun d hd => finite d (List.mem_append_right _ hd))

theorem spelled_jsonFields : ∀ (fields : List (String × Layout)),
    (∀ d ∈ floatsFields fields, d.finite = true) →
    List.Forall₂ Spelled (fields.map Prod.snd) (jsonAll (fields.map Prod.snd))
  | [], _ => .nil
  | (_, l) :: rest, finite =>
    .cons (spelled_json l fun d hd => finite d (List.mem_append_left _ hd))
      (spelled_jsonFields rest fun d hd => finite d (List.mem_append_right _ hd))

end

end Layout

/-! ### Decoders that read every spelling -/

/-- Where fewer than `limit` brackets may be opened, `d` reads every spelling of a value that these
suffice for. -/
def Decoder.ReadsBelow {α : Type} (d : Decoder α) (layout : α → Layout) (limit : Nat) : Prop :=
  ∀ room < limit, ∀ a, (layout a).depth ≤ room → ∀ j, (layout a).Spelled j → d room j = some a

/-- `d` reads every spelling, given the room for it. -/
def Decoder.Reads {α : Type} (d : Decoder α) (layout : α → Layout) : Prop :=
  ∀ limit, d.ReadsBelow layout limit

namespace Decoder

variable {α β : Type} {d : Decoder α} {layout : α → Layout} {limit : Nat}

theorem reads_string : string.Reads Layout.string := by
  rintro limit room - s - _ ⟨⟩
  rfl

theorem reads_bool : bool.Reads Layout.bool := by
  rintro limit room - b - _ ⟨⟩
  rfl

theorem reads_double : double.Reads Layout.float := by
  rintro limit room - f - _ ⟨⟩
  rfl

theorem intIn_apply {low high i : Int} (h : low ≤ i ∧ i ≤ high) (room : Nat) :
    intIn low high room (.ofInt i) = some i := by
  simp [intIn, Json.ofInt, h]

theorem reads_int64 : int64.Reads fun i => .int i.toInt := by
  rintro limit room - i - _ ⟨⟩
  rw [int64, intIn_apply ⟨i.minValue_le_toInt, i.toInt_le⟩, Option.map_some, Int64.ofInt_toInt]

theorem reads_uint64 : uint64.Reads fun n => .int n.toNat := by
  rintro limit room - n - _ ⟨⟩
  have bound := n.toNat_lt
  have high : (n.toNat : Int) ≤ Int.ofNat UInt64.size - 1 := by
    simp only [UInt64.size, Int.ofNat_eq_natCast]
    omega
  rw [uint64, intIn_apply ⟨by omega, high⟩]
  simp

theorem reads_uint8 : uint8.Reads fun n => .int n.toNat := by
  rintro limit room - n - _ ⟨⟩
  have bound := n.toNat_lt
  rw [uint8, intIn_apply ⟨by omega, by omega⟩]
  simp

theorem reads_char : char.Reads fun c => .string c.toString := by
  rintro limit room - c - _ ⟨⟩
  simp [char, Json.ofString]

theorem mapM_spelled (h : d.ReadsBelow layout limit) {room : Nat} (below : room < limit)
    {as : List α} (deep : ∀ a ∈ as, (layout a).depth ≤ room) {values : List Json}
    (each : List.Forall₂ Layout.Spelled (as.map layout) values) :
    values.mapM (d room) = some as := by
  induction as generalizing values with
  | nil =>
    cases each
    rfl
  | cons a as ih =>
    obtain ⟨first, rest⟩ := List.forall_mem_cons.1 deep
    cases each with
    | cons spelled others =>
      rw [List.mapM_cons, h room below a first _ spelled, ih rest others]
      rfl

theorem ReadsBelow.list (h : d.ReadsBelow layout limit) :
    (Decoder.list d).ReadsBelow (fun as => .list (as.map layout)) limit := by
  intro room below as deep j spelled
  cases spelled with
  | list each =>
    rw [Layout.depth] at deep
    obtain ⟨room, rfl⟩ : ∃ n, room = n + 1 := ⟨room - 1, by omega⟩
    have items := (Layout.depthAll_le_iff (as.map layout) room).1 (by omega)
    exact mapM_spelled h (by omega) (fun a ha => items _ (List.mem_map_of_mem ha)) each

theorem Reads.list (h : d.Reads layout) :
    (Decoder.list d).Reads fun as => .list (as.map layout) :=
  fun limit => (h limit).list

theorem Reads.pair {e : Decoder β} {layout' : β → Layout} (h : d.Reads layout)
    (h' : e.Reads layout') :
    (Decoder.pair d e).Reads fun p => .list [layout p.1, layout' p.2] := by
  rintro limit room - ⟨a, b⟩ deep j spelled
  cases spelled with
  | list each =>
    simp only [Layout.depth, Layout.depthAll] at deep
    obtain ⟨room, rfl⟩ : ∃ n, room = n + 1 := ⟨room - 1, by omega⟩
    cases each with
    | cons first others =>
      cases others with
      | cons second none =>
        cases none
        have left := h (room + 1) room (by omega) a (by omega) _ first
        have right := h' (room + 1) room (by omega) b (by omega) _ second
        rw [Decoder.pair, left, Option.bind_some, right, Option.map_some]

theorem ReadsBelow.option (h : d.ReadsBelow layout limit)
    (present : ∀ a, ¬ (layout a).Spelled .null) :
    (Decoder.option d).ReadsBelow (Layout.ofOption layout) limit := by
  intro room below o deep j spelled
  cases o with
  | none =>
    cases spelled
    rfl
  | some a =>
    have read := h room below a deep j spelled
    cases j with
    | null => exact absurd spelled (present a)
    | _ => exact congrArg (Option.map some) read

/-- A decoder of data that nests in itself reads every spelling if each layer adds one bracket to
what its inner layers can read. -/
theorem reads_nested {layer : Decoder α → Decoder α}
    (step : ∀ self limit, ReadsBelow self layout limit →
      (layer self).ReadsBelow layout (limit + 1)) : (nested layer).Reads layout := by
  -- with as many layers as brackets, the innermost layer, which reads nothing, is never reached
  have tied (layers : Nat) : (nested.tie layer layers).ReadsBelow layout layers := by
    induction layers with
    | zero => exact fun room below => absurd below (Nat.not_lt_zero room)
    | succ layers ih => exact step _ layers ih
  exact fun limit room _ => tied (room + 1) room (Nat.lt_succ_self room)

end Decoder

namespace JsonRecord

variable {α : Type}

/-- The record has a field that spells the layout, and room for what is in it. -/
structure Holds (r : JsonRecord) (name : String) (l : Layout) : Prop where
  room : l.depth ≤ r.room
  field : ∃ j, r.field? name = some j ∧ l.Spelled j

theorem known_ofMembers (names : List String) (members : List (String × Json)) :
    known names (members.map fun m => (some m.1, m.2)) =
      let fields := members.filter fun m => names.contains m.1
      if (fields.map Prod.fst).Nodup then some fields else none := by
  have named : ((members.map fun m => ((some m.1 : JsonText), m.2)).mapM
      fun (m : JsonText × Json) => m.1.map fun key => (key, m.2)) = some members := by
    induction members with
    | nil => rfl
    | cons m members ih => rw [List.map_cons, List.mapM_cons, ih]; rfl
  rw [known, named]
  rfl

/-- Of the members of an object, those with known names are the fields. -/
theorem filter_perm {names : List String} {told others members : List (String × Json)}
    (keys : told.map Prod.fst = names) (unknown : ∀ m ∈ others, m.1 ∉ names)
    (order : members.Perm (told ++ others)) :
    (members.filter fun m => names.contains m.1).Perm told := by
  have fields : told.filter (fun m => names.contains m.1) = told := by
    refine List.filter_eq_self.2 fun m hm => ?_
    have named : m.1 ∈ told.map Prod.fst := List.mem_map_of_mem hm
    simpa [keys] using named
  have none : others.filter (fun m => names.contains m.1) = [] :=
    List.filter_eq_nil_iff.2 fun m hm => by simpa using unknown m hm
  have filtered := order.filter fun m => names.contains m.1
  rwa [List.filter_append, fields, none, List.append_nil] at filtered

/-- Each field has its value under its name. -/
theorem exists_mem_zip {fields : List (String × Layout)} {values : List Json}
    (each : List.Forall₂ Layout.Spelled (fields.map Prod.snd) values)
    {f : String × Layout} (hf : f ∈ fields) :
    ∃ j, (f.1, j) ∈ (fields.map Prod.fst).zip values ∧ f.2.Spelled j := by
  induction fields generalizing values with
  | nil => cases hf
  | cons g fields ih =>
    cases each with
    | @cons _ j _ _ first others =>
      rcases List.mem_cons.1 hf with rfl | later
      · exact ⟨j, List.mem_cons_self, first⟩
      · obtain ⟨j', mem, spelled⟩ := ih others later
        exact ⟨j', List.mem_cons_of_mem _ mem, spelled⟩

/-- Whichever way a record is written, it is read with all its fields. -/
theorem exists_of_spelled (names : List String) (nodup : names.Nodup)
    {fields : List (String × Layout)} (hnames : fields.map Prod.fst = names) {j : Json}
    (h : (Layout.record fields).Spelled j) {room : Nat}
    (deep : (Layout.record fields).depth ≤ room) :
    ∃ r, ofJson names room j = some r ∧ r.room < room ∧ ∀ f ∈ fields, r.Holds f.1 f.2 := by
  rw [Layout.depth] at deep
  obtain ⟨room, rfl⟩ : ∃ n, room = n + 1 := ⟨room - 1, by omega⟩
  have deep := (Layout.depthFields_le_iff fields room).1 (by omega)
  have keys {values : List Json}
      (each : List.Forall₂ Layout.Spelled (fields.map Prod.snd) values) :
      ((fields.map Prod.fst).zip values).map Prod.fst = names := by
    rw [List.map_fst_zip (by simpa using Nat.le_of_eq each.length_eq), hnames]
  cases h with
  | @array _ values each =>
    have short : values.length ≤ names.length := by
      simpa [← hnames] using Nat.le_of_eq each.length_eq.symm
    refine ⟨⟨room, true, names.zip values⟩, by rw [ofJson, if_pos short], Nat.lt_succ_self room,
      fun f hf => ⟨deep f hf, ?_⟩⟩
    obtain ⟨j, mem, spelled⟩ := exists_mem_zip each hf
    rw [hnames] at mem
    exact ⟨j, OrderedMap.lookup_of_mem (by rwa [← hnames, keys each]) mem, spelled⟩
  | @object _ values others members each unknown order =>
    rw [hnames] at unknown
    have told := filter_perm (keys each) unknown order
    have once : ((members.filter fun m => names.contains m.1).map Prod.fst).Nodup := by
      rwa [(told.map Prod.fst).nodup_iff, keys each]
    refine ⟨⟨room, false, members.filter fun m => names.contains m.1⟩, ?_, Nat.lt_succ_self room,
      fun f hf => ⟨deep f hf, ?_⟩⟩
    · rw [Json.ofMembers, ofJson, known_ofMembers, if_pos once]
      rfl
    · obtain ⟨j, mem, spelled⟩ := exists_mem_zip each hf
      exact ⟨j, OrderedMap.lookup_of_mem once (told.mem_iff.2 mem), spelled⟩

end JsonRecord

namespace Decoder.ReadsBelow

variable {α : Type} {d : Decoder α} {layout : α → Layout} {limit : Nat} {r : JsonRecord}
  {name : String} {a : α}

theorem required (reads : d.ReadsBelow layout limit) (h : r.Holds name (layout a))
    (below : r.room < limit) : r.required name d = some a := by
  obtain ⟨deep, j, found, spelled⟩ := h
  rw [JsonRecord.required, found]
  exact reads r.room below a deep j spelled

theorem withDefault (reads : d.ReadsBelow layout limit) (h : r.Holds name (layout a))
    (below : r.room < limit) (default : α) : r.withDefault name d default = some a := by
  obtain ⟨deep, j, found, spelled⟩ := h
  rw [JsonRecord.withDefault, found]
  exact reads r.room below a deep j spelled

theorem optional (reads : d.ReadsBelow layout limit) (present : ∀ a, ¬ (layout a).Spelled .null)
    {o : Option α} (h : r.Holds name (.ofOption layout o)) (below : r.room < limit) :
    r.optional name d = some o := by
  obtain ⟨deep, j, found, spelled⟩ := h
  rw [JsonRecord.optional, found]
  exact reads.option present r.room below o deep j spelled

end Decoder.ReadsBelow

namespace JsonVariant

variable {name : String} {j : Json} {room : Nat}

/-- What a decoder of variants makes of a name without content, alone or over a null. -/
theorem bind_bare (h : (Layout.bare name).Spelled j) (deep : (Layout.bare name).depth ≤ room)
    {β : Type} {b : β} {body : JsonVariant → Option β}
    (made : ∀ content, body ⟨name, content⟩ = bare ⟨name, content⟩ b) :
    (ofJson room j).bind body = some b := by
  rw [Layout.depth] at deep
  obtain ⟨room, rfl⟩ : ∃ n, room = n + 1 := ⟨room - 1, by omega⟩
  cases h with
  | alone => exact made none
  | overNull => exact made (some (room, .null))

theorem bind_single {α : Type} {d : Decoder α} {layout : α → Layout} (reads : d.Reads layout)
    {a : α} (h : (Layout.variant name (layout a)).Spelled j)
    (deep : (Layout.variant name (layout a)).depth ≤ room) {β : Type} {f : α → β}
    {body : JsonVariant → Option β}
    (made : ∀ content, body ⟨name, content⟩ = (single ⟨name, content⟩ d).map f) :
    (ofJson room j).bind body = some (f a) := by
  rw [Layout.depth] at deep
  obtain ⟨room, rfl⟩ : ∃ n, room = n + 1 := ⟨room - 1, by omega⟩
  cases h with
  | @variant _ _ inner spelled =>
    have read := reads (room + 1) room (by omega) a (by omega) inner spelled
    exact (made _).trans (congrArg (Option.map f) read)

/-- A variant with fields is handed on as a record that holds them all. -/
theorem exists_of_record (names : List String) (nodup : names.Nodup)
    {fields : List (String × Layout)} (hnames : fields.map Prod.fst = names)
    (h : (Layout.variant name (.record fields)).Spelled j)
    (deep : (Layout.variant name (.record fields)).depth ≤ room) :
    ∃ r : JsonRecord,
      (∀ {β : Type} {body : JsonVariant → Option β} {build : JsonRecord → Option β},
        (∀ content, body ⟨name, content⟩ = record ⟨name, content⟩ names build) →
        (ofJson room j).bind body = build r) ∧
      r.room < room ∧ ∀ f ∈ fields, r.Holds f.1 f.2 := by
  rw [Layout.depth] at deep
  obtain ⟨room, rfl⟩ : ∃ n, room = n + 1 := ⟨room - 1, by omega⟩
  cases h with
  | @variant _ _ inner spelled =>
    obtain ⟨r, told, less, holds⟩ :=
      JsonRecord.exists_of_spelled names nodup hnames spelled (Nat.le_of_succ_le_succ deep)
    refine ⟨r, fun {β body build} made => ?_, Nat.lt_succ_of_lt less, holds⟩
    refine (made (some (room, inner))).trans ?_
    change (JsonRecord.ofJson names room inner).bind build = _
    rw [told, Option.bind_some]

end JsonVariant

end StagedLowering
