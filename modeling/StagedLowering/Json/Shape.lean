import StagedLowering.Data.OrderedMap
import StagedLowering.Json.Reader

/-!
Decoding JSON values. A decoder is told how many more brackets it may open around what it decodes;
values it passes over are not counted. The three shapes of composite data are lists, records and
variants. A record is an object, where order does not matter and unknown members are passed over, or
an array of its fields in order. A variant is its bare name, or an object whose only key is its
name.
-/
namespace StagedLowering

/-- Decode a value inside which `room` more brackets may be open at a time. -/
abbrev Decoder (α : Type) := Nat → Json → Option α

namespace Decoder

variable {α β : Type}

/-- How many brackets may be open at a time in a text. -/
def textRoom : Nat := 127

/-- Read and decode a whole text. -/
def ofText (d : Decoder α) (text : String) : Option α := (Json.read text).bind (d textRoom)

def string : Decoder String
  | _, .string s => s
  | _, _ => none

def bool : Decoder Bool
  | _, .bool b => some b
  | _, _ => none

/-- An integer from `low` to `high`. -/
def intIn (low high : Int) : Decoder Int
  | _, .number (.int i) => if low ≤ i && i ≤ high then some i else none
  | _, _ => none

def int64 : Decoder Int64 := fun room j =>
  (intIn Int64.minValue.toInt Int64.maxValue.toInt room j).map Int64.ofInt
def uint64 : Decoder UInt64 := fun room j =>
  (intIn 0 (Int.ofNat UInt64.size - 1) room j).map (UInt64.ofNat ·.toNat)
def uint8 : Decoder UInt8 := fun room j => (intIn 0 255 room j).map (UInt8.ofNat ·.toNat)

/-- A float, which may be written as an integer. -/
def double : Decoder Double
  | _, .number (.int i) => some (.ofInt i)
  | _, .number (.float d) => some d
  | _, _ => none

/-- A text of one character. -/
def char : Decoder Char
  | _, .string (some s) =>
    match s.toList with
    | [c] => some c
    | _ => none
  | _, _ => none

def option (d : Decoder α) : Decoder (Option α)
  | _, .null => some none
  | room, j => (d room j).map some

def list (d : Decoder α) : Decoder (List α)
  | room + 1, .array values => values.mapM (d room)
  | _, _ => none

def pair (a : Decoder α) (b : Decoder β) : Decoder (α × β)
  | room + 1, .array [x, y] => (a room x).bind fun x => (b room y).map fun y => (x, y)
  | _, _ => none

/-- An object as a map; the last value of a key counts, at the place of the first. -/
def map (d : Decoder α) : Decoder (OrderedMap String α)
  | room + 1, .object members =>
    (members.mapM fun (m : JsonText × Json) =>
      m.1.bind fun key => (d room m.2).map fun a => (key, a)).map .ofList
  | _, _ => none

/-- The decoder that `layer` makes of itself, for data that nests in itself. Every layer but the
innermost opens a bracket, so `room` bounds the layers. -/
def nested (layer : Decoder α → Decoder α) : Decoder α := fun room =>
  tie layer (room + 1) room
where
  tie (layer : Decoder α → Decoder α) : Nat → Decoder α
    | 0 => fun _ _ => none
    | layers + 1 => layer (tie layer layers)

end Decoder

/-- The fields of a record by name, the room inside it, and whether they were told by position. -/
structure JsonRecord where
  room : Nat
  positional : Bool
  fields : List (String × Json)

namespace JsonRecord

variable {α : Type}

/-- The members with known names; none of these may be repeated, and every key must be a text. -/
def known (names : List String) (members : List (JsonText × Json)) :
    Option (List (String × Json)) :=
  (members.mapM fun (m : JsonText × Json) => m.1.map fun key => (key, m.2)).bind fun named =>
    let fields := named.filter fun m => names.contains m.1
    if (fields.map Prod.fst).Nodup then some fields else none

/-- The record with these fields that a value spells. -/
def ofJson (names : List String) : Decoder JsonRecord
  | room + 1, .object members => (known names members).map fun fields => ⟨room, false, fields⟩
  | room + 1, .array values =>
    if values.length ≤ names.length then some ⟨room, true, names.zip values⟩ else none
  | _, _ => none

def field? (r : JsonRecord) (name : String) : Option Json := r.fields.lookup name

/-- A field that has to be there. -/
def required (r : JsonRecord) (name : String) (d : Decoder α) : Option α :=
  (r.field? name).bind (d r.room)

/-- A field that is taken as `default` when it is not there. -/
def withDefault (r : JsonRecord) (name : String) (d : Decoder α) (default : α) : Option α :=
  match r.field? name with
  | none => some default
  | some j => d r.room j

/-- A field that may be null, and may be left out of an object but not of an array. -/
def optional (r : JsonRecord) (name : String) (d : Decoder α) : Option (Option α) :=
  match r.field? name with
  | none => if r.positional then none else some none
  | some j => d.option r.room j

end JsonRecord

/-- The name of a variant and its content, with the room inside it. -/
structure JsonVariant where
  name : String
  content : Option (Nat × Json)

namespace JsonVariant

variable {α : Type}

def ofJson : Decoder JsonVariant
  | _, .string (some name) => some ⟨name, none⟩
  | room + 1, .object [(some name, j)] => some ⟨name, some (room, j)⟩
  | _, _ => none

/-- A variant without content; a null is no content. -/
def bare (v : JsonVariant) (a : α) : Option α :=
  match v.content with
  | none => some a
  | some (_, .null) => some a
  | some _ => none

/-- A variant around one value. -/
def single (v : JsonVariant) (d : Decoder α) : Option α :=
  v.content.bind fun c => d c.1 c.2

/-- A variant with named fields. -/
def record (v : JsonVariant) (names : List String) (build : JsonRecord → Option α) : Option α :=
  v.content.bind fun c => (JsonRecord.ofJson names c.1 c.2).bind build

end JsonVariant

end StagedLowering
