import StagedLowering.Json.Token

/-!
Reading a JSON text: a machine takes the tokens one by one and keeps a stack of the arrays and
objects that are still open, so nesting has no limit here.
-/
namespace StagedLowering.Json

/-- An open array or object, what it has so far last first. -/
inductive Frame where
  | elements (done : List Json)
  | members (done : List (JsonText × Json)) (key : JsonText)

/-- What the machine waits for, inside the open frames. -/
inductive Assembly where
  /-- A value. -/
  | value (stack : List Frame)
  /-- A first element, or the end of the array. -/
  | element (stack : List Frame)
  /-- A first key, or the end of the object. -/
  | firstKey (stack : List Frame)
  /-- A further key. -/
  | key (done : List (JsonText × Json)) (stack : List Frame)
  | colon (done : List (JsonText × Json)) (key : JsonText) (stack : List Frame)
  /-- What follows a complete value. -/
  | after (value : Json) (stack : List Frame)

namespace Assembly

def beginValue (stack : List Frame) : Token → Option Assembly
  | .null => some (.after .null stack)
  | .bool b => some (.after (.bool b) stack)
  | .number n => some (.after (.number n) stack)
  | .string s => some (.after (.string s) stack)
  | .openBracket => some (.element stack)
  | .openBrace => some (.firstKey stack)
  | _ => none

def step : Assembly → Token → Option Assembly
  | .value stack, t => beginValue stack t
  | .element stack, .closeBracket => some (.after (.array []) stack)
  | .element stack, t => beginValue (.elements [] :: stack) t
  | .firstKey stack, .closeBrace => some (.after (.object []) stack)
  | .firstKey stack, .string k => some (.colon [] k stack)
  | .key done stack, .string k => some (.colon done k stack)
  | .colon done k stack, .colon => some (.value (.members done k :: stack))
  | .after v (.elements done :: stack), .comma => some (.value (.elements (v :: done) :: stack))
  | .after v (.elements done :: stack), .closeBracket =>
    some (.after (.array (v :: done).reverse) stack)
  | .after v (.members done k :: stack), .comma => some (.key ((k, v) :: done) stack)
  | .after v (.members done k :: stack), .closeBrace =>
    some (.after (.object ((k, v) :: done).reverse) stack)
  | _, _ => none

end Assembly

/-- The value that tokens spell. -/
def ofTokens (ts : List Token) : Option Json :=
  match ts.foldlM Assembly.step (.value []) with
  | some (.after v []) => some v
  | _ => none

/-- Read a text that holds one value and nothing else. -/
def read (text : String) : Option Json := (Token.scanAll text.toList).bind ofTokens

end StagedLowering.Json
