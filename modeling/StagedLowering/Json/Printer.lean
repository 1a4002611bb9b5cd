import StagedLowering.Json.Value
import StagedLowering.Number.Text

/-!
Writing JSON without blanks and in ASCII: any character beyond it is written as one or two UTF-16
escapes.
-/
namespace StagedLowering.Json

def hexDigit (n : Nat) : Char := if n < 10 then Char.ofNat (48 + n) else Char.ofNat (87 + n)

/-- An escape for one UTF-16 unit. -/
def unitEscape (n : Nat) : List Char :=
  ['\\', 'u', hexDigit (n / 0x1000 % 16), hexDigit (n / 0x100 % 16), hexDigit (n / 0x10 % 16),
   hexDigit (n % 16)]

def charText (c : Char) : List Char :=
  if c = '"' then ['\\', '"']
  else if c = '\\' then ['\\', '\\']
  else if 0x20 ≤ c.toNat && c.toNat < 0x7f then [c]
  else if c.toNat < 0x10000 then unitEscape c.toNat
  else
    let n := c.toNat - 0x10000
    unitEscape (0xd800 + n / 0x400) ++ unitEscape (0xdc00 + n % 0x400)

/-- A text; one with an unpaired surrogate is written as just that surrogate. -/
def textText : JsonText → String
  | some s => String.ofList ('"' :: s.toList.flatMap charText ++ ['"'])
  | none => "\"\\ud800\""

def numberText : JsonNumber → String
  | .int i => toString i
  | .float d => if d.finite then d.text else "null"
  | .huge => "1e999"

mutual

def print : Json → String
  | .null => "null"
  | .bool true => "true"
  | .bool false => "false"
  | .number n => numberText n
  | .string s => textText s
  | .array values => "[" ++ ",".intercalate (printAll values) ++ "]"
  | .object members => "\x7b" ++ ",".intercalate (printMembers members) ++ "\x7d"

def printAll : List Json → List String
  | [] => []
  | v :: rest => v.print :: printAll rest

def printMembers : List (JsonText × Json) → List String
  | [] => []
  | (key, v) :: rest => (textText key ++ ":" ++ v.print) :: printMembers rest

end

end StagedLowering.Json
