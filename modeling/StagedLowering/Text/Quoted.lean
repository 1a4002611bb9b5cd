/-!
String literals of the target language. Between double quotes a backslash, a quote and the three
usual line characters have a two-character escape, any other control character is written by its
code point, and everything else stands for itself.
-/
namespace StagedLowering.Text

/-- Control characters are U+0000 to U+001F and U+007F to U+009F. -/
def isControl (c : Char) : Bool := c.toNat < 0x20 || (0x7f ≤ c.toNat && c.toNat < 0xa0)

/-- Lower-case hexadecimal digits without leading zeros. -/
def hex (n : Nat) : List Char := Nat.toDigits 16 n

/-- A character by its code point in braces. -/
def codeEscape (c : Char) : List Char := '\\' :: 'u' :: '\x7b' :: hex c.toNat ++ ['\x7d']

def escapeChar (c : Char) : List Char :=
  if c = '\\' then ['\\', '\\']
  else if c = '"' then ['\\', '"']
  else if c = '\n' then ['\\', 'n']
  else if c = '\r' then ['\\', 'r']
  else if c = '\t' then ['\\', 't']
  else if isControl c then codeEscape c
  else [c]

/-- `s` as a target string literal. -/
def quoted (s : String) : String :=
  String.ofList ('"' :: s.toList.flatMap escapeChar ++ ['"'])

end StagedLowering.Text
