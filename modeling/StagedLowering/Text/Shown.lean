import StagedLowering.Text.Quoted
import StagedLowering.Text.Unseen

/-!
Strings as listings show them: quoted, with a two-character escape for the backslash, the quote and
the usual invisible characters, and a code point for every other character that cannot be seen.
-/
namespace StagedLowering.Text

def showChar (c : Char) : List Char :=
  if c = '\\' then ['\\', '\\']
  else if c = '"' then ['\\', '"']
  else if c = '\n' then ['\\', 'n']
  else if c = '\r' then ['\\', 'r']
  else if c = '\t' then ['\\', 't']
  else if c.toNat = 0 then ['\\', '0']
  else if isUnseen c then codeEscape c
  else [c]

def shown (s : String) : String :=
  String.ofList ('"' :: s.toList.flatMap showChar ++ ['"'])

/-- A bracketed list of shown strings. -/
def shownList (ss : List String) : String := "[" ++ ", ".intercalate (ss.map shown) ++ "]"

end StagedLowering.Text
