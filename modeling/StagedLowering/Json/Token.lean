import StagedLowering.Json.Numeral

/-!
The tokens of a JSON text, found by a machine that takes one character at a time.
-/
namespace StagedLowering

inductive Token where
  | openBracket | closeBracket | openBrace | closeBrace | comma | colon
  | null | bool (value : Bool)
  | number (value : JsonNumber)
  | string (value : JsonText)
  deriving DecidableEq, Repr

namespace Token

/-- What the machine is in the middle of. Characters are kept last first; a text is kept as code
points, among which surrogates can only come from escapes. -/
inductive Scan where
  | between
  | word (letters : List Char)
  | numeral (chars : List Char)
  | text (points : List Nat)
  | escape (points : List Nat)
  | hexEscape (points : List Nat) (value left : Nat)

/-- Tokens found so far, last first, and the one that is under way. -/
structure Scanner where
  found : List Token := []
  scan : Scan := .between

def isBlank (c : Char) : Bool := c = ' ' || c = '\t' || c = '\n' || c = '\r'

def isWordChar (c : Char) : Bool := 'a' ≤ c && c ≤ 'z'

def isNumeralChar (c : Char) : Bool :=
  Numeral.isDigit c || c = '-' || c = '+' || c = '.' || c = 'e' || c = 'E'

def startsNumeral (c : Char) : Bool := Numeral.isDigit c || c = '-'

def punctuation? : Char → Option Token
  | '[' => some .openBracket
  | ']' => some .closeBracket
  | '\x7b' => some .openBrace
  | '\x7d' => some .closeBrace
  | ',' => some .comma
  | ':' => some .colon
  | _ => none

def word? (letters : List Char) : Option Token :=
  if letters = ['n', 'u', 'l', 'l'] then some .null
  else if letters = ['t', 'r', 'u', 'e'] then some (.bool true)
  else if letters = ['f', 'a', 'l', 's', 'e'] then some (.bool false)
  else none

def hexDigit? (c : Char) : Option Nat :=
  if Numeral.isDigit c then some (c.toNat - 48)
  else if 'a' ≤ c && c ≤ 'f' then some (c.toNat - 87)
  else if 'A' ≤ c && c ≤ 'F' then some (c.toNat - 55)
  else none

/-- The character after a backslash, `u` apart. -/
def simpleEscape? : Char → Option Nat
  | '"' => some 34
  | '\\' => some 92
  | '/' => some 47
  | 'b' => some 8
  | 'f' => some 12
  | 'n' => some 10
  | 'r' => some 13
  | 't' => some 9
  | _ => none

def isHighSurrogate (n : Nat) : Bool := 0xd800 ≤ n && n < 0xdc00
def isLowSurrogate (n : Nat) : Bool := 0xdc00 ≤ n && n < 0xe000

/-- The characters of a text; a high surrogate must be followed at once by a low one, and a low one
stands nowhere else. -/
def joinPoints : List Nat → Option (List Char)
  | [] => some []
  | [n] => if isHighSurrogate n || isLowSurrogate n then none else some [Char.ofNat n]
  | n :: m :: rest =>
    if isHighSurrogate n then
      if isLowSurrogate m then
        (joinPoints rest).map (Char.ofNat (0x10000 + (n - 0xd800) * 0x400 + (m - 0xdc00)) :: ·)
      else none
    else if isLowSurrogate n then none
    else (joinPoints (m :: rest)).map (Char.ofNat n :: ·)

/-- Begin a token, or pass over a blank. -/
def start (found : List Token) (c : Char) : Option Scanner :=
  if isBlank c then some ⟨found, .between⟩
  else if c = '"' then some ⟨found, .text []⟩
  else if startsNumeral c then some ⟨found, .numeral [c]⟩
  else if isWordChar c then some ⟨found, .word [c]⟩
  else (punctuation? c).map fun t => ⟨t :: found, .between⟩

/-- End a word or a numeral; a text cannot end here. -/
def settle (s : Scanner) : Option (List Token) :=
  match s.scan with
  | .between => some s.found
  | .word letters => (word? letters.reverse).map (· :: s.found)
  | .numeral chars => (Numeral.ofChars chars.reverse).map fun n => .number n.value :: s.found
  | _ => none

def step (s : Scanner) (c : Char) : Option Scanner :=
  match s.scan with
  | .between => start s.found c
  | .word letters =>
    if isWordChar c then some ⟨s.found, .word (c :: letters)⟩
    else (settle s).bind (start · c)
  | .numeral chars =>
    if isNumeralChar c then some ⟨s.found, .numeral (c :: chars)⟩
    else (settle s).bind (start · c)
  | .text points =>
    if c = '"' then
      some ⟨.string ((joinPoints points.reverse).map String.ofList) :: s.found, .between⟩
    else if c = '\\' then some ⟨s.found, .escape points⟩
    else if c.toNat < 0x20 then none
    else some ⟨s.found, .text (c.toNat :: points)⟩
  | .escape points =>
    if c = 'u' then some ⟨s.found, .hexEscape points 0 4⟩
    else (simpleEscape? c).map fun n => ⟨s.found, .text (n :: points)⟩
  | .hexEscape points value left =>
    (hexDigit? c).map fun d =>
      if left ≤ 1 then ⟨s.found, .text ((value * 16 + d) :: points)⟩
      else ⟨s.found, .hexEscape points (value * 16 + d) (left - 1)⟩

/-- The tokens of a text; `none` if some part of it is none. -/
def scanAll (cs : List Char) : Option (List Token) :=
  (cs.foldlM step {}).bind settle |>.map List.reverse

end Token

end StagedLowering
