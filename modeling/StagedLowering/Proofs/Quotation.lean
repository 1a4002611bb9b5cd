import StagedLowering.Text.Quoted

/-!
Reading string literals back. The reader wants an opening quote and then goes on to the first quote
that is not escaped; every quoted text is read back as what was quoted, whatever comes after it. So
no literal begins another one. Control characters do not get into a literal.
-/
namespace StagedLowering.Text

def hexValue? (c : Char) : Option Nat :=
  if '0' ≤ c ∧ c ≤ '9' then some (c.toNat - 48)
  else if 'a' ≤ c ∧ c ≤ 'f' then some (c.toNat - 87)
  else if 'A' ≤ c ∧ c ≤ 'F' then some (c.toNat - 55)
  else none

/-- The character that a two-character escape stands for. -/
def escaped? (c : Char) : Option Char :=
  if c = '\\' ∨ c = '"' then some c
  else if c = 'n' then some '\n'
  else if c = 'r' then some '\r'
  else if c = 't' then some '\t'
  else none

/-- Put a character before the content that was read. -/
def prepend (c : Char) (read : List Char × List Char) : List Char × List Char :=
  (c :: read.1, read.2)

mutual

/-- The content of a literal after its opening quote, and what follows the closing one. -/
def unescape : List Char → Option (List Char × List Char)
  | [] => none
  | c :: rest =>
    if c = '"' then some ([], rest)
    else if c = '\\' then
      match rest with
      | [] => none
      | d :: rest =>
        if d = 'u' then
          match rest with
          | [] => none
          | b :: rest => if b = '\x7b' then codePoint none rest else none
        else (escaped? d).bind fun x => (unescape rest).map (prepend x)
    else (unescape rest).map (prepend c)

/-- The same within the braces of a code point, of which the digits so far give `seen`. -/
def codePoint (seen : Option Nat) : List Char → Option (List Char × List Char)
  | [] => none
  | c :: rest =>
    if c = '\x7d' then
      seen.bind fun n =>
        if n.isValidChar then (unescape rest).map (prepend (Char.ofNat n)) else none
    else (hexValue? c).bind fun d => codePoint (some (16 * seen.getD 0 + d)) rest

end

/-- A quoted text at the front, and what follows it. -/
def unquote : List Char → Option (String × List Char)
  | [] => none
  | c :: rest => if c = '"' then (unescape rest).map fun r => (String.ofList r.1, r.2) else none

theorem unescape_quote (rest : List Char) : unescape ('"' :: rest) = some ([], rest) := by
  rw [unescape.eq_def]
  rfl

theorem unescape_plain {c : Char} (quote : c ≠ '"') (backslash : c ≠ '\\') (rest : List Char) :
    unescape (c :: rest) = (unescape rest).map (prepend c) := by
  rw [unescape.eq_def]
  simp only [if_neg quote, if_neg backslash]

theorem hexValue?_digitChar : ∀ d < 16, hexValue? (Nat.digitChar d) = some d := by decide

theorem digitChar_ne_brace : ∀ d < 16, Nat.digitChar d ≠ '\x7d' := by decide

theorem codePoint_digit (seen : Option Nat) (d : Nat) (hd : d < 16) (rest : List Char) :
    codePoint seen (Nat.digitChar d :: rest) = codePoint (some (16 * seen.getD 0 + d)) rest := by
  rw [codePoint, if_neg (digitChar_ne_brace d hd), hexValue?_digitChar d hd]
  rfl

/-- The digits of a number are read as that number. -/
theorem codePoint_hex (n : Nat) (rest : List Char) :
    codePoint none (hex n ++ rest) = codePoint (some n) rest := by
  induction n using Nat.strongRecOn generalizing rest with
  | ind n ih =>
    unfold hex at ih ⊢
    by_cases small : n < 16
    · rw [Nat.toDigits_of_lt_base small, List.singleton_append, codePoint_digit _ n small]
      simp
    · have more : n / 16 < n := by omega
      have last : n % 16 < 16 := by omega
      rw [Nat.toDigits_of_base_le (by decide) (by omega), List.append_assoc, ih _ more,
        List.singleton_append, codePoint_digit _ _ last]
      congr 2
      simp only [Option.getD_some]
      omega

theorem unescape_codeEscape (c : Char) (rest : List Char) :
    unescape (codeEscape c ++ rest) = (unescape rest).map (prepend c) := by
  have digits : unescape (codeEscape c ++ rest) =
      codePoint none (hex c.toNat ++ '\x7d' :: rest) := by
    simp [codeEscape, unescape]
  have valid : c.toNat.isValidChar := c.valid
  rw [digits, codePoint_hex, codePoint, if_pos rfl, Option.bind_some, if_pos valid,
    Char.ofNat_toNat]

/-- One character is read back from its escape. -/
theorem unescape_escapeChar (c : Char) (rest : List Char) :
    unescape (escapeChar c ++ rest) = (unescape rest).map (prepend c) := by
  by_cases backslash : c = '\\'
  · subst c; simp [escapeChar, unescape, escaped?]
  by_cases quote : c = '"'
  · subst c; simp [escapeChar, unescape, escaped?]
  by_cases newline : c = '\n'
  · subst c; simp [escapeChar, unescape, escaped?]
  by_cases carriage : c = '\r'
  · subst c; simp [escapeChar, unescape, escaped?]
  by_cases tab : c = '\t'
  · subst c; simp [escapeChar, unescape, escaped?]
  by_cases control : isControl c = true
  · simp [escapeChar, backslash, quote, newline, carriage, tab, control, unescape_codeEscape]
  · simp [escapeChar, backslash, quote, newline, carriage, tab, control,
      unescape_plain quote backslash]

theorem unescape_flatMap (s rest : List Char) :
    unescape (s.flatMap escapeChar ++ '"' :: rest) = some (s, rest) := by
  induction s with
  | nil => exact unescape_quote rest
  | cons c s ih => rw [List.flatMap_cons, List.append_assoc, unescape_escapeChar, ih]; rfl

/-- A quoted text is read back, and the reader stops right behind it. -/
theorem unquote_quoted (s : String) (rest : List Char) :
    unquote ((quoted s).toList ++ rest) = some (s, rest) := by
  have body : unquote ((quoted s).toList ++ rest) =
      (unescape (s.toList.flatMap escapeChar ++ '"' :: rest)).map
        fun r => (String.ofList r.1, r.2) := by
    simp [quoted, unquote]
  rw [body, unescape_flatMap]
  simp

/-- A literal that begins another one is the same. -/
theorem eq_of_quoted_begins {s t : String} (h : (quoted s).toList <+: (quoted t).toList) :
    s = t := by
  obtain ⟨rest, hrest⟩ := h
  have short := unquote_quoted s rest
  have long := unquote_quoted t []
  rw [List.append_nil] at long
  rw [hrest, long] at short
  exact (Prod.mk.inj (Option.some.inj short)).1.symm

theorem isControl_digitChar : ∀ d < 16, isControl (Nat.digitChar d) = false := by decide

theorem isControl_hex (n : Nat) : ∀ c ∈ hex n, isControl c = false := by
  induction n using Nat.strongRecOn with
  | ind n ih =>
    unfold hex at ih ⊢
    intro c hc
    by_cases small : n < 16
    · rw [Nat.toDigits_of_lt_base small, List.mem_singleton] at hc
      rw [hc]
      exact isControl_digitChar n small
    · rw [Nat.toDigits_of_base_le (by decide) (by omega), List.mem_append, List.mem_singleton] at hc
      rcases hc with higher | rfl
      · exact ih (n / 16) (by omega) c higher
      · exact isControl_digitChar (n % 16) (by omega)

theorem isControl_codeEscape (c : Char) : ∀ d ∈ codeEscape c, isControl d = false := by
  intro d hd
  simp only [codeEscape, List.cons_append, List.mem_cons, List.mem_append, List.not_mem_nil,
    or_false] at hd
  rcases hd with rfl | rfl | rfl | digit | rfl
  · rfl
  · rfl
  · rfl
  · exact isControl_hex c.toNat d digit
  · rfl

theorem isControl_pair {d : Char} (h : isControl d = false) :
    ∀ x ∈ ['\\', d], isControl x = false := by
  simp only [List.forall_mem_cons]
  exact ⟨rfl, h, by simp⟩

/-- An escape holds no control character, even if it stands for one. -/
theorem isControl_escapeChar (c : Char) : ∀ d ∈ escapeChar c, isControl d = false := by
  unfold escapeChar
  split
  · exact isControl_pair rfl
  split
  · exact isControl_pair rfl
  split
  · exact isControl_pair rfl
  split
  · exact isControl_pair rfl
  split
  · exact isControl_pair rfl
  split
  · exact isControl_codeEscape c
  next control =>
    rw [List.forall_mem_singleton]
    exact Bool.eq_false_iff.2 control

theorem isControl_quoted (s : String) : ∀ c ∈ (quoted s).toList, isControl c = false := by
  intro c hc
  simp only [quoted, String.toList_ofList, List.cons_append, List.mem_cons, List.mem_append,
    List.mem_flatMap, List.not_mem_nil, or_false] at hc
  rcases hc with rfl | ⟨d, -, hd⟩ | rfl
  · rfl
  · exact isControl_escapeChar d c hd
  · rfl

/-- Literals delimit themselves: the reader gets the text back and stops right behind the literal,
whatever follows. So different texts have different literals, of which none begins another. There
is no control character in them. -/
theorem quoted_delimits_itself :
    (∀ s rest, unquote ((quoted s).toList ++ rest) = some (s, rest)) ∧
    (∀ s t, quoted s = quoted t → s = t) ∧
    (∀ s t, (quoted s).toList <+: (quoted t).toList → quoted s = quoted t) ∧
    ∀ s, ∀ c ∈ (quoted s).toList, isControl c = false := by
  refine ⟨unquote_quoted, fun s t same => ?_, fun s t begins => ?_, isControl_quoted⟩
  · exact eq_of_quoted_begins ⟨[], by rw [same, List.append_nil]⟩
  · rw [eq_of_quoted_begins begins]

end StagedLowering.Text
