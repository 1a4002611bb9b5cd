import StagedLowering.Proofs.Grouping
import StagedLowering.Proofs.Quotation

/-!
Reading target text back. Every operand of a printed expression ends where a blank, a comma, a
closing bracket or the text ends, and an operator stands between two blanks, so a reader that goes
from left to right finds each boundary again: it recovers the tree up to the grouping of operators.
-/
namespace StagedLowering

/-- What names are made of, and what they begin with. -/
def isNameChar (c : Char) : Bool := c.isAlphanum || c == '_' || c == '.'
def isNameStart (c : Char) : Bool := c.isAlpha || c == '_'

/-- What numbers are made of, and what they begin with. -/
def isNumberChar (c : Char) : Bool := c.isDigit || c == '.' || c == 'e' || c == '-'
def isNumberStart (c : Char) : Bool := c.isDigit || c == '-'

/-- A text that can be read as an identifier. -/
structure IsName (text : String) : Prop where
  chars : ∀ c ∈ text.toList, isNameChar c = true
  start : ∃ c rest, text.toList = c :: rest ∧ isNameStart c = true
  notWord : text ≠ "true" ∧ text ≠ "false" ∧ text ≠ "nil"

/-- A text that can be read as a number. -/
structure IsNumber (text : String) : Prop where
  chars : ∀ c ∈ text.toList, isNumberChar c = true
  start : ∃ c rest, text.toList = c :: rest ∧ isNumberStart c = true

namespace Target

/-- Trees of the shape that lowering emits: operators with one blank on each side and none inside,
calls of named functions, and names and numbers that look like it. -/
inductive Emitted : Target → Prop where
  | identifier {name : String} : IsName name → Emitted (.identifier name)
  | number {text : String} : IsNumber text → Emitted (.number text)
  | string (value : String) : Emitted (.string value)
  | boolean (value : Bool) : Emitted (.boolean value)
  | nil : Emitted .nil
  | binary {left right : Target} {op : String} :
    Emitted left → ' ' ∉ op.toList → Emitted right → Emitted (.binary left op right .single)
  | call {callee : String} {args : List Target} :
    IsName callee → (∀ a ∈ args, Emitted a) → Emitted (.call (.identifier callee) args)

/-- Arguments may be regrouped one after the other. -/
theorem regrouped_rightAll (f : Target) (before args : List Target)
    (h : ∀ a ∈ args, Regrouped a a.chain.target) :
    Regrouped (.call f (before ++ args)) (.call f (before ++ rightAll args)) := by
  induction args generalizing before with
  | nil => exact .refl _
  | cons a args ih =>
    have first := Regrouped.arg f before args (h a List.mem_cons_self)
    have rest := ih (before ++ [a.chain.target]) fun b hb => h b (List.mem_cons_of_mem a hb)
    rw [List.append_assoc, List.append_assoc] at rest
    exact first.trans rest

/-- A tree is regrouped into the tree of its chain. -/
theorem Emitted.regrouped_chain {t : Target} (h : Emitted t) : Regrouped t t.chain.target := by
  induction h with
  | identifier _ | number _ | string _ | boolean _ | nil => exact .refl _
  | binary _ _ _ ihl ihr =>
    exact (Regrouped.binary _ _ ihl ihr).trans (Chain.regrouped_join _ _ _)
  | call _ _ ih => exact regrouped_rightAll _ [] _ ih

/-- The expression that a word stands for. -/
def ofWord (word : String) : Target :=
  if word = "true" then .boolean true
  else if word = "false" then .boolean false
  else if word = "nil" then .nil
  else .identifier word

mutual

/-- Read a chain of operators and operands; the number bounds how far the reader goes. -/
def readChain : Nat → List Char → Option (Chain × List Char)
  | 0, _ => none
  | n + 1, text => do
    let (head, text) ← readOperand n text
    let (tail, text) ← readTail n text
    pure (⟨head, tail⟩, text)

/-- Read what follows an operand of a chain: nothing, or a blank, an operator, a blank and another
chain. -/
def readTail : Nat → List Char → Option (List (String × Target) × List Char)
  | 0, _ => none
  | n + 1, text =>
    if text.head? = some ' ' then do
      let op := text.tail.takeWhile (· != ' ')
      let (next, text) ← readChain n (text.tail.dropWhile (· != ' ')).tail
      pure ((String.ofList op, next.head) :: next.tail, text)
    else pure ([], text)

/-- Read an operand: a literal, a word, or a word and its arguments in brackets. -/
def readOperand : Nat → List Char → Option (Target × List Char)
  | 0, _ => none
  | _ + 1, [] => none
  | n + 1, c :: text =>
    if c = '"' then (Text.unquote (c :: text)).map fun r => (.string r.1, r.2)
    else if isNumberStart c then
      pure (.number (String.ofList ((c :: text).takeWhile isNumberChar)),
        (c :: text).dropWhile isNumberChar)
    else if isNameStart c then
      let word := String.ofList ((c :: text).takeWhile isNameChar)
      let text := (c :: text).dropWhile isNameChar
      if text.head? = some '(' then do
        let (args, text) ← readArgs n text.tail
        pure (.call (.identifier word) args, text)
      else pure (ofWord word, text)
    else none

/-- Read arguments up to the closing bracket, each in the grouping to the right. -/
def readArgs : Nat → List Char → Option (List Target × List Char)
  | 0, _ => none
  | n + 1, text =>
    if text.head? = some ')' then pure ([], text.tail)
    else do
      let (arg, text) ← readChain n text
      if text.head? = some ',' then
        let (args, text) ← readArgs n (text.drop 2)
        pure (arg.target :: args, text)
      else if text.head? = some ')' then pure ([arg.target], text.tail)
      else none

end

/-- A place where an operand ends: the end of the text, or before a blank, a comma or a closing
bracket. -/
def Boundary (rest : List Char) : Prop := ∀ c, rest.head? = some c → c = ' ' ∨ c = ',' ∨ c = ')'

theorem boundary_cons {c : Char} {rest : List Char} (h : c = ' ' ∨ c = ',' ∨ c = ')') :
    Boundary (c :: rest) := by
  intro d hd
  cases hd
  exact h

theorem takeWhile_word {p : Char → Bool} {word : List Char} (hword : ∀ c ∈ word, p c = true)
    (rest : List Char) (hrest : ∀ c, rest.head? = some c → p c = false) :
    (word ++ rest).takeWhile p = word ∧ (word ++ rest).dropWhile p = rest := by
  rw [List.takeWhile_append_of_pos hword, List.dropWhile_append_of_pos hword]
  cases rest with
  | nil => simp
  | cons c rest => simp [hrest c rfl]

theorem Boundary.not_nameChar {rest : List Char} (h : Boundary rest) :
    ∀ c, rest.head? = some c → isNameChar c = false := by
  intro c hc
  rcases h c hc with rfl | rfl | rfl <;> decide

theorem Boundary.not_numberChar {rest : List Char} (h : Boundary rest) :
    ∀ c, rest.head? = some c → isNumberChar c = false := by
  intro c hc
  rcases h c hc with rfl | rfl | rfl <;> decide

theorem not_quote_of_nameStart {c : Char} (h : isNameStart c = true) : c ≠ '"' := by
  rintro rfl
  revert h
  decide

theorem not_quote_of_numberStart {c : Char} (h : isNumberStart c = true) : c ≠ '"' := by
  rintro rfl
  revert h
  decide

theorem not_isDigit_of_isAlpha {c : Char} (h : c.isAlpha = true) : c.isDigit = false := by
  have letter : (decide ('A'.val ≤ c.val ∧ c.val ≤ 'Z'.val) ||
      (decide ('a'.val ≤ c.val) && decide (c.val ≤ 'z'.val))) = true := h
  simp only [Bool.or_eq_true, Bool.and_eq_true, decide_eq_true_eq, UInt32.le_iff_toNat_le]
    at letter
  have afterDigits : '9'.toNat < 'A'.val.toNat ∧ '9'.toNat < 'a'.val.toNat := by decide
  rw [Bool.eq_false_iff, ne_eq, Char.isDigit_iff_toNat]
  rintro ⟨-, digit⟩
  have low : c.val.toNat ≤ '9'.toNat := digit
  omega

theorem not_numberStart_of_nameStart {c : Char} (h : isNameStart c = true) :
    isNumberStart c = false := by
  rcases Bool.or_eq_true_iff.1 h with letter | underscore
  · have notMinus : c ≠ '-' := by
      rintro rfl
      revert letter
      decide
    simp [isNumberStart, not_isDigit_of_isAlpha letter, notMinus]
  · obtain rfl := beq_iff_eq.1 underscore
    decide

/-- A word is read up to the end of it. -/
theorem readOperand_word {word : String} (chars : ∀ c ∈ word.toList, isNameChar c = true)
    (start : ∃ c rest, word.toList = c :: rest ∧ isNameStart c = true) (n : Nat)
    {rest : List Char} (hrest : ∀ c, rest.head? = some c → isNameChar c = false) :
    readOperand (n + 1) (word.toList ++ rest) =
      if rest.head? = some '(' then
        (readArgs n rest.tail).map fun r => (.call (.identifier word) r.1, r.2)
      else some (ofWord word, rest) := by
  obtain ⟨c, text, htext, hc⟩ := start
  obtain ⟨take, drop⟩ := takeWhile_word chars rest hrest
  have full : word.toList ++ rest = c :: (text ++ rest) := by rw [htext, List.cons_append]
  rw [full] at take drop ⊢
  rw [readOperand, if_neg (not_quote_of_nameStart hc), not_numberStart_of_nameStart hc, hc, take,
    drop, String.ofList_toList]
  simp only [Bool.false_eq_true, if_false, if_true]
  split
  next => cases readArgs n rest.tail <;> rfl
  next => rfl

theorem readOperand_number {text : String} (h : IsNumber text) (n : Nat) {rest : List Char}
    (hrest : Boundary rest) :
    readOperand (n + 1) (text.toList ++ rest) = some (.number text, rest) := by
  obtain ⟨c, tail, htext, hc⟩ := h.start
  obtain ⟨take, drop⟩ := takeWhile_word h.chars rest hrest.not_numberChar
  have full : text.toList ++ rest = c :: (tail ++ rest) := by rw [htext, List.cons_append]
  rw [full] at take drop ⊢
  rw [readOperand, if_neg (not_quote_of_numberStart hc), hc, take, drop, String.ofList_toList]
  rfl

theorem readOperand_string (value : String) (n : Nat) (rest : List Char) :
    readOperand (n + 1) ((Text.quoted value).toList ++ rest) = some (.string value, rest) := by
  have unquoted := Text.unquote_quoted value rest
  have full : (Text.quoted value).toList ++ rest =
      '"' :: (value.toList.flatMap Text.escapeChar ++ ['"'] ++ rest) := by
    simp [Text.quoted]
  rw [full] at unquoted ⊢
  rw [readOperand, if_pos rfl, unquoted]
  rfl

/-- A reader gives a result, as soon as its bound is great enough. -/
def Settles {α : Type} (read : Nat → Option α) (a : α) : Prop := ∃ N, ∀ n, N ≤ n → read n = some a

theorem Settles.unique {α : Type} {read : Nat → Option α} {a b : α} (ha : Settles read a)
    (hb : Settles read b) : a = b := by
  obtain ⟨N, hN⟩ := ha
  obtain ⟨M, hM⟩ := hb
  have both := (hN (max N M) (Nat.le_max_left N M)).symm.trans (hM _ (Nat.le_max_right N M))
  exact Option.some.inj both

theorem Settles.succ {α : Type} {read : Nat → Option α} {a : α} (N : Nat)
    (h : ∀ n, N ≤ n → read (n + 1) = some a) : Settles read a := by
  refine ⟨N + 1, fun n hn => ?_⟩
  obtain ⟨m, rfl⟩ : ∃ m, n = m + 1 := ⟨n - 1, by omega⟩
  exact h m (by omega)

/-- Where no blank follows, a chain is at its end. -/
theorem readTail_end {rest : List Char} (h : rest.head? ≠ some ' ') :
    Settles (readTail · rest) ([], rest) := by
  refine .succ 0 fun n _ => ?_
  rw [readTail, if_neg h]
  rfl

/-- Between two blanks stands an operator. -/
theorem readTail_operator {op : String} (hop : ' ' ∉ op.toList) {text rest : List Char} {c : Chain}
    (h : Settles (readChain · text) (c, rest)) :
    Settles (readTail · (' ' :: (op.toList ++ ' ' :: text))) ((op, c.head) :: c.tail, rest) := by
  obtain ⟨N, hN⟩ := h
  have chars : ∀ d ∈ op.toList, (d != ' ') = true := by
    intro d hd
    simp only [bne_iff_ne]
    rintro rfl
    exact hop hd
  obtain ⟨take, drop⟩ := takeWhile_word chars (' ' :: text) (by simp)
  refine .succ N fun n hn => ?_
  have next : readChain n text = some (c, rest) := hN n hn
  rw [readTail, List.head?_cons, if_pos rfl, List.tail_cons, take, drop, List.tail_cons, next]
  simp

/-- Whatever follows the text of `t`, the operand is the head of its chain, and the rest of the
chain goes on with what is read there. -/
def ReadsBack (t : Target) : Prop :=
  ∀ rest tail rest', Boundary rest → Settles (readTail · rest) (tail, rest') →
    Settles (readChain · (t.print.toList ++ rest)) (⟨t.chain.head, t.chain.tail ++ tail⟩, rest')

theorem readsBack_operand {t head : Target} (hchain : t.chain = ⟨head, []⟩)
    (h : ∀ rest, Boundary rest → Settles (readOperand · (t.print.toList ++ rest)) (head, rest)) :
    ReadsBack t := by
  intro rest tail rest' hrest htail
  obtain ⟨N, hN⟩ := h rest hrest
  obtain ⟨M, hM⟩ := htail
  refine .succ (max N M) fun n hn => ?_
  have first : readOperand n (t.print.toList ++ rest) = some (head, rest) := hN n (by omega)
  have others : readTail n rest = some (tail, rest') := hM n (by omega)
  simp [readChain, first, others, hchain]

theorem print_binary_append (l r : Target) (op : String) (rest : List Char) :
    (Target.binary l op r .single).print.toList ++ rest =
      l.print.toList ++ ' ' :: (op.toList ++ ' ' :: (r.print.toList ++ rest)) := by
  simp [print_binary]

theorem print_call_append (callee : String) (args : List Target) (rest : List Char) :
    (Target.call (.identifier callee) args).print.toList ++ rest =
      callee.toList ++
        '(' :: ((", ".intercalate (args.map print)).toList ++ ')' :: rest) := by
  rw [print_call, print]
  simp

theorem readsBack_binary {left right : Target} {op : String} (hop : ' ' ∉ op.toList)
    (hl : ReadsBack left) (hr : ReadsBack right) : ReadsBack (.binary left op right .single) := by
  intro rest tail rest' hrest htail
  have following := readTail_operator hop (hr rest tail rest' hrest htail)
  have all := hl _ _ _ (boundary_cons (.inl rfl)) following
  rw [print_binary_append]
  simpa [chain, Chain.join] using all

theorem head_ne_of_start {p : Char → Bool} {text : List Char} {d : Char}
    (start : ∃ c rest, text = c :: rest ∧ p c = true) (hd : p d = false) (rest : List Char) :
    (text ++ rest).head? ≠ some d := by
  obtain ⟨c, tail, rfl, hc⟩ := start
  rintro ⟨⟩
  rw [hc] at hd
  cases hd

/-- No operand begins with the bracket that ends arguments. -/
theorem Emitted.head_ne {t : Target} (h : Emitted t) (rest : List Char) :
    (t.print.toList ++ rest).head? ≠ some ')' := by
  induction h generalizing rest with
  | identifier h => exact head_ne_of_start h.start (by decide) rest
  | number h => exact head_ne_of_start h.start (by decide) rest
  | string value => simp [print, Text.quoted]
  | boolean value => cases value <;> simp [print]
  | nil => simp [print]
  | binary _ _ _ ihl _ =>
    rw [print_binary_append]
    exact ihl _
  | call h _ _ =>
    rw [print_call_append]
    exact head_ne_of_start h.start (by decide) _

/-- An argument is read as the tree of its chain, up to a comma or the closing bracket. -/
theorem ReadsBack.argument {a : Target} (h : ReadsBack a) {c : Char} (hc : c = ',' ∨ c = ')')
    (rest : List Char) :
    Settles (readChain · (a.print.toList ++ c :: rest)) (a.chain, c :: rest) := by
  have ended : Settles (readTail · (c :: rest)) ([], c :: rest) := by
    refine readTail_end ?_
    rcases hc with rfl | rfl <;> simp
  have read := h _ _ _ (boundary_cons (.inr hc)) ended
  rwa [List.append_nil] at read

theorem readArgs_last {n : Nat} {text rest : List Char} {c : Chain} (head : text.head? ≠ some ')')
    (h : readChain n text = some (c, ')' :: rest)) :
    readArgs (n + 1) text = some ([c.target], rest) := by
  rw [readArgs, if_neg head, h]
  simp

theorem readArgs_next {n : Nat} {text more : List Char} {c : Chain} (head : text.head? ≠ some ')')
    (h : readChain n text = some (c, ',' :: ' ' :: more)) :
    readArgs (n + 1) text = (readArgs n more).map fun r => (c.target :: r.1, r.2) := by
  rw [readArgs, if_neg head, h]
  cases hmore : readArgs n more <;> simp [hmore]

/-- Arguments are read back in order, up to the closing bracket. -/
theorem readArgs_printed {args : List Target} (hargs : ∀ a ∈ args, Emitted a)
    (back : ∀ a ∈ args, ReadsBack a) (rest : List Char) :
    Settles (readArgs · ((", ".intercalate (args.map print)).toList ++ ')' :: rest))
      (rightAll args, rest) := by
  induction args with
  | nil =>
    refine .succ 0 fun n _ => ?_
    simp [readArgs, rightAll]
  | cons a args ih =>
    have head := (hargs a List.mem_cons_self).head_ne
    have backFirst := back a List.mem_cons_self
    -- the last argument is followed by the bracket, any other by a comma and a blank
    cases args with
    | nil =>
      have text : ", ".intercalate ([a].map print) = a.print := by simp
      obtain ⟨N, hN⟩ := backFirst.argument (.inr rfl) rest
      rw [text]
      exact .succ N fun n hn => readArgs_last (head _) (hN n hn)
    | cons b args =>
      have text : (", ".intercalate ((a :: b :: args).map print)).toList ++ ')' :: rest =
          a.print.toList ++
            ',' :: ' ' :: ((", ".intercalate ((b :: args).map print)).toList ++ ')' :: rest) := by
        simp [String.intercalate_cons_cons]
      obtain ⟨N, hN⟩ := backFirst.argument (.inl rfl)
        (' ' :: ((", ".intercalate ((b :: args).map print)).toList ++ ')' :: rest))
      obtain ⟨M, hM⟩ := ih (fun c hc => hargs c (List.mem_cons_of_mem a hc))
        fun c hc => back c (List.mem_cons_of_mem a hc)
      rw [text]
      refine .succ (max N M) fun n hn => ?_
      have others : readArgs n _ = some (rightAll (b :: args), rest) := hM n (by omega)
      rw [readArgs_next (head _) (hN n (by omega)), others]
      rfl

theorem readsBack_word {t : Target} {word : String} (hprint : t.print = word)
    (hchain : t.chain = ⟨ofWord word, []⟩) (chars : ∀ c ∈ word.toList, isNameChar c = true)
    (start : ∃ c rest, word.toList = c :: rest ∧ isNameStart c = true) : ReadsBack t := by
  refine readsBack_operand hchain fun rest hrest => .succ 0 fun n _ => ?_
  have noArgs : rest.head? ≠ some '(' := by
    intro h
    have := hrest '(' h
    revert this
    decide
  rw [hprint, readOperand_word chars start n hrest.not_nameChar, if_neg noArgs]

theorem readsBack_call {callee : String} {args : List Target} (h : IsName callee)
    (hargs : ∀ a ∈ args, Emitted a) (back : ∀ a ∈ args, ReadsBack a) :
    ReadsBack (.call (.identifier callee) args) := by
  refine readsBack_operand rfl fun rest _ => ?_
  obtain ⟨N, hN⟩ := readArgs_printed hargs back rest
  refine .succ N fun n hn => ?_
  have inside : readArgs n _ = some (rightAll args, rest) := hN n hn
  rw [print_call_append, readOperand_word h.chars h.start n (by simp; decide), List.head?_cons,
    if_pos rfl, List.tail_cons, inside]
  rfl

/-- Every emitted tree is read back, up to the grouping of its operators. -/
theorem Emitted.readsBack {t : Target} (h : Emitted t) : ReadsBack t := by
  induction h with
  | @identifier name h =>
    obtain ⟨notTrue, notFalse, notNil⟩ := h.notWord
    have word : ofWord name = .identifier name := by simp [ofWord, notTrue, notFalse, notNil]
    have alone : (Target.identifier name).chain = ⟨ofWord name, []⟩ := by rw [word]; rfl
    exact readsBack_word rfl alone h.chars h.start
  | number h =>
    exact readsBack_operand rfl fun _ hrest => .succ 0 fun n _ => readOperand_number h n hrest
  | string value =>
    exact readsBack_operand rfl fun rest _ => .succ 0 fun n _ => readOperand_string value n rest
  | boolean value =>
    cases value with
    | true => exact readsBack_word rfl rfl (List.all_eq_true.1 rfl) ⟨_, _, rfl, by decide⟩
    | false => exact readsBack_word rfl rfl (List.all_eq_true.1 rfl) ⟨_, _, rfl, by decide⟩
  | nil => exact readsBack_word rfl rfl (List.all_eq_true.1 rfl) ⟨_, _, rfl, by decide⟩
  | binary _ hop _ ihl ihr => exact readsBack_binary hop ihl ihr
  | call h hargs ih => exact readsBack_call h hargs ih

/-- The whole text of an emitted tree gives its chain. -/
theorem Emitted.readChain_print {t : Target} (h : Emitted t) :
    Settles (readChain · t.print.toList) (t.chain, []) := by
  have ended : Settles (readTail · []) ([], []) := readTail_end (by simp)
  have read := h.readsBack [] [] [] (by simp [Boundary]) ended
  rwa [List.append_nil, List.append_nil] at read

/-- Regrouped trees print the same text, and two emitted trees that print the same text are
regrouped: nothing but the grouping of operators is lost. -/
theorem print_eq_iff_regrouped (t u : Target) :
    (Regrouped t u → t.print = u.print) ∧
      (Emitted t → Emitted u → t.print = u.print → Regrouped t u) := by
  refine ⟨Regrouped.print_eq, fun ht hu same => ?_⟩
  -- one text is read in one way, so the chains agree, and each tree is regrouped into its own
  have read := ht.readChain_print
  rw [same] at read
  have chains : t.chain = u.chain := (Prod.mk.inj (read.unique hu.readChain_print)).1
  have back := hu.regrouped_chain.symm
  rw [← chains] at back
  exact ht.regrouped_chain.trans back

/-- An operand that is a call of one text with quotes, a comma and a closing bracket in it: the two
groupings around it are regrouped, and it is not taken for the call of two texts. -/
theorem print_eq_iff_regrouped_call :
    let inner := Target.call (.identifier "f") [.string "a\", \"b)"]
    let split := Target.call (.identifier "f") [.string "a", .string "b)"]
    let left := Target.binary (.binary (.identifier "x") "-" inner .single) "," .nil .single
    let right := Target.binary (.identifier "x") "-" (.binary inner "," .nil .single) .single
    Emitted left ∧ Emitted right ∧ left.print = right.print ∧ Regrouped left right ∧
      Emitted inner ∧ Emitted split ∧ ¬ Regrouped inner split := by
  intro inner split left right
  have fn : IsName "f" := ⟨List.all_eq_true.1 rfl, ⟨'f', [], rfl, by decide⟩, by decide⟩
  have var : IsName "x" := ⟨List.all_eq_true.1 rfl, ⟨'x', [], rfl, by decide⟩, by decide⟩
  have hinner : Emitted inner := .call fn (List.forall_mem_singleton.2 (.string _))
  have hsplit : Emitted split :=
    .call fn (List.forall_mem_cons.2 ⟨.string _, List.forall_mem_singleton.2 (.string _)⟩)
  have hleft : Emitted left :=
    .binary (.binary (.identifier var) (by decide) hinner) (by decide) .nil
  have hright : Emitted right :=
    .binary (.identifier var) (by decide) (.binary hinner (by decide) .nil)
  have same : left.print = right.print := by decide
  refine ⟨hleft, hright, same, (print_eq_iff_regrouped left right).2 hleft hright same, hinner,
    hsplit, fun related => ?_⟩
  have texts : inner.print ≠ split.print := by decide
  exact texts ((print_eq_iff_regrouped inner split).1 related)

end Target

end StagedLowering
