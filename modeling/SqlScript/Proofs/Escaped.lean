import SqlScript.Proofs.Tokens

/-!
Strings that are written with their quotes doubled, and with their backslashes doubled where a
backslash takes the next character with it. Whatever the text is and whatever stands behind it, the
lexer finds the quote that was put at its end.
-/

namespace SqlScript

def Dialect.quotesStrings (d : Dialect) (quote : Char) : Bool :=
  quote == '\'' || (quote == '"' && d.doubleQuotedStrings)

namespace Text

def isSpecial (quote : Char) (escapes : Bool) (c : Char) : Bool :=
  c == quote || (escapes && c == '\\')

def escaped (quote : Char) (escapes : Bool) (cs : List Char) : List Char :=
  cs.flatMap fun c => if isSpecial quote escapes c then [c, c] else [c]

def literal (d : Dialect) (quote : Char) (text : String) : String :=
  String.ofList (quote :: (escaped quote d.backslashEscapes text.toList ++ [quote]))

variable {quote c : Char} {escapes : Bool} {cs : List Char}

@[simp]
theorem escaped_nil : escaped quote escapes [] = [] :=
  rfl

theorem escaped_cons_of_isSpecial (h : isSpecial quote escapes c) :
    escaped quote escapes (c :: cs) = c :: c :: escaped quote escapes cs := by
  simp [escaped, h]

theorem escaped_cons_of_not_isSpecial (h : isSpecial quote escapes c = false) :
    escaped quote escapes (c :: cs) = c :: escaped quote escapes cs := by
  simp [escaped, h]

end Text

open Text (isSpecial escaped literal)

variable {d : Dialect} {quote c : Char} {escapes : Bool} {cs rest : List Char}

theorem Dialect.quotesStrings_cases (h : d.quotesStrings quote) :
    quote = '\'' ∨ quote = '"' ∧ d.doubleQuotedStrings := by
  simpa [quotesStrings] using h

namespace Token

theorem closingQuote?_twice (h : isSpecial quote escapes c) (n : Nat) (cs : List Char) :
    closingQuote? quote escapes n (c :: c :: cs) = closingQuote? quote escapes (n + 2) cs := by
  rw [closingQuote?.eq_def]
  dsimp only
  by_cases hescape : (escapes && c == '\\') = true
  · rw [if_pos hescape]
  · have hquote : (c == quote) = true := by simpa [isSpecial, hescape] using h
    rw [if_neg hescape, if_pos hquote, if_pos hquote]

theorem closingQuote?_once (h : isSpecial quote escapes c = false) (n : Nat) (cs : List Char) :
    closingQuote? quote escapes n (c :: cs) = closingQuote? quote escapes (n + 1) cs := by
  obtain ⟨hquote, hescape⟩ := Bool.or_eq_false_iff.1 h
  rw [closingQuote?.eq_def]
  simp [hquote, hescape]

theorem closingQuote?_of_closes (hquote : escapes → quote ≠ '\\') (h : rest.head? ≠ some quote)
    (n : Nat) : closingQuote? quote escapes n (quote :: rest) = some (n + 1) := by
  have hescape : (escapes && quote == '\\') = false := by simpa using hquote
  rw [closingQuote?.eq_def]
  cases rest with
  | nil => simp [hescape]
  | cons next rest =>
    have hnext : next ≠ quote := fun heq => h (congrArg some heq)
    simp [hescape, hnext]

theorem closingQuote?_escaped (hquote : escapes → quote ≠ '\\') (hrest : rest.head? ≠ some quote)
    (cs : List Char) (n : Nat) :
    closingQuote? quote escapes n (escaped quote escapes cs ++ quote :: rest) =
      some (n + (escaped quote escapes cs).length + 1) := by
  induction cs generalizing n with
  | nil => exact closingQuote?_of_closes hquote hrest n
  | cons c cs ih =>
    cases h : isSpecial quote escapes c with
    | true =>
      rw [Text.escaped_cons_of_isSpecial h, List.cons_append, List.cons_append,
        closingQuote?_twice h, ih]
      simp only [List.length_cons]
      congr 1
      omega
    | false =>
      rw [Text.escaped_cons_of_not_isSpecial h, List.cons_append, closingQuote?_once h, ih]
      simp only [List.length_cons]
      congr 1
      omega

theorem lexeme_of_quotesStrings (h : d.quotesStrings quote) (glued : Bool) (cs : List Char) :
    lexeme d glued quote cs = quotedLiteral .string quote d.backslashEscapes 0 cs := by
  obtain rfl | ⟨rfl, hstrings⟩ := Dialect.quotesStrings_cases h
  · simp [lexeme, delimiter?]
  · simp [lexeme, delimiter?, hstrings]

theorem gapLength_of_quotesStrings (h : d.quotesStrings quote) (cs : List Char) :
    gapLength d (quote :: cs) = 0 := by
  apply gapLength_none
  obtain rfl | ⟨rfl, -⟩ := Dialect.quotesStrings_cases h
  · rfl
  · rfl

theorem lexeme_literal (hquote : d.quotesStrings quote) (hrest : rest.head? ≠ some quote)
    (glued : Bool) (cs : List Char) :
    lexeme d glued quote (escaped quote d.backslashEscapes cs ++ quote :: rest) =
      ⟨.string, (escaped quote d.backslashEscapes cs).length + 1⟩ := by
  have hne : quote ≠ '\\' := by
    obtain rfl | ⟨rfl, -⟩ := Dialect.quotesStrings_cases hquote <;> decide
  rw [lexeme_of_quotesStrings hquote]
  unfold quotedLiteral
  rw [List.drop_zero, closingQuote?_escaped (fun _ => hne) hrest, Nat.zero_add]

/--
The string that stands for a text is one token, and the lexer goes on with what stands behind it,
unless that starts with one more quote.
-/
theorem tokenize_literal (text behind : String) (hquote : d.quotesStrings quote)
    (hbehind : behind.toList.head? ≠ some quote) :
    tokenize d (literal d quote text ++ behind) =
      ⟨.string, 0, (literal d quote text).utf8ByteSize⟩ ::
        (scan d (literal d quote text).utf8ByteSize (some quote) behind.toList ++
          [eof (literal d quote text ++ behind).utf8ByteSize]) := by
  generalize hinner : escaped quote d.backslashEscapes text.toList = inner
  have hsize : (literal d quote text).utf8ByteSize = byteLength (quote :: (inner ++ [quote])) := by
    rw [literal, hinner, byteLength_eq]
  have htext : (literal d quote text ++ behind).toList =
      quote :: (inner ++ quote :: behind.toList) := by
    rw [String.toList_append, literal, hinner, String.toList_ofList]
    simp
  have hgap := gapLength_of_quotesStrings hquote (inner ++ quote :: behind.toList)
  have htake : (quote :: (inner ++ quote :: behind.toList)).take
      (gapLength d (quote :: (inner ++ quote :: behind.toList))) = [] := by
    rw [hgap, List.take_zero]
  have hdrop : (quote :: (inner ++ quote :: behind.toList)).drop
      (gapLength d (quote :: (inner ++ quote :: behind.toList))) =
        quote :: (inner ++ quote :: behind.toList) := by
    rw [hgap, List.drop_zero]
  have hlexeme := lexeme_literal hquote hbehind
    ((([] : List Char).getLast?.or none).any endsName) text.toList
  rw [hinner] at hlexeme
  have hsplit : inner ++ quote :: behind.toList = (inner ++ [quote]) ++ behind.toList := by simp
  have hfront : (inner ++ quote :: behind.toList).take (inner.length + 1) = inner ++ [quote] := by
    rw [hsplit]
    exact List.take_left' (by simp)
  have hback : (inner ++ quote :: behind.toList).drop (inner.length + 1) = behind.toList := by
    rw [hsplit]
    exact List.drop_left' (by simp)
  unfold tokenize
  rw [htext, scan_cons htake hdrop hlexeme, hsize]
  dsimp only
  rw [hfront, hback, byteLength_nil, Nat.zero_add, Nat.zero_add, List.getLast?_concat,
    List.cons_append]
  rfl

/-- A backslash and a quote at the end of the text, and a backslash behind the string. -/
theorem tokenize_literal_backslash :
    Dialect.mySql.quotesStrings '\'' ∧ "\\' OR 1".toList.head? ≠ some '\'' ∧
      tokenize .mySql (literal .mySql '\'' "it''s\\'" ++ "\\' OR 1") =
        ⟨.string, 0, (literal .mySql '\'' "it''s\\'").utf8ByteSize⟩ ::
          (scan .mySql (literal .mySql '\'' "it''s\\'").utf8ByteSize (some '\'') "\\' OR 1".toList ++
            [eof (literal .mySql '\'' "it''s\\'" ++ "\\' OR 1").utf8ByteSize]) :=
  ⟨by decide, by decide, tokenize_literal "it''s\\'" "\\' OR 1" (by decide) (by decide)⟩

end Token

end SqlScript
