import SqlScript.Proofs.Escaped
import SqlScript.Proofs.Tiling
import SqlScript.Statement.Name

/-!
Names in quotes. The lexer undoes the quotes of a name while it looks for their end, the reader of
names undoes them in the token as it is written; both find the same name.
-/

namespace SqlScript

def Dialect.quotesNames (d : Dialect) (quote : Char) : Bool :=
  (quote == '"' && !d.doubleQuotedStrings) || (quote == '\x60' && d.identifierQuote == '\x60')

def Text.doubled (quote : Char) (cs : List Char) : List Char :=
  cs.flatMap fun c => if c = quote then [quote, quote] else [c]

def Text.inQuotes (quote : Char) (name : String) : String :=
  String.ofList (quote :: (doubled quote name.toList ++ [quote]))

variable {d : Dialect} {quote c : Char} {cs rest : List Char} {name : String}

namespace Text

@[simp]
theorem doubled_nil : doubled quote [] = [] :=
  rfl

@[simp]
theorem doubled_cons_self : doubled quote (quote :: cs) = quote :: quote :: doubled quote cs := by
  simp [doubled]

@[simp]
theorem doubled_cons_of_ne (h : c ≠ quote) : doubled quote (c :: cs) = c :: doubled quote cs := by
  simp [doubled, h]

theorem doubled_eq_escaped (quote : Char) (cs : List Char) :
    doubled quote cs = escaped quote false cs := by
  induction cs with
  | nil => rfl
  | cons c cs ih =>
    by_cases h : c = quote
    · subst h
      rw [doubled_cons_self, escaped_cons_of_isSpecial (by simp [isSpecial]), ih]
    · rw [doubled_cons_of_ne h, escaped_cons_of_not_isSpecial (by simp [isSpecial, h]), ih]

end Text

open Text (doubled inQuotes)

theorem Dialect.quotesNames_cases (h : d.quotesNames quote) :
    quote = '"' ∧ d.doubleQuotedStrings = false ∨ quote = '\x60' ∧ d.identifierQuote = '\x60' := by
  simpa [quotesNames] using h

namespace Token

@[simp]
theorem undouble_cons_self :
    undouble quote (quote :: quote :: cs) = quote :: undouble quote cs := by
  simp [undouble]

@[simp]
theorem undouble_cons_of_ne (h : c ≠ quote) :
    undouble quote (c :: cs) = c :: undouble quote cs := by
  cases cs <;> simp [undouble, h]

theorem undouble_doubled (quote : Char) (cs : List Char) :
    undouble quote (doubled quote cs) = cs := by
  induction cs with
  | nil => rfl
  | cons c cs ih =>
    by_cases h : c = quote
    · subst h
      rw [Text.doubled_cons_self, undouble_cons_self, ih]
    · rw [Text.doubled_cons_of_ne h, undouble_cons_of_ne h, ih]

theorem closingQuote?_doubled (hrest : rest.head? ≠ some quote) (cs : List Char) (n : Nat) :
    closingQuote? quote false n (doubled quote cs ++ quote :: rest) =
      some (n + (doubled quote cs).length + 1) := by
  rw [Text.doubled_eq_escaped]
  exact closingQuote?_escaped (by simp) hrest cs n

theorem exists_doubled {n m : Nat} (h : closingQuote? quote false n cs = some m) :
    ∃ inner rest, cs = doubled quote inner ++ quote :: rest ∧ rest.head? ≠ some quote := by
  fun_induction closingQuote? quote false n cs with
  | case1 => contradiction
  | case2 => contradiction
  | case3 _ _ hc => simp at hc
  | case4 n c _ hc =>
    cases eq_of_beq hc
    exact ⟨[], [], rfl, by simp⟩
  | case5 n c _ hc next after hnext ih =>
    cases eq_of_beq hc
    cases eq_of_beq hnext
    obtain ⟨inner, rest, rfl, hrest⟩ := ih h
    exact ⟨quote :: inner, rest, by simp, hrest⟩
  | case6 n c _ hc next after hnext =>
    cases eq_of_beq hc
    exact ⟨[], next :: after, rfl, fun heq => hnext (beq_iff_eq.2 (Option.some.inj heq))⟩
  | case7 n c after _ hc ih =>
    obtain ⟨inner, rest, rfl, hrest⟩ := ih h
    have hne : c ≠ quote := fun heq => hc (beq_iff_eq.2 heq)
    exact ⟨c :: inner, rest, by simp [hne], hrest⟩

theorem quotedName_doubled (hrest : rest.head? ≠ some quote) (hcs : cs ≠ []) :
    quotedName quote (doubled quote cs ++ quote :: rest) =
      ⟨.quotedIdentifier (String.ofList cs), (doubled quote cs).length + 1⟩ := by
  have htake : (doubled quote cs ++ quote :: rest).take ((doubled quote cs).length + 1 - 1) =
      doubled quote cs :=
    List.take_left' rfl
  unfold quotedName
  rw [closingQuote?_doubled hrest, Nat.zero_add]
  dsimp only
  rw [htake, undouble_doubled]
  cases cs with
  | nil => contradiction
  | cons c cs => rfl

theorem quotedName_empty (hrest : rest.head? ≠ some quote) :
    quotedName quote (quote :: rest) = ⟨.invalid "Empty quoted identifier", 1⟩ := by
  unfold quotedName
  rw [closingQuote?_of_closes (by simp) hrest]
  rfl

theorem inQuotes_of_quotedName (h : (quotedName quote cs).kind = .quotedIdentifier name) :
    name ≠ "" ∧
      String.ofList (quote :: cs.take (quotedName quote cs).more) = inQuotes quote name := by
  cases hclosing : closingQuote? quote false 0 cs with
  | none => simp [quotedName, hclosing] at h
  | some n =>
    obtain ⟨inner, rest, rfl, hrest⟩ := exists_doubled hclosing
    have hinner : inner ≠ [] := by
      rintro rfl
      rw [Text.doubled_nil, List.nil_append, quotedName_empty hrest] at h
      cases h
    have htake : (doubled quote inner ++ quote :: rest).take ((doubled quote inner).length + 1) =
        doubled quote inner ++ [quote] := by
      rw [List.append_cons]
      exact List.take_left' (by simp)
    rw [quotedName_doubled hrest hinner] at h ⊢
    cases h
    constructor
    · simpa using hinner
    · rw [htake, inQuotes, String.toList_ofList]

theorem lexeme_of_quotesNames (h : d.quotesNames quote) (glued : Bool) (cs : List Char) :
    lexeme d glued quote cs = quotedName quote cs := by
  obtain ⟨rfl, hstrings⟩ | ⟨rfl, hnames⟩ := Dialect.quotesNames_cases h
  · simp [lexeme, delimiter?, hstrings]
  · simp [lexeme, delimiter?, hnames]

theorem quotesNames_of_lexeme {glued : Bool}
    (h : (lexeme d glued c cs).kind = .quotedIdentifier name) : d.quotesNames c := by
  have hspelled := lexeme_spelledBy (d := d) glued c cs
  rw [h] at hspelled
  simp only [TokenKind.spelledBy, TokenKind.isEnclosed, String.toList_ofList, Bool.and_eq_true,
    Bool.or_eq_true, beq_iff_eq] at hspelled
  obtain rfl | rfl := hspelled.1.1
  · cases hstrings : d.doubleQuotedStrings with
    | false => simp [Dialect.quotesNames, hstrings]
    | true =>
      have hordinary : (quotedLiteral .string '"' d.backslashEscapes 0 cs).kind.isOrdinary :=
        quotedLiteral_isOrdinary rfl _ _ _ _
      simp [lexeme, delimiter?, hstrings] at h
      rw [h] at hordinary
      contradiction
  · by_cases hnames : d.identifierQuote = '\x60'
    · simp [Dialect.quotesNames, hnames]
    · -- the character is one of those that operators are made of
      have hletter : Text.isLetter '\x60' = false := by decide
      have hoperator : isOperatorChar '\x60' := by decide
      have hsign : (lexeme d glued '\x60' cs).kind.isSign := by
        simp [lexeme, delimiter?, hnames, hletter, hoperator]
        split
        · exact customOperator_isSign _ cs
        · exact fixedOperator_isSign _ cs
      rw [h] at hsign
      contradiction

theorem gapLength_of_quotesNames (h : d.quotesNames quote) (cs : List Char) :
    gapLength d (quote :: cs) = 0 := by
  apply gapLength_none
  obtain ⟨rfl, -⟩ | ⟨rfl, -⟩ := Dialect.quotesNames_cases h
  · rfl
  · rfl

theorem tokenize_inQuotes (hquote : d.quotesNames quote) (hname : name ≠ "") :
    tokenize d (inQuotes quote name) =
      [⟨.quotedIdentifier name, 0, (inQuotes quote name).utf8ByteSize⟩,
        eof (inQuotes quote name).utf8ByteSize] := by
  generalize hinner : doubled quote name.toList ++ [quote] = inner
  have hlist : name.toList ≠ [] := by simpa using hname
  have hnone : ([] : List Char).head? ≠ some quote := nofun
  have hlength : inner.length = (doubled quote name.toList).length + 1 := by simp [← hinner]
  have hgap := gapLength_of_quotesNames hquote inner
  have htake : (quote :: inner).take (gapLength d (quote :: inner)) = [] := by
    rw [hgap, List.take_zero]
  have hdrop : (quote :: inner).drop (gapLength d (quote :: inner)) = quote :: inner := by
    rw [hgap, List.drop_zero]
  have hlexeme : ∀ glued, lexeme d glued quote inner = ⟨.quotedIdentifier name, inner.length⟩ := by
    intro glued
    rw [lexeme_of_quotesNames hquote, hlength, ← hinner, quotedName_doubled hnone hlist,
      String.ofList_toList]
  unfold tokenize
  rw [inQuotes, hinner, String.toList_ofList, scan_cons htake hdrop (hlexeme _), List.take_length,
    List.drop_length, scan_nil List.drop_nil, ← byteLength_eq]
  simp

theorem Cut.inQuotes {source : String} {t : Token} (h : t.Cut d source)
    (hname : t.kind = .quotedIdentifier name) :
    ∃ quote, d.quotesNames quote ∧ name ≠ "" ∧ t.text source = inQuotes quote name := by
  obtain ⟨quote, rest, glued, hkind, htext⟩ := h.text
  have hquote := quotesNames_of_lexeme (hkind.symm.trans hname)
  rw [lexeme_of_quotesNames hquote] at hkind htext
  obtain ⟨hne, hquoted⟩ := inQuotes_of_quotedName (hkind.symm.trans hname)
  exact ⟨quote, hquote, hne, htext.trans hquoted⟩

theorem Spelled.startsWord {source : String} {t : Token} (h : t.Spelled source)
    (hkind : (∃ name, t.kind = .identifier name) ∨ ∃ word, t.kind = .keyword word) :
    (t.text source).toList.head?.any TokenKind.startsWord := by
  have hwritten := h.written
  obtain ⟨name, hkind⟩ | ⟨word, hkind⟩ := hkind
  · rw [hkind] at hwritten
    exact (Bool.and_eq_true_iff.1 hwritten).2
  · rw [hkind] at hwritten
    exact (Bool.and_eq_true_iff.1 hwritten).2

end Token

namespace Identifier

open Token (tokenize undouble)

/-- What the lexer and the reader of names make of doubled quotes is the same. -/
theorem collapse_eq_undouble (quote : Char) :
    ∀ cs, collapse quote cs = undouble quote cs
  | [] => rfl
  | [_] => rfl
  | a :: b :: cs => by
    by_cases h : a = quote ∧ b = quote
    · obtain ⟨rfl, rfl⟩ := h
      rw [collapse, if_pos ⟨rfl, rfl⟩, Token.undouble_cons_self, collapse_eq_undouble]
    · rw [collapse, if_neg h, collapse_eq_undouble quote (b :: cs)]
      simp [undouble, h]

theorem ofRaw_inQuotes (hquote : closing? quote = some quote) (name : String) :
    ofRaw (inQuotes quote name) = ⟨name, true⟩ := by
  unfold ofRaw
  rw [inQuotes, String.toList_ofList]
  dsimp only
  rw [hquote, List.getLast?_concat]
  dsimp only
  rw [List.dropLast_concat, collapse_eq_undouble, Token.undouble_doubled, String.ofList_toList]
  simp

theorem closing?_of_startsWord (h : TokenKind.startsWord c) : closing? c = none := by
  have hnone : ['\x60', '"', '\'', '['].any TokenKind.startsWord = false := rfl
  have hne : ∀ q ∈ ['\x60', '"', '\'', '['], c ≠ q := by
    rintro q hq rfl
    exact List.any_eq_false.1 hnone c hq h
  simp only [List.forall_mem_cons] at hne
  simp [closing?, hne]

theorem ofRaw_of_startsWord {text : String} (h : text.toList.head?.any TokenKind.startsWord) :
    ofRaw text = ⟨text, false⟩ := by
  unfold ofRaw
  cases hlist : text.toList with
  | nil => rfl
  | cons first inner =>
    rw [hlist, List.head?_cons, Option.any_some] at h
    dsimp only
    rw [closing?_of_startsWord h]

theorem closing?_of_quotesNames (h : d.quotesNames quote) : closing? quote = some quote := by
  obtain ⟨rfl, -⟩ | ⟨rfl, -⟩ := Dialect.quotesNames_cases h
  · rfl
  · rfl

/--
A name in quotes is a token and nothing else, and is read back from the token and from its text; a
name of no characters has none. In all texts, what is told as a name in quotes is written that way,
and its text is read as the name that the lexer saw. A bare name or a keyword is read as it is
written.
-/
theorem ofRaw_tokenize (d : Dialect) :
    (∀ quote name, d.quotesNames quote → name ≠ "" →
      tokenize d (inQuotes quote name) =
          [⟨.quotedIdentifier name, 0, (inQuotes quote name).utf8ByteSize⟩,
            .eof (inQuotes quote name).utf8ByteSize] ∧
        ofRaw (inQuotes quote name) = ⟨name, true⟩) ∧
      ∀ source, ∀ t ∈ tokenize d source,
        (∀ name, t.kind = .quotedIdentifier name →
          (∃ quote, d.quotesNames quote ∧ name ≠ "" ∧ t.text source = inQuotes quote name) ∧
            ofRaw (t.text source) = ⟨name, true⟩) ∧
        ((∃ name, t.kind = .identifier name) ∨ (∃ word, t.kind = .keyword word) →
          ofRaw (t.text source) = ⟨t.text source, false⟩) := by
  constructor
  · intro quote name hquote hname
    have hclosing := closing?_of_quotesNames hquote
    exact ⟨Token.tokenize_inQuotes hquote hname, ofRaw_inQuotes hclosing name⟩
  intro source t ht
  obtain ⟨ts, hts, -⟩ := Token.exists_tokenize d source
  rw [hts, List.mem_append, List.mem_singleton] at ht
  obtain ht | rfl := ht
  · have hcut := Token.cut_of_tokenize hts t ht
    constructor
    · intro name hname
      obtain ⟨quote, hquote, hne, htext⟩ := hcut.inQuotes hname
      have hclosing := closing?_of_quotesNames hquote
      refine ⟨⟨quote, hquote, hne, htext⟩, ?_⟩
      rw [htext, ofRaw_inQuotes hclosing]
    · intro hkind
      exact ofRaw_of_startsWord (hcut.spelled.startsWord hkind)
  · exact ⟨nofun, nofun⟩

theorem ofRaw_tokenize_runs :
    (tokenize .mySql "\x60\x60\x60a\x60\x60\x60\x60b\x60\x60\x60" =
        [⟨.quotedIdentifier "\x60a\x60\x60b\x60", 0, 12⟩, .eof 12] ∧
      ofRaw "\x60\x60\x60a\x60\x60\x60\x60b\x60\x60\x60" = ⟨"\x60a\x60\x60b\x60", true⟩) ∧
    ⟨.identifier "a", 0, 1⟩ ∈ tokenize .mySql "a.\x60b\x60\x60\x60" ∧
    ⟨.quotedIdentifier "b\x60", 2, 7⟩ ∈ tokenize .mySql "a.\x60b\x60\x60\x60" ∧
    ofRaw "a" = ⟨"a", false⟩ ∧ ofRaw "\x60b\x60\x60\x60" = ⟨"b\x60", true⟩ := by
  have hbare : ⟨.identifier "a", 0, 1⟩ ∈ tokenize .mySql "a.\x60b\x60\x60\x60" := by
    decide +kernel
  have hquoted : ⟨.quotedIdentifier "b\x60", 2, 7⟩ ∈ tokenize .mySql "a.\x60b\x60\x60\x60" := by
    decide +kernel
  obtain ⟨hin, hout⟩ := ofRaw_tokenize .mySql
  refine ⟨hin '\x60' "\x60a\x60\x60b\x60" (by decide) (by decide), hbare, hquoted, ?_, ?_⟩
  · exact (hout _ _ hbare).2 (.inl ⟨_, rfl⟩)
  · exact ((hout _ _ hquoted).1 _ rfl).2

end Identifier

end SqlScript
