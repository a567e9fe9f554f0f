import Mathlib
import SqlScript.Proofs.Joined.Statements
import SqlScript.Proofs.Spacing.Tokens

/-!
Limits with numerals. The same rows are meant however a limit is spelled, and a number of rows that
no count can hold is not taken for a smaller one.
-/

namespace SqlScript

namespace Text

@[elab_as_elim]
theorem of_isDigit {p : Char → Prop} {c : Char} (hc : c.isDigit)
    (hp : p '0' ∧ p '1' ∧ p '2' ∧ p '3' ∧ p '4' ∧ p '5' ∧ p '6' ∧ p '7' ∧ p '8' ∧ p '9') : p c := by
  have hall : ∀ a ∈ "0123456789".toList, p a := by
    change ∀ a ∈ ['0', '1', '2', '3', '4', '5', '6', '7', '8', '9'], p a
    simpa using hp
  have hlist : ∀ n < 58, 48 ≤ n → Char.ofNat n ∈ "0123456789".toList := by decide
  simp only [Char.isDigit, Bool.and_eq_true, decide_eq_true_eq, ge_iff_le,
    UInt32.le_iff_toNat_le] at hc
  have hmem := hlist c.toNat (Nat.lt_succ_of_le hc.2) hc.1
  rw [Char.ofNat_toNat] at hmem
  exact hall c hmem

structure IsNumeral (text : String) : Prop where
  nonempty : text.toList ≠ []
  digits : text.toList.all Char.isDigit

def numeralValue (text : String) : Nat :=
  Nat.ofDigits 10 (text.toList.reverse.map fun c => c.toNat - '0'.toNat)

theorem ofDigits_eq (cs : List Char) :
    ofDigits cs = Nat.ofDigits 10 (cs.reverse.map fun c => c.toNat - '0'.toNat) := by
  induction cs using List.reverseRecOn with
  | nil => rfl
  | append_singleton cs c ih =>
    rw [List.reverse_concat, List.map_cons, Nat.ofDigits_cons, ← ih]
    unfold ofDigits
    rw [List.foldl_append, Nat.add_comm]
    rfl

theorem count?_of_numeral {text : String} (h : IsNumeral text) :
    count? text = if numeralValue text < 2 ^ 64 then some (numeralValue text) else none := by
  have hplus : ∀ cs, text.toList ≠ '+' :: cs := by
    intro cs htext
    have hdigit := List.all_eq_true.1 h.digits '+' (htext ▸ List.mem_cons_self)
    contradiction
  unfold count?
  split
  · rename_i htext
    exact absurd htext (hplus _)
  · simp only [ne_eq, h.nonempty, not_false_eq_true, h.digits, true_and,
      ofDigits_eq, numeralValue]
    rfl

end Text

namespace Token

variable {d : Dialect} {c : Char} {cs ext : List Char}

def endsNumeral (ext : List Char) : Bool :=
  ext.head?.all fun c => c == ' ' || c == ','

theorem endsNumeral_cases (h : endsNumeral ext) :
    ext = [] ∨ (∃ rest, ext = ' ' :: rest) ∨ ∃ rest, ext = ',' :: rest := by
  cases ext with
  | nil => exact .inl rfl
  | cons a rest =>
    rw [endsNumeral, List.head?_cons, Option.all_some, Bool.or_eq_true, beq_iff_eq, beq_iff_eq] at h
    obtain rfl | rfl := h
    · exact .inr (.inl ⟨rest, rfl⟩)
    · exact .inr (.inr ⟨rest, rfl⟩)

theorem fraction?_of_endsNumeral (h : endsNumeral ext) : fraction? ext = none := by
  obtain rfl | ⟨_, rfl⟩ | ⟨_, rfl⟩ := endsNumeral_cases h <;> rfl

theorem exponent?_of_endsNumeral (h : endsNumeral ext) : exponent? ext = none := by
  obtain rfl | ⟨_, rfl⟩ | ⟨_, rfl⟩ := endsNumeral_cases h <;> rfl

theorem takeWhile_of_endsNumeral (h : endsNumeral ext) : ext.takeWhile Char.isDigit = [] := by
  obtain rfl | ⟨_, rfl⟩ | ⟨_, rfl⟩ := endsNumeral_cases h <;> rfl

theorem decimal_of_digits (hcs : ∀ a ∈ c :: cs, a.isDigit) (hext : endsNumeral ext) :
    decimal (c :: cs ++ ext) = ⟨.integer, cs.length⟩ := by
  have hwhole : countDigits (c :: cs ++ ext) = cs.length + 1 := by
    unfold countDigits
    rw [List.takeWhile_append_of_pos hcs, takeWhile_of_endsNumeral hext, List.append_nil,
      List.length_cons]
  have hdrop : (c :: cs ++ ext).drop (cs.length + 1) = ext := List.drop_left
  unfold decimal
  simp only [hwhole, hdrop, fraction?_of_endsNumeral hext, Option.getD_none, Nat.add_zero,
    exponent?_of_endsNumeral hext]
  rfl

theorem number_of_digits (hcs : ∀ a ∈ c :: cs, a.isDigit) (hext : endsNumeral ext) :
    number (c :: (cs ++ ext)) = ⟨.integer, cs.length⟩ := by
  obtain hdecimal | ⟨base, digit, rest, rfl, hrest, hbase⟩ := number_cases c (cs ++ ext)
  · exact hdecimal.trans (decimal_of_digits hcs hext)
  -- Behind a zero there is a digit, a blank or a comma, which is no mark of another base.
  · exfalso
    have hmark : base = 'x' ∨ base = 'X' ∨ base = 'b' ∨ base = 'B' := by
      grind
    have hdigit : base.isDigit ∨ base = ' ' ∨ base = ',' := by
      cases cs with
      | nil =>
        rw [List.nil_append] at hrest
        subst hrest
        obtain h | ⟨_, h⟩ | ⟨_, h⟩ := endsNumeral_cases hext <;> cases h
        · exact .inr (.inl rfl)
        · exact .inr (.inr rfl)
      | cons a cs =>
        obtain ⟨rfl, -⟩ := List.cons.inj hrest
        exact .inl (hcs _ (List.mem_cons_of_mem _ List.mem_cons_self))
    obtain rfl | rfl | rfl | rfl := hmark <;> revert hdigit <;> decide

theorem gapItem?_of_isDigit (hc : c.isDigit) (cs : List Char) : gapItem? d c cs = none :=
  Text.of_isDigit hc ⟨rfl, rfl, rfl, rfl, rfl, rfl, rfl, rfl, rfl, rfl⟩

theorem lexeme_of_isDigit (hc : c.isDigit) (glued : Bool) (cs : List Char) :
    lexeme d glued c cs = number (c :: cs) :=
  Text.of_isDigit hc ⟨rfl, rfl, rfl, rfl, rfl, rfl, rfl, rfl, rfl, rfl⟩

theorem written_numeral {glued : Bool} {text : String} (h : Text.IsNumeral text)
    (hext : endsNumeral ext) {pieces : List (TokenKind × String)}
    (hrest : ∀ glued, Written d glued ext pieces) :
    Written d glued (text.toList ++ ext) ((.integer, text) :: pieces) := by
  obtain ⟨c, cs, htext⟩ := List.exists_cons_of_ne_nil h.nonempty
  have hdigits : ∀ a ∈ c :: cs, a.isDigit := List.all_eq_true.1 (htext ▸ h.digits)
  have hc : c.isDigit := hdigits c List.mem_cons_self
  apply Written.token htext (gapItem?_of_isDigit hc _) _ hrest
  rw [lexeme_of_isDigit hc, number_of_digits hdigits hext]

end Token

def statementsOfTokens (flavor : Flavor) (c : Context) (options : Options) (tokens : List Token) :
    Except Failure (List Statement) :=
  match flavor with
  | .mySql => MySql.statementsOf c <$>
      Parser.parseTree.run (MySql.script (MySql.parser options.maxDepth)) .mySql options tokens
  | .postgreSql => Postgres.statementsOf c <$>
      Parser.parseTree.run (Postgres.script (Postgres.parser options.maxDepth)) .postgreSql options
        tokens

theorem parse_of_tokens {flavor : Flavor} {source : String} {options : Options}
    {statements : List Statement}
    (h : statementsOfTokens flavor (.ofString source options.baseline flavor) options
      (Token.tokenize (.ofFlavor flavor) source) = .ok statements) :
    parse flavor source options = .ok statements := by
  cases flavor with
  | mySql =>
    obtain ⟨root, hroot, rfl⟩ := exists_of_map_eq_ok h
    have htree : MySql.parseTree source options = .ok ⟨root, Token.tokenize .mySql source⟩ :=
      Parser.parseTree_eq_ok.2 ⟨hroot, rfl⟩
    unfold parse
    dsimp only
    rw [htree]
    rfl
  | postgreSql =>
    obtain ⟨root, hroot, rfl⟩ := exists_of_map_eq_ok h
    have htree : Postgres.parseTree source options = .ok ⟨root, Token.tokenize .postgreSql source⟩ :=
      Parser.parseTree_eq_ok.2 ⟨hroot, rfl⟩
    unfold parse
    dsimp only
    rw [htree]
    rfl

namespace Token

variable {source : String} {pieces : List (TokenKind × String)}

/--
Tokens of these kinds, the one with number `i` at `span i`.
-/
def lay (span : Nat → Span) : List (TokenKind × String) → List Token
  | [] => []
  | piece :: pieces => ⟨piece.1, span 0⟩ :: lay (fun i => span (i + 1)) pieces

def spansFrom (first : Span) (span : Nat → Span) : Nat → Span
  | 0 => first
  | i + 1 => span i

theorem exists_lay_of_map {ts : List Token}
    (h : ts.map (fun t => (t.kind, t.text source)) = pieces) :
    ∃ span : Nat → Span, ts = lay span pieces ∧
      ∀ i piece, pieces[i]? = some piece → (span i).slice source = piece.2 := by
  induction ts generalizing pieces with
  | nil =>
    subst h
    exact ⟨fun _ => default, rfl, fun i piece hpiece => by simp at hpiece⟩
  | cons t ts ih =>
    obtain ⟨span, hts, hspan⟩ := ih rfl
    subst h
    refine ⟨spansFrom t.span span, ?_, ?_⟩
    · rw [List.map_cons, lay]
      exact congrArg _ hts
    · intro i piece hpiece
      cases i with
      | zero =>
        cases hpiece
        rfl
      | succ i => exact hspan i piece hpiece

def limitWords : List Keyword :=
  [.SELECT, .LIMIT, .OFFSET, .ROWS, .FETCH, .FIRST, .ONLY]

theorem alone_word (flavor : Flavor) :
    ∀ word ∈ limitWords, Alone (.ofFlavor flavor) (.keyword word) word.spelling.toList := by
  cases flavor <;> decide +kernel

namespace Written

variable {d : Dialect} {glued : Bool} {cs : List Char}

theorem word {flavor : Flavor} {word : Keyword} (hword : word ∈ limitWords)
    (h : Written (.ofFlavor flavor) false cs pieces) :
    Written (.ofFlavor flavor) false (word.spelling.toList ++ ' ' :: cs)
      ((.keyword word, word.spelling) :: pieces) :=
  (alone_word flavor word hword).written (.inr ⟨cs, rfl⟩) fun _ => .blank h

theorem numeral {text : String} (htext : Text.IsNumeral text) (h : Written d false cs pieces) :
    Written d glued (text.toList ++ ' ' :: cs) ((.integer, text) :: pieces) :=
  written_numeral htext rfl fun _ => .blank h

theorem comma (h : Written d false cs pieces) :
    Written d glued (", ".toList ++ cs) ((.comma, ",") :: pieces) := by
  have htext : ",".toList = [','] := rfl
  exact .token htext rfl rfl fun _ => .blank h

theorem last {text : String} (htext : Text.IsNumeral text) :
    Written d glued text.toList [(.integer, text)] := by
  have h : Written d glued (text.toList ++ []) _ := written_numeral htext rfl fun _ => .nil
  rwa [List.append_nil] at h

end Written

end Token

/--
The limit of a statement, if it is a simple select that has one.
-/
def Statement.limit? : Statement → Option Limit
  | .select (.simple simple) => simple.query.limit
  | _ => none

inductive LimitSpelling where
  /-- `LIMIT m, n` -/
  | comma
  /-- `LIMIT n OFFSET m` -/
  | limitOffset (flavor : Flavor)
  /-- `OFFSET m LIMIT n` -/
  | offsetLimit
  /-- `OFFSET m ROWS FETCH FIRST n ROWS ONLY` -/
  | fetch

namespace LimitSpelling

def flavor : LimitSpelling → Flavor
  | comma => .mySql
  | limitOffset flavor => flavor
  | offsetLimit | fetch => .postgreSql

def clause (m n : String) : LimitSpelling → String
  | comma => "LIMIT " ++ m ++ ", " ++ n
  | limitOffset _ => "LIMIT " ++ n ++ " OFFSET " ++ m
  | offsetLimit => "OFFSET " ++ m ++ " LIMIT " ++ n
  | fetch => "OFFSET " ++ m ++ " ROWS FETCH FIRST " ++ n ++ " ROWS ONLY"

def pieces (m n : String) : LimitSpelling → List (TokenKind × String)
  | comma => [word .LIMIT, number m, (.comma, ","), number n]
  | limitOffset _ => [word .LIMIT, number n, word .OFFSET, number m]
  | offsetLimit => [word .OFFSET, number m, word .LIMIT, number n]
  | fetch =>
    [word .OFFSET, number m, word .ROWS, word .FETCH, word .FIRST, number n, word .ROWS, word .ONLY]
where
  word (k : Keyword) := (.keyword k, k.spelling)
  number (text : String) := (.integer, text)

variable {m n : String} {c : Context}

theorem exists_statement (spelling : LimitSpelling) {ts : List Token}
    (hts : ts.map (fun t => (t.kind, t.text c.source)) =
      (.keyword .SELECT, "SELECT") :: (.integer, "1") :: spelling.pieces m n)
    (eof : Span) {options : Options} (hdepth : 4 ≤ options.maxDepth) :
    ∃ statement,
      statementsOfTokens spelling.flavor c options (ts ++ [⟨.eof, eof⟩]) = .ok [statement] ∧
      ∃ limit, statement.limit? = some limit ∧ limit.rowCount = Text.count? n ∧
        limit.offset = Text.count? m := by
  obtain ⟨span, rfl, hspan⟩ := Token.exists_lay_of_map hts
  have hcount : ∀ i {text}, (spelling.pieces m n)[i]? = some (.integer, text) →
      Text.count? ((span (i + 2)).slice c.source) = Text.count? text :=
    fun i _ hpiece => congrArg Text.count? (hspan (i + 2) _ hpiece)
  clear hts hspan
  obtain ⟨baseline, maxDepth⟩ := options
  obtain ⟨depth, rfl⟩ := Nat.exists_eq_add_of_le' hdepth
  unfold statementsOfTokens
  -- The parser sees what the tokens are and not where they stand, so its run is the same for all.
  rcases spelling with _ | ⟨_ | _⟩ | _ | _
  all_goals
    dsimp only [flavor]
    generalize hrun : Parser.parseTree.run _ _ _ _ = run
    conv at hrun => lhs; cbv
    subst hrun
    refine ⟨_, rfl, ?_⟩
  case comma => exact ⟨_, rfl, hcount 3 rfl, hcount 1 rfl⟩
  case limitOffset.mySql => exact ⟨_, rfl, hcount 1 rfl, hcount 3 rfl⟩
  case limitOffset.postgreSql => exact ⟨_, rfl, hcount 1 rfl, hcount 3 rfl⟩
  case offsetLimit => exact ⟨_, rfl, hcount 3 rfl, hcount 1 rfl⟩
  case fetch => exact ⟨_, rfl, hcount 5 rfl, hcount 1 rfl⟩

section

variable (hm : Text.IsNumeral m) (hn : Text.IsNumeral n)

include hm hn

theorem written_clause (spelling : LimitSpelling) :
    Token.Written (.ofFlavor spelling.flavor) false (spelling.clause m n).toList
      (spelling.pieces m n) := by
  cases spelling with
  | comma =>
    have h : Token.Written (.ofFlavor comma.flavor) false _ (comma.pieces m n) :=
      .word (by decide) <| Token.written_numeral hm rfl fun _ => .comma <| .last hn
    simpa [clause, Keyword.spelling] using h
  | limitOffset flavor =>
    have h : Token.Written (.ofFlavor flavor) false _ ((limitOffset flavor).pieces m n) :=
      .word (by decide) <| .numeral hn <| .word (by decide) <| .last hm
    simpa [clause, Keyword.spelling, LimitSpelling.flavor] using h
  | offsetLimit =>
    have h : Token.Written (.ofFlavor offsetLimit.flavor) false _ (offsetLimit.pieces m n) :=
      .word (by decide) <| .numeral hm <| .word (by decide) <| .last hn
    simpa [clause, Keyword.spelling] using h
  | fetch =>
    have hlast := (Token.alone_word .postgreSql .ONLY (by decide)).written (.inl rfl) fun _ => .nil
    have h : Token.Written (.ofFlavor fetch.flavor) false _ (fetch.pieces m n) :=
      .word (by decide) <| .numeral hm <| .word (by decide) <| .word (by decide) <|
        .word (by decide) <| .numeral hn <| .word (by decide) hlast
    simpa [clause, Keyword.spelling] using h

/--
All spellings of a limit mean the same. A number of rows that has more than 64 bits is not known.
-/
theorem parse_limit (spelling : LimitSpelling) {options : Options} (hdepth : 4 ≤ options.maxDepth) :
    ∃ statement limit,
      parse spelling.flavor ("SELECT 1 " ++ spelling.clause m n) options = .ok [statement] ∧
      statement.limit? = some limit ∧
      limit.rowCount = (if Text.numeralValue n < 2 ^ 64 then some (Text.numeralValue n) else none) ∧
      limit.offset = if Text.numeralValue m < 2 ^ 64 then some (Text.numeralValue m) else none := by
  generalize hsource : "SELECT 1 " ++ spelling.clause m n = source
  have hwritten : Token.Written (.ofFlavor spelling.flavor) false source.toList
      ((.keyword .SELECT, "SELECT") :: (.integer, "1") :: spelling.pieces m n) := by
    have hone : Text.IsNumeral "1" := ⟨by decide, by decide⟩
    rw [← hsource, String.toList_append]
    have hselect : Keyword.SELECT ∈ Token.limitWords := by decide
    exact .word hselect <| .numeral hone <| written_clause hm hn spelling
  have htokens := hwritten.scan_eq (List.nil_append source.toList).symm
    (show none.any Token.endsName = false from rfl)
  obtain ⟨statement, hstatement, limit, hlimit, hrows, hskipped⟩ := exists_statement spelling
    (c := .ofString source options.baseline spelling.flavor) htokens _ hdepth
  refine ⟨statement, limit, parse_of_tokens hstatement, hlimit, ?_, ?_⟩
  · rw [hrows, Text.count?_of_numeral hn]
  · rw [hskipped, Text.count?_of_numeral hm]

end

theorem parse_limit_too_many :
    Text.IsNumeral "007" ∧ Text.IsNumeral "18446744073709551616" ∧ 4 ≤ ({} : Options).maxDepth ∧
      ∃ statement limit,
        parse .postgreSql
          "SELECT 1 OFFSET 007 ROWS FETCH FIRST 18446744073709551616 ROWS ONLY" {} =
          .ok [statement] ∧
        statement.limit? = some limit ∧ limit.rowCount = none ∧ limit.offset = some 7 := by
  have hm : Text.IsNumeral "007" := ⟨by decide, by decide⟩
  have hn : Text.IsNumeral "18446744073709551616" := ⟨by decide, by decide⟩
  have hdepth : 4 ≤ ({} : Options).maxDepth := by decide
  obtain ⟨statement, limit, hparse, hlimit, hrows, hskipped⟩ := parse_limit hm hn .fetch hdepth
  have hrows' : Text.numeralValue "18446744073709551616" = 2 ^ 64 := by decide
  have hskipped' : Text.numeralValue "007" = 7 := by decide
  rw [hrows'] at hrows
  rw [hskipped'] at hskipped
  exact ⟨hm, hn, hdepth, statement, limit, hparse, hlimit, hrows, hskipped⟩

end LimitSpelling

end SqlScript
