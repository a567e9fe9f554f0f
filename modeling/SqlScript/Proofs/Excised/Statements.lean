import SqlScript.Proofs.Excised.Excerpt
import SqlScript.Proofs.Excised.Script

/-!
Every statement of a script that closes its own groups is the same statement on its own.
-/

namespace SqlScript

open SqlScript.Tree
open Token (Closed casesEnd inPiece behindPiece properlyNested tokenize)

/--
An excerpt of which only the text is kept, as if it were at the start of a script.
-/
def Excerpt.placeless (e : Excerpt) : Excerpt :=
  { e with start := ⟨1, 1, 0⟩, stop := ⟨1, 1, 0⟩ }

theorem Statement.excerpt_relocate (f : Excerpt → Excerpt) (s : Statement) :
    (s.relocate f).excerpt = f s.excerpt := by
  cases s with
  | select q =>
    rcases q with ⟨⟨⟩⟩ | ⟨⟨⟩⟩ | ⟨⟨⟩⟩
    · rw [relocate, recast, Select.recast, SimpleSelect.recast]
      rfl
    · rw [relocate, recast, Select.recast, UnionSelect.recast]
      rfl
    · rw [relocate, recast, Select.recast, ParenthesisSelect.recast]
      rfl
  | _ => rfl

namespace Context

def placeless (source : String) (flavor : Flavor) : Context where
  source := source
  lines := .empty 1
  flavor := flavor

theorem excerpt_placeless (source : String) (flavor : Flavor) (s : Span) :
    (placeless source flavor).excerpt s =
      ⟨⟨1, 1, 0⟩, ⟨1, 1, 0⟩, s.slice source, flavor⟩ := by
  have hposition (offset : Nat) : (LineIndex.empty 1).position offset = ⟨1, 1, 0⟩ := by
    have hempty : (LineIndex.empty 1).position offset = (LineIndex.empty 1).position 0 := by
      unfold LineIndex.position LineIndex.empty
      simp only [Nat.min_zero]
    have htext : "".toList = [] ++ [] := rfl
    exact hempty.trans (LineIndex.position_ofString htext 1)
  unfold excerpt placeless LineIndex.positions
  rw [hposition, hposition]

theorem moves_placeless (text : List Char) (source : String) (baseline : Nat) (flavor : Flavor) :
    (ofString source baseline flavor).Moves text id .placeless (placeless source flavor) where
  excerpt _ := excerpt_placeless source flavor _
  slice _ := rfl
  merge _ _ := rfl

theorem moves_excised {source : String} {before inside after : List Char}
    (h : source.toList = before ++ inside ++ after) (flavor : Flavor) :
    (placeless (String.ofList inside) flavor).Moves inside
      (Span.shift (Token.byteLength before)) id (placeless source flavor) := by
  have hslice {s : Span} (hs : s.Proper inside) :
      (s.shift (Token.byteLength before)).slice source = s.slice (String.ofList inside) := by
    obtain ⟨front, middle, back, rfl, rfl⟩ := exists_cut hs
    have hsource : source.toList = (before ++ front) ++ middle ++ (back ++ after) := by
      simp [h]
    have hspan : Span.shift (Token.byteLength before)
        ⟨Token.byteLength front, Token.byteLength (front ++ middle)⟩ =
        ⟨Token.byteLength (before ++ front), Token.byteLength (before ++ front ++ middle)⟩ := by
      simp [Span.shift, Token.byteLength_append]
    rw [hspan, Span.slice_eq hsource, Span.slice_eq String.toList_ofList]
  constructor
  · intro s hs
    rw [excerpt_placeless, excerpt_placeless, hslice hs]
    rfl
  · exact fun hs => hslice hs
  · exact fun s t => (Span.merge_shift _ s t).symm

end Context

namespace ScriptForm

variable {ρ : Type} [DecidableEq ρ] {form : ScriptForm ρ} {statement : Parser ρ Unit}
  {read : Context → Node ρ → Node ρ → Statement} {flavor : Flavor} {options : Options}
  {source : String} (hread : Reading.Movable read)
  (hbuilds : Parser.Builds (.ofFlavor flavor) options.maxDepth (form.script statement))
  {tree : SyntaxTree ρ} {n : Node ρ} (hn : n ∈ form.statementsIn tree.root)

include hread hbuilds hn

theorem exists_read_excised (hlaid : (Element.node tree.root).Laid source.toList)
    (h : form.Excised statement flavor options source n) :
    ∃ tree' s, Parser.parseTree (form.script statement) (.ofFlavor flavor) (n.span.slice source)
        options = .ok tree' ∧
      (form.statementsIn tree'.root).map
        (read (.ofString (n.span.slice source) options.baseline flavor) tree'.root) = [s] ∧
      s.relocate .placeless =
        (read (.ofString source options.baseline flavor) tree.root n).relocate .placeless := by
  obtain ⟨before, inside, after, hsource, hspan, tree', m, htree', hin, rfl⟩ := h
  have hm : m ∈ form.statementsIn tree'.root := by
    rw [hin]
    exact List.mem_singleton_self m
  have hmine := contains_of_mem_statementsIn hm
  have hthere := contains_of_mem_statementsIn hn
  have hlaid' := (Parser.laid_of_parseTree hbuilds htree').1
  rw [String.toList_ofList] at hlaid'
  rw [hspan, Span.slice_eq hsource]
  refine ⟨tree', _, htree', by rw [hin, List.map_singleton], ?_⟩
  have hheight := hthere.height_le
  have hheight' := hheight
  rw [Node.height_relocate] at hheight'
  have hown := hread (Context.moves_placeless inside (String.ofList inside) options.baseline flavor)
    (hlaid'.of_contains hmine) hmine.height_le hmine.height_le
  have hscript := hread (Context.moves_placeless source.toList source options.baseline flavor)
    (hlaid.of_contains hthere) hheight hheight
  have hmoved := hread (Context.moves_excised hsource flavor) (hlaid'.of_contains hmine)
    hmine.height_le hheight'
  rw [Node.relocate_id] at hown hscript
  rw [← hown, ← hscript, hmoved, Statement.relocate_id]

theorem exists_excised (hstatement : Parser.Excisable (.ofFlavor flavor) options.maxDepth statement)
    (htree : Parser.parseTree (form.script statement) (.ofFlavor flavor) source options = .ok tree)
    {s : Statement} (hs : read (.ofString source options.baseline flavor) tree.root n = s)
    (hexcerpt : s.excerpt = (Context.ofString source options.baseline flavor).excerptOf n)
    (hnested : properlyNested
      (inPiece s.excerpt.span (tokenize (.ofFlavor flavor) source).dropLast))
    (hcases : flavor = .mySql →
      casesEnd (behindPiece s.excerpt.span (tokenize (.ofFlavor flavor) source).dropLast)
        (inPiece s.excerpt.span (tokenize (.ofFlavor flavor) source).dropLast))
    (hdashes : flavor = .mySql → ¬['-', '-'] <:+ s.excerpt.text.toList) :
    ∃ tree' s', Parser.parseTree (form.script statement) (.ofFlavor flavor) s.excerpt.text options =
        .ok tree' ∧
      (form.statementsIn tree'.root).map
        (read (.ofString s.excerpt.text options.baseline flavor) tree'.root) = [s'] ∧
      s'.relocate .placeless = s.relocate .placeless := by
  subst hs
  have hlaid := (Parser.laid_of_parseTree hbuilds htree).1
  have hspan : ((Context.ofString source options.baseline flavor).excerptOf n).span = n.span :=
    Context.span_excerpt (hlaid.of_contains (contains_of_mem_statementsIn hn)).span
  rw [hexcerpt] at hnested hcases hdashes ⊢
  rw [hspan] at hnested hcases
  exact exists_read_excised hread hbuilds hn hlaid
    (excised hstatement htree hn hnested hcases hdashes)

end ScriptForm

theorem Parser.Forms.single {ρ α : Type} [Grammar ρ] {c : Setting} {h : Nat} {rule : ρ}
    {p : Parser ρ α} (hp : Forms c (fun _ => True) h (.one rule) p) {s t : ParserState ρ} {a : α}
    (heof : c.stop.kind = .eof) (hs : s.builder.Sound) (hok : p c s = .ok a t) :
    ∃ n, Grows s t [.node n] := by
  obtain ⟨es, hgrows, hmade⟩ := hp heof hs trivial hok
  obtain ⟨n, rfl, -⟩ := Shape.matches_one.1 hmade.fits
  exact ⟨n, hgrows⟩

namespace MySql

theorem Family.ofLookahead?_dot {a : Lookahead} (h : (a.token 0).kind = .dot) :
    ofLookahead? a = none := by
  have hparen : TokenKind.dot.alike .leftParen = false := rfl
  simp [ofLookahead?, keywords, words, Lookahead.isKind, Lookahead.kind, hparen,
    Lookahead.isKeyword, Token.isKeyword, Lookahead.isOneOf, Token.isOneOf, Token.keyword?,
    Lookahead.isWord, Token.isWord, h]

theorem excisable_statement (limit : Nat) :
    Parser.Excisable (.ofFlavor .mySql) limit (statement (parser limit)) where
  toJoinable := joinable_statement limit
  single _ _ heof hs hok := (parser_forms _ limit).statement_forms.single heof hs hok
  not_dot := by
    intro c t ts b u ht hok
    obtain ⟨_, v, hstart, hok⟩ := Parser.bind_eq_ok hok
    cases hstart
    obtain ⟨_, w, hbody, -⟩ := Parser.bind_eq_ok hok
    have hnone : Family.ofLookahead? (c.ahead (t :: ts)) = none := Family.ofLookahead?_dot ht
    simp only [Parser.sees_bind, hnone] at hbody
    contradiction

theorem excerpt_of_mem_statementsIn {source : String} {options : Options} {tree : SyntaxTree Rule}
    (htree : parseTree source options = .ok tree) {n : Node Rule}
    (hn : n ∈ form.statementsIn tree.root) {c : Context} :
    (readStatement c tree.root n).excerpt = c.excerptOf n := by
  have hcontains := ScriptForm.contains_of_mem_statementsIn hn
  have hlaid := (Parser.laid_of_parseTree (builds_script options.maxDepth) htree).1
  have hformed := (parseTree_formed htree).2.1
  have hkinds : ∀ rule ∈ (shape .sqlStatements).rules,
      rule = .emptyStatement ∨ rule = .sqlStatement := by
    decide
  have hrule : n.rule = .emptyStatement ∨ n.rule = .sqlStatement := by
    unfold ScriptForm.statementsIn at hn
    split at hn
    · rename_i list hlist
      have hmem := (hformed.child (Node.mem_childNodes_of_child? hlist)).rule_mem hn
      rw [Node.rule_of_child? hlist] at hmem
      exact hkinds _ hmem
    · contradiction
  exact excerpt_readStatement (fun _ hm => hformed _ (hcontains.trans hm))
    (hlaid.of_contains hcontains) hrule

end MySql

namespace Postgres

theorem statement?_dot (nested : Goal → Parser Rule Unit) {a : Lookahead}
    (h : (a.token 0).kind = .dot) : statement? nested a = none := by
  have hparen : TokenKind.dot.alike .leftParen = false := rfl
  simp [statement?, run?, runKeywords, runWords, Lookahead.isKind, Lookahead.kind, hparen,
    Lookahead.keyword?, Lookahead.isKeyword, Token.isKeyword, Lookahead.isOneOf, Token.isOneOf,
    Token.keyword?, Lookahead.isWord, Token.isWord, h]

theorem excisable_statement (limit : Nat) :
    Parser.Excisable (.ofFlavor .postgreSql) limit (statement (parser limit)) where
  toJoinable := joinable_statement limit
  single _ _ heof hs hok := (parser_forms _ limit).statement_forms.single heof hs hok
  not_dot := by
    intro c t ts b u ht hok
    obtain ⟨_, v, hstart, hok⟩ := Parser.bind_eq_ok hok
    cases hstart
    obtain ⟨_, w, hbody, -⟩ := Parser.bind_eq_ok hok
    have hnone : statement? (parser limit) (c.ahead (t :: ts)) = none := statement?_dot _ ht
    simp only [Parser.sees_bind, hnone] at hbody
    contradiction

theorem excerpt_of_mem_statementsIn {source : String} {options : Options} {tree : SyntaxTree Rule}
    (htree : parseTree source options = .ok tree) {n : Node Rule}
    (hn : n ∈ form.statementsIn tree.root) {c : Context} :
    (readStatement c tree.root n).excerpt = c.excerptOf n := by
  have hcontains := ScriptForm.contains_of_mem_statementsIn hn
  have hlaid := (Parser.laid_of_parseTree (builds_script options.maxDepth) htree).1
  have hformed := (parseTree_formed htree).2.1
  have hkinds : ∀ rule ∈ (shape .stmtmulti).rules, rule = .emptyStmt ∨ rule = .stmt := by
    decide
  have hrule : n.rule = .emptyStmt ∨ n.rule = .stmt := by
    unfold ScriptForm.statementsIn at hn
    split at hn
    · rename_i list hlist
      have hmem := (hformed.child (Node.mem_childNodes_of_child? hlist)).rule_mem hn
      rw [Node.rule_of_child? hlist] at hmem
      exact hkinds _ hmem
    · contradiction
  exact excerpt_readStatement (fun _ hm => hformed _ (hcontains.trans hm))
    (hlaid.of_contains hcontains) hrule

end Postgres

/--
Parsing the text of a statement gives that statement, and no other, with the same texts in it: what
the statement is depends neither on what is in front of it nor on what follows. Groups must be closed
in the statement, because looking ahead for the end of a group passes over semicolons. In MySQL, no
`CASE` of the statement may be ended only by an `END` behind it, for the same reason, and the text
must not end in two dashes, which would start a comment without a character behind them.
-/
theorem parse_excised {flavor : Flavor} {source : String} {options : Options}
    {statements : List Statement} (h : parse flavor source options = .ok statements)
    {s : Statement} (hs : s ∈ statements)
    (hnested : properlyNested
      (inPiece s.excerpt.span (tokenize (.ofFlavor flavor) source).dropLast))
    (hcases : flavor = .mySql →
      casesEnd (behindPiece s.excerpt.span (tokenize (.ofFlavor flavor) source).dropLast)
        (inPiece s.excerpt.span (tokenize (.ofFlavor flavor) source).dropLast))
    (hdashes : flavor = .mySql → ¬['-', '-'] <:+ s.excerpt.text.toList) :
    ∃ s', parse flavor s.excerpt.text options = .ok [s'] ∧
      s'.relocate .placeless = s.relocate .placeless := by
  cases flavor with
  | mySql =>
    obtain ⟨tree, htree, rfl⟩ := MySql.parse_eq_ok.1 h
    obtain ⟨n, hn, rfl⟩ := List.mem_map.1 hs
    obtain ⟨tree', s', htree', hs', hsame⟩ := ScriptForm.exists_excised MySql.movable_readStatement
      (MySql.builds_script options.maxDepth) hn (MySql.excisable_statement options.maxDepth) htree rfl
      (MySql.excerpt_of_mem_statementsIn htree hn) hnested hcases hdashes
    exact ⟨s', MySql.parse_eq_ok.2 ⟨tree', htree', hs'⟩, hsame⟩
  | postgreSql =>
    obtain ⟨tree, htree, rfl⟩ := Postgres.parse_eq_ok.1 h
    obtain ⟨n, hn, rfl⟩ := List.mem_map.1 hs
    obtain ⟨tree', s', htree', hs', hsame⟩ := ScriptForm.exists_excised
      Postgres.movable_readStatement (Postgres.builds_script options.maxDepth) hn
      (Postgres.excisable_statement options.maxDepth) htree rfl
      (Postgres.excerpt_of_mem_statementsIn htree hn) hnested hcases hdashes
    exact ⟨s', Postgres.parse_eq_ok.2 ⟨tree', htree', hs'⟩, hsame⟩

theorem parse_excised_case :
    ∃ statements s, parse .mySql "SHOW --;SELECT CASE WHEN (a) THEN 1 END FROM t -- END" {} =
        .ok statements ∧ s ∈ statements ∧
      s.excerpt.text = "SELECT CASE WHEN (a) THEN 1 END FROM t" ∧
      ∃ s', parse .mySql s.excerpt.text {} = .ok [s'] ∧
        s'.relocate .placeless = s.relocate .placeless := by
  have hok : (parse .mySql "SHOW --;SELECT CASE WHEN (a) THEN 1 END FROM t -- END" {}).toOption.any
      fun statements => statements.any fun s =>
        s.excerpt.text = "SELECT CASE WHEN (a) THEN 1 END FROM t" ∧
        s.excerpt.span = ⟨8, 46⟩ := by
    decide +kernel
  obtain ⟨statements, hparse, hany⟩ := exists_ok_of_any hok
  obtain ⟨s, hs, hat⟩ := List.any_eq_true.1 hany
  obtain ⟨htext, hspan⟩ := of_decide_eq_true hat
  refine ⟨statements, s, hparse, hs, htext, parse_excised hparse hs ?_ ?_ ?_⟩
  · rw [hspan]
    decide +kernel
  · rw [hspan]
    decide +kernel
  · rw [htext]
    decide +kernel

theorem exists_not_excised {source text : String} {span : Span}
    (hok : (parse .mySql source {}).toOption.any (·.any fun s =>
      s.excerpt.text = text ∧ s.excerpt.span = span))
    (hnested : properlyNested (inPiece span (tokenize .mySql source).dropLast))
    (hall : (parse .mySql text {}).toOption.all (·.all (·.excerpt.text ≠ text))) :
    ∃ statements s, parse .mySql source {} = .ok statements ∧ s ∈ statements ∧
      properlyNested (inPiece s.excerpt.span (tokenize .mySql source).dropLast) ∧
      ¬∃ s', parse .mySql s.excerpt.text {} = .ok [s'] ∧
        s'.relocate .placeless = s.relocate .placeless := by
  obtain ⟨statements, hparse, hany⟩ := exists_ok_of_any hok
  obtain ⟨s, hs, hat⟩ := List.any_eq_true.1 hany
  obtain ⟨rfl, rfl⟩ := of_decide_eq_true hat
  refine ⟨statements, s, hparse, hs, hnested, ?_⟩
  rintro ⟨s', hparse', hsame⟩
  have htext := congrArg (·.excerpt.text) hsame
  simp only [Statement.excerpt_relocate] at htext
  rw [hparse'] at hall
  exact of_decide_eq_true (List.all_eq_true.1 hall s' List.mem_cons_self) htext

/--
Alone, the two dashes that end the first of these statements are the start of a comment, and the inner
`CASE` of the other one is not ended.
-/
theorem parse_not_excised :
    (∃ statements s, parse .mySql "SHOW --;" {} = .ok statements ∧ s ∈ statements ∧
      properlyNested (inPiece s.excerpt.span (tokenize .mySql "SHOW --;").dropLast) ∧
      ¬∃ s', parse .mySql s.excerpt.text {} = .ok [s'] ∧
        s'.relocate .placeless = s.relocate .placeless) ∧
    ∃ statements s, parse .mySql "SELECT CASE WHEN (CASE) THEN 1 END; SHOW END" {} =
        .ok statements ∧ s ∈ statements ∧
      properlyNested (inPiece s.excerpt.span
        (tokenize .mySql "SELECT CASE WHEN (CASE) THEN 1 END; SHOW END").dropLast) ∧
      ¬∃ s', parse .mySql s.excerpt.text {} = .ok [s'] ∧
        s'.relocate .placeless = s.relocate .placeless := by
  constructor
  · have hok : (parse .mySql "SHOW --;" {}).toOption.any (·.any fun s =>
        s.excerpt.text = "SHOW --" ∧ s.excerpt.span = ⟨0, 7⟩) := by
      decide +kernel
    exact exists_not_excised hok (by decide +kernel) (by decide +kernel)
  · have hok : (parse .mySql "SELECT CASE WHEN (CASE) THEN 1 END; SHOW END" {}).toOption.any
        (·.any fun s =>
          s.excerpt.text = "SELECT CASE WHEN (CASE) THEN 1 END" ∧ s.excerpt.span = ⟨0, 34⟩) := by
      decide +kernel
    exact exists_not_excised hok (by decide +kernel) (by decide +kernel)

end SqlScript
