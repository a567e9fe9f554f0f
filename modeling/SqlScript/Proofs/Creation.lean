import SqlScript.Proofs.Excised.Statements

/-!
Statements that create a database. `IF NOT EXISTS` stands between the keywords and the name, and
options of any kind stand behind the name. The statement is said to put up with a database of the
name if the clause stands there, but also if one of the options is the word `IF`.
-/

namespace SqlScript

open SqlScript.Tree
open Token (inPiece tokenize)

def IsClause (ts : List Token) : Prop :=
  ts.map Token.keyword? = [some .IF, some .NOT, some .EXISTS]

/--
The clause stands in front of the name, or there is none and the name is not the word that starts
one.
-/
def Introduces (clause : List Token) (name : Token) : Prop :=
  IsClause clause ∨ clause = [] ∧ ¬name.isKeyword .IF

theorem Introduces.any_isKeyword {clause : List Token} {name : Token} (h : Introduces clause name) :
    clause.any (·.isKeyword .IF) ↔ IsClause clause := by
  obtain h | ⟨rfl, -⟩ := h
  · refine iff_of_true ?_ h
    unfold IsClause at h
    cases clause with
    | nil => contradiction
    | cons t ts =>
      have ht : t.keyword? = some .IF := (List.cons.inj h).1
      simp [Token.isKeyword, ht]
  · exact iff_of_false nofun nofun

theorem Tree.leaves_map_token {ρ : Type} (ts : List Token) :
    leaves (ts.map .token : List (Element ρ)) = ts := by
  induction ts with
  | nil => rfl
  | cons t ts ih =>
    rw [List.map_cons, leaves, ih]
    rfl

namespace Parser

variable {ρ : Type} {c : Setting} {s t : ParserState ρ} {rule nameRule : ρ}
  {starts : Lookahead → Bool} {what : String}

/--
What creates a database, whatever the production is called and whatever its name may be.
-/
def creation (rule nameRule : ρ) (starts : Lookahead → Bool) (what : String) : Parser ρ Unit :=
  production rule do
    bumpN 2
    afterKeyword .IF do
      expectKeyword .NOT
      expectKeyword .EXISTS
    production nameRule (expectIf starts what)
    bumpBalanced

theorem exists_of_expectIf {p : Token → Bool} [Announces starts p] (heof : c.stop.kind = .eof)
    (h : (expectIf starts what : Parser ρ Unit) c s = .ok () t) :
    ∃ x, p x ∧ Grows s t [.token x] := by
  rw [expectIf_eq] at h
  split at h
  · rename_i hstarts
    obtain ⟨x, xs, hrest, hx⟩ := Announces.cons (a := c.ahead s.rest) heof hstarts
    cases h
    exact ⟨x, hx, .advance hrest⟩
  · contradiction

theorem exists_of_expectKeyword {word : Keyword} (heof : c.stop.kind = .eof)
    (h : (expectKeyword word : Parser ρ Unit) c s = .ok () t) :
    ∃ x, x.keyword? = some word ∧ Grows s t [.token x] := by
  obtain ⟨x, hx, hgrows⟩ := exists_of_expectIf (p := (·.isKeyword word)) heof h
  exact ⟨x, eq_of_beq hx, hgrows⟩

theorem exists_of_bumpBalanced (h : (bumpBalanced : Parser ρ Unit) c s = .ok () t) :
    ∃ ts : List Token, Grows s t (ts.map .token) := by
  unfold bumpBalanced bumpBalancedUntil at h
  rw [ahead_bind] at h
  cases hrun : Lookahead.balancedRun (fun _ => false) [] 0 (c.ahead s.rest).rest with
  | mk n missing =>
    rw [hrun] at h
    obtain ⟨_, u, hu, h⟩ := bind_eq_ok h
    cases missing with
    | some closer => contradiction
    | none =>
      cases h
      exact ⟨_, .bumpN hu⟩

theorem exists_of_clause (heof : c.stop.kind = .eof)
    (h : (afterKeyword .IF (do expectKeyword .NOT; expectKeyword .EXISTS) : Parser ρ Unit) c s =
      .ok () t) :
    ∃ clause : List Token, Grows s t (clause.map .token) ∧
      (IsClause clause ∨ clause = [] ∧ (c.ahead s.rest).isKeyword 0 .IF = false) := by
  unfold afterKeyword eatKeyword at h
  obtain ⟨taken, u, hu, h⟩ := bind_eq_ok h
  rw [eatIf_eq] at hu
  split at hu
  · rename_i hword
    cases hu
    obtain ⟨x, xs, hrest, hx⟩ := Announces.cons (q := (·.isKeyword 0 .IF)) heof hword
    obtain ⟨_, v, hv, h⟩ := bind_eq_ok h
    obtain ⟨y, hy, hnot⟩ := exists_of_expectKeyword heof hv
    obtain ⟨z, hz, hexists⟩ := exists_of_expectKeyword heof h
    refine ⟨[x, y, z], (Grows.advance hrest).trans (hnot.trans hexists), .inl ?_⟩
    simp [IsClause, eq_of_beq hx, hy, hz]
  · rename_i hword
    cases hu
    cases h
    exact ⟨[], .refl _, .inr ⟨rfl, Bool.not_eq_true _ ▸ hword⟩⟩

def Creates (nameRule : ρ) (n : Node ρ) (head clause : List Token) (name : Token)
    (options : List Token) : Prop :=
  ∃ span, n.children =
    head.map .token ++ (clause.map .token ++
      (.node ⟨nameRule, span, [.token name]⟩ :: options.map .token))

theorem exists_of_creation {p : Token → Bool} [Announces starts p] (heof : c.stop.kind = .eof)
    {x y : Token} {ts : List Token} (hs : s.rest = x :: y :: ts)
    (h : creation rule nameRule starts what c s = .ok () t) :
    ∃ n clause name options, n.rule = rule ∧ Creates nameRule n [x, y] clause name options ∧
      Introduces clause name ∧ Grows s t [.node n] := by
  obtain ⟨v, hbody, rfl⟩ := production_ok h
  obtain ⟨_, s₁, hhead, hbody⟩ := bind_eq_ok hbody
  obtain ⟨_, s₂, hclause, hbody⟩ := bind_eq_ok hbody
  obtain ⟨_, s₃, hname, hoptions⟩ := bind_eq_ok hbody
  obtain ⟨w, hword, rfl⟩ := production_ok hname
  have hhead := Grows.bumpN hhead
  obtain ⟨clause, hclause, hkind⟩ := exists_of_clause heof hclause
  obtain ⟨name, -, hname⟩ := exists_of_expectIf heof hword
  have hfront : s₂.rest = name :: w.rest := hname.rest
  obtain ⟨nameSpan, hname⟩ := hname.close
  obtain ⟨options, hoptions⟩ := exists_of_bumpBalanced hoptions
  obtain ⟨span, hgrows⟩ := (hhead.trans (hclause.trans (hname.trans hoptions))).close
  have htake : (s.build (·.start rule)).rest.take 2 = [x, y] := by
    change s.rest.take 2 = _
    rw [hs]
    rfl
  rw [htake] at hgrows
  refine ⟨_, clause, name, options, rfl, ⟨nameSpan, rfl⟩, ?_, hgrows⟩
  obtain h | ⟨rfl, hnot⟩ := hkind
  · exact .inl h
  · refine .inr ⟨rfl, ?_⟩
    have hrest : s₁.rest = name :: w.rest := hclause.rest.trans hfront
    rw [hrest] at hnot
    exact Bool.eq_false_iff.1 hnot

namespace Creates

variable {n : Node ρ} {head clause options : List Token} {name : Token}

theorem leaves_eq (h : Creates nameRule n head clause name options) :
    n.leaves = head ++ (clause ++ name :: options) := by
  obtain ⟨span, hchildren⟩ := h
  rw [Node.leaves_eq, hchildren, leaves_append, leaves_append, leaves_map_token, leaves_map_token,
    ← List.singleton_append, leaves_append, leaves_node, leaves_map_token]
  rfl

theorem tokens_eq (h : Creates nameRule n head clause name options) :
    n.tokens = head ++ (clause ++ options) := by
  obtain ⟨span, hchildren⟩ := h
  unfold Node.tokens
  rw [hchildren]
  simp [List.filterMap_append, List.filterMap_map, List.filterMap_cons, Function.comp_def,
    Element.token?]

theorem childNodes_eq (h : Creates nameRule n head clause name options) :
    ∃ m, n.childNodes = [m] ∧ m.rule = nameRule ∧ m.children = [.token name] := by
  obtain ⟨span, hchildren⟩ := h
  refine ⟨⟨nameRule, span, [.token name]⟩, ?_, rfl, rfl⟩
  unfold Node.childNodes
  rw [hchildren]
  simp [List.filterMap_append, List.filterMap_map, Function.comp_def, Element.node?]

theorem hasKeyword_if (h : Creates nameRule n head clause name options)
    (hhead : ∀ t ∈ head, ¬t.isKeyword .IF) (hclause : Introduces clause name) :
    n.hasKeyword .IF ↔ IsClause clause ∨ ∃ t ∈ options, t.isKeyword .IF := by
  have hnone : head.any (·.isKeyword .IF) = false := by simpa using hhead
  unfold Node.hasKeyword
  rw [h.tokens_eq, List.any_append, List.any_append, hnone, Bool.false_or, Bool.or_eq_true,
    hclause.any_isKeyword, List.any_eq_true]

end Creates

end Parser

namespace ScriptForm

open SqlScript.Parser

variable {ρ : Type} [DecidableEq ρ] {form : ScriptForm ρ} {statement : Parser ρ Unit}
  {flavor : Flavor} {options : Options} {source : String} {tree : SyntaxTree ρ} {n : Node ρ}

/-- A statement of a script is a separator, or it is what the parser of statements makes of the
tokens in its span. -/
theorem exists_run_of_mem_statementsIn
    (hstatement : Excisable (.ofFlavor flavor) options.maxDepth statement)
    (htree : parseTree (form.script statement) (.ofFlavor flavor) source options = .ok tree)
    (hn : n ∈ form.statementsIn tree.root) :
    (∃ semicolon, inPiece n.span (tokenize (.ofFlavor flavor) source).dropLast = [semicolon]) ∨
      ∃ ts post b b', inPiece n.span (tokenize (.ofFlavor flavor) source).dropLast = ts ∧
        statement (settingFor (.ofFlavor flavor) options source) ⟨ts ++ post, b⟩ =
          .ok () ⟨post, b'⟩ ∧
        b'.pending.toList = b.pending.toList ++ [.node n] := by
  obtain ⟨hvalid, hrun⟩ := run_eq_ok.1 (parseTree_eq_ok.1 htree).1
  obtain ⟨b, hentries, hin⟩ := exists_entries_of_script hstatement.toJoinable rfl
    (fun _ => Token.kind_ne_eof) hrun
  obtain ⟨ns, hns, hstands⟩ :=
    exists_stands hstatement rfl (fun _ => Token.kind_ne_eof) rfl hentries
  have hns : form.statementsIn tree.root = ns := hin.trans hns
  rw [Token.dropLast_tokenize] at *
  rw [hns] at hn
  generalize htokens : Token.scan (.ofFlavor flavor) 0 none source.toList = tokens at *
  cases hstands n hn with
  | @empty pre post semicolon hkind =>
    left
    have htokens : Token.scan (.ofFlavor flavor) 0 none source.toList =
        pre ++ ([semicolon] ++ post) := htokens
    exact ⟨semicolon, (Token.pieces_of_scan htokens).1⟩
  | statement ht hpost hb h hpending =>
    right
    rw [← htokens] at hvalid
    have hspan := span_eq hstatement hvalid htokens hb h hpending
    have hpieces := (Token.pieces_of_scan htokens).1
    rw [← hspan] at hpieces
    exact ⟨_, _, _, _, hpieces, h, hpending⟩

end ScriptForm

def databaseWords : Flavor → List Keyword
  | .mySql => [.DATABASE, .SCHEMA]
  | .postgreSql => [.DATABASE]

def createsDatabase (flavor : Flavor) : List Token → Bool
  | first :: second :: _ => first.isKeyword .CREATE && second.isOneOf (databaseWords flavor)
  | _ => false

theorem exists_of_createsDatabase {flavor : Flavor} {ts : List Token}
    (h : createsDatabase flavor ts) :
    ∃ first second rest, ts = first :: second :: rest ∧ first.isKeyword .CREATE ∧
      second.isOneOf (databaseWords flavor) := by
  match ts, h with
  | first :: second :: rest, h =>
    obtain ⟨hfirst, hsecond⟩ := (Bool.and_eq_true _ _).mp h
    exact ⟨first, second, rest, rfl, hfirst, hsecond⟩

theorem Token.isKeyword_of_isOneOf {t : Token} {word : Keyword} (h : t.isOneOf [word]) :
    t.isKeyword word := by
  unfold isOneOf at h
  unfold isKeyword
  cases hword : t.keyword? <;> simp_all

theorem not_if_of_createsDatabase {flavor : Flavor} {first second : Token}
    (hfirst : first.isKeyword .CREATE) (hsecond : second.isOneOf (databaseWords flavor)) :
    ∀ t ∈ [first, second], ¬t.isKeyword .IF := by
  have hsecond : second.isOneOf [.DATABASE, .SCHEMA] := by
    cases flavor with
    | mySql => exact hsecond
    | postgreSql =>
      exact second.isOneOf_of_isKeyword (Token.isKeyword_of_isOneOf hsecond) (by decide)
  intro t ht hif
  have hif : t.keyword? = some .IF := eq_of_beq hif
  rw [List.mem_pair] at ht
  obtain rfl | rfl := ht
  · rw [Token.isKeyword, hif] at hfirst
    contradiction
  · rw [Token.isOneOf, hif] at hsecond
    contradiction

def Statement.CreatesNamed (source : String) (s : Statement) (ts : List Token) : Prop :=
  ∃ create first second clause name options, s = .createDatabase create ∧
    ts = first :: second :: (clause ++ name :: options) ∧ Introduces clause name ∧
    create.name = .ofRaw (name.text source) ∧
    (create.ifNotExists ↔ IsClause clause ∨ ∃ t ∈ options, t.isKeyword .IF)

namespace Grows

variable {ρ : Type} {s : ParserState ρ} {ts post : List Token} {b : Builder ρ} {n m : Node ρ}

theorem eq_of_pending (h : Grows s ⟨post, b⟩ [.node n])
    (hpending : b.pending.toList = s.builder.pending.toList ++ [.node m]) : n = m := by
  have heq := h.pending.symm.trans hpending
  rw [List.append_cancel_left_eq] at heq
  exact Element.node.inj (List.cons.inj heq).1

theorem leaves_of_node (h : Grows s ⟨post, b⟩ [.node n]) (hs : s.rest = ts ++ post) :
    ts = n.leaves := by
  have hrest : s.rest = leaves [.node n] ++ post := h.rest
  rw [hs, leaves_node, ← Node.leaves_eq, List.append_cancel_right_eq] at hrest
  exact hrest

end Grows

theorem createsNamed_of_creates {ρ : Type} {nameRule : ρ} {flavor : Flavor} {source : String}
    {c : Context} {text : List Char} {n m : Node ρ} {first second name : Token}
    {clause options : List Token}
    (h : Parser.Creates nameRule n [first, second] clause name options)
    (hfirst : first.isKeyword .CREATE) (hsecond : second.isOneOf (databaseWords flavor))
    (hclause : Introduces clause name) (hn : (Element.node n).Laid text) (hm : m ∈ n.childNodes)
    (hname : m.children = [.token name]) (hsource : c.source = source) :
    Statement.CreatesNamed source
      (.createDatabase ⟨c.excerptOf n, c.identifier m, n.hasKeyword .IF⟩) n.leaves := by
  have hspan : m.span = name.span := ((hn.child hm).nodes rfl (.refl m)).span_of_singleton hname
  refine ⟨_, first, second, clause, name, options, rfl, h.leaves_eq, hclause, ?_,
    h.hasKeyword_if (not_if_of_createsDatabase hfirst hsecond) hclause⟩
  change Identifier.ofRaw (m.span.slice c.source) = _
  rw [hspan, hsource]
  rfl

namespace MySql

open SqlScript.Parser

theorem ofLookahead?_create {a : Lookahead} (h : a.isKeyword 0 .CREATE) :
    Family.ofLookahead? a = some .definition := by
  have hkind : (a.token 0).kind = .keyword .CREATE := Lookahead.kind_of_isKeyword h
  have hparen : (TokenKind.keyword .CREATE).alike .leftParen = false := rfl
  simp [Family.ofLookahead?, Family.keywords, Lookahead.isKind, Lookahead.kind, hparen,
    Lookahead.isKeyword, Token.isKeyword, Lookahead.isOneOf, Token.isOneOf, Token.keyword?, hkind]

variable {c : Setting} {t : ParserState Rule} {b : Builder Rule} {first second : Token}
  {ts : List Token}

theorem exists_creation {nested : Goal → Parser Rule Unit} (heof : c.stop.kind = .eof)
    (hfirst : first.isKeyword .CREATE) (hsecond : second.isOneOf (databaseWords .mySql))
    (h : statement nested c ⟨first :: second :: ts, b⟩ = .ok () t) :
    ∃ n m k clause name options, Grows ⟨first :: second :: ts, b⟩ t [.node n] ∧
      n.rule = .sqlStatement ∧ n.children = [.node m] ∧ m.rule = .ddlStatement ∧
      m.children = [.node k] ∧ k.rule = .createDatabase ∧
      Creates .uid k [first, second] clause name options ∧ Introduces clause name := by
  obtain ⟨u, hu, rfl⟩ := production_ok h
  have hfamily : Family.ofLookahead? (c.ahead (first :: second :: ts)) = some .definition :=
    ofLookahead?_create hfirst
  have hseen : ((c.ahead (first :: second :: ts)).isKeyword 0 .CREATE &&
      (c.ahead (first :: second :: ts)).isOneOf 1 [.DATABASE, .SCHEMA]) = true :=
    (Bool.and_eq_true _ _).mpr ⟨hfirst, hsecond⟩
  simp only [sees_bind, ParserState.rest_build, hfamily] at hu
  obtain ⟨v, hv, rfl⟩ := production_ok hu
  simp only [sees_bind, ParserState.rest_build, hseen] at hv
  obtain ⟨k, clause, name, options, hrule, hcreates, hclause, hgrows⟩ :=
    exists_of_creation heof rfl hv
  obtain ⟨_, hgrows⟩ := hgrows.close
  obtain ⟨_, hgrows⟩ := hgrows.close
  exact ⟨_, _, k, clause, name, options, hgrows, rfl, rfl, rfl, rfl, hrule, hcreates, hclause⟩

theorem readStatement_creation {c : Context} {root n m k : Node Rule} (hn : n.rule = .sqlStatement)
    (hm : n.children = [.node m]) (hmrule : m.rule = .ddlStatement) (hk : m.children = [.node k])
    (hkrule : k.rule = .createDatabase) {head clause options : List Token} {name : Token}
    (h : Creates .uid k head clause name options) :
    ∃ i, i ∈ k.childNodes ∧ i.children = [.token name] ∧
      readStatement c root n =
        .createDatabase ⟨c.excerptOf k, c.identifier i, k.hasKeyword .IF⟩ := by
  obtain ⟨i, hnodes, hirule, hichildren⟩ := h.childNodes_eq
  refine ⟨i, by simp [hnodes], hichildren, ?_⟩
  have hfirst : n.firstChild? = some m := by
    simp [Node.firstChild?, Node.childNodes, hm, Element.node?]
  have hcreate : m.child? .createDatabase = some k := by
    simp [Node.child?, Node.findChild?, Node.childNodes, hk, Element.node?, hkrule]
  have huid : k.child? .uid = some i := by
    simp [Node.child?, Node.findChild?, hnodes, hirule]
  simp [readStatement, Read.statementOf, hn, hfirst, Read.statementOfFamily, hmrule, hcreate,
    Read.createDatabase?, huid]

theorem readStatement_createsNamed {source : String} {options : Options} {tree : SyntaxTree Rule}
    (htree : Parser.parseTree (form.script (statement (parser options.maxDepth)))
      (.ofFlavor .mySql) source options = .ok tree)
    {n : Node Rule} (hn : n ∈ form.statementsIn tree.root)
    (h : createsDatabase .mySql
      (inPiece n.span (tokenize (.ofFlavor .mySql) source).dropLast)) :
    (readStatement (.ofString source options.baseline .mySql) tree.root n).CreatesNamed source
      (inPiece n.span (tokenize (.ofFlavor .mySql) source).dropLast) := by
  obtain ⟨semicolon, hpiece⟩ | ⟨_, post, b, b', rfl, hrun, hpending⟩ :=
    ScriptForm.exists_run_of_mem_statementsIn (excisable_statement options.maxDepth) htree hn
  · rw [hpiece] at h
    contradiction
  · obtain ⟨first, second, rest, hpiece, hfirst, hsecond⟩ := exists_of_createsDatabase h
    rw [hpiece] at hrun ⊢
    obtain ⟨n', m, k, clause, name, opts, hgrows, hnrule, hm, hmrule, hk, hkrule, hcreates,
      hclause⟩ := exists_creation rfl hfirst hsecond hrun
    obtain rfl := hgrows.eq_of_pending hpending
    obtain ⟨i, hi, hichildren, hread⟩ := readStatement_creation hnrule hm hmrule hk hkrule hcreates
    have hlaid := (Parser.laid_of_parseTree (builds_script options.maxDepth) htree).1.of_contains
      (ScriptForm.contains_of_mem_statementsIn hn)
    have hlaid := (hlaid.child (m := m) (by simp [Node.childNodes_eq, hm])).child (m := k)
      (by simp [Node.childNodes_eq, hk])
    have hleaves : first :: second :: rest = n'.leaves := hgrows.leaves_of_node rfl
    rw [Node.leaves_eq, hm, leaves_node, hk, leaves_node, ← Node.leaves_eq] at hleaves
    rw [hread, hleaves]
    exact createsNamed_of_creates hcreates hfirst hsecond hclause hlaid hi hichildren rfl

end MySql

namespace Postgres

open SqlScript.Parser

theorem statement?_create (nested : Goal → Parser Rule Unit) {a : Lookahead}
    (hcreate : a.isKeyword 0 .CREATE) (hdatabase : a.isKeyword 1 .DATABASE) :
    statement? nested a = some createDatabase := by
  have hkind : (a.token 0).kind = .keyword .CREATE := Lookahead.kind_of_isKeyword hcreate
  have hparen : (TokenKind.keyword .CREATE).alike .leftParen = false := rfl
  simp [statement?, hcreate, hdatabase, Lookahead.keyword?, Token.keyword?, Lookahead.isKind,
    Lookahead.kind, hkind, hparen]

variable {c : Setting} {t : ParserState Rule} {b : Builder Rule} {first second : Token}
  {ts : List Token}

theorem exists_creation {nested : Goal → Parser Rule Unit} (heof : c.stop.kind = .eof)
    (hfirst : first.isKeyword .CREATE) (hsecond : second.isOneOf (databaseWords .postgreSql))
    (h : statement nested c ⟨first :: second :: ts, b⟩ = .ok () t) :
    ∃ n k clause name options, Grows ⟨first :: second :: ts, b⟩ t [.node n] ∧
      n.rule = .stmt ∧ n.children = [.node k] ∧ k.rule = .createdbStmt ∧
      Creates .colId k [first, second] clause name options ∧ Introduces clause name := by
  obtain ⟨u, hu, rfl⟩ := production_ok h
  have hbody : statement? nested (c.ahead (first :: second :: ts)) = some createDatabase :=
    statement?_create nested hfirst (Token.isKeyword_of_isOneOf hsecond)
  simp only [sees_bind, ParserState.rest_build, hbody] at hu
  obtain ⟨k, clause, name, options, hrule, hcreates, hclause, hgrows⟩ :=
    exists_of_creation heof rfl hu
  obtain ⟨_, hgrows⟩ := hgrows.close
  exact ⟨_, k, clause, name, options, hgrows, rfl, rfl, hrule, hcreates, hclause⟩

theorem readStatement_creation {c : Context} {root n k : Node Rule} (hn : n.rule = .stmt)
    (hk : n.children = [.node k]) (hkrule : k.rule = .createdbStmt)
    {head clause options : List Token} {name : Token}
    (h : Creates .colId k head clause name options) :
    ∃ i, i ∈ k.childNodes ∧ i.children = [.token name] ∧
      readStatement c root n =
        .createDatabase ⟨c.excerptOf k, c.identifier i, k.hasKeyword .IF⟩ := by
  obtain ⟨i, hnodes, hirule, hichildren⟩ := h.childNodes_eq
  refine ⟨i, by simp [hnodes], hichildren, ?_⟩
  have hfirst : n.firstChild? = some k := by
    simp [Node.firstChild?, Node.childNodes, hk, Element.node?]
  have hcolId : k.child? .colId = some i := by
    simp [Node.child?, Node.findChild?, hnodes, hirule]
  simp [readStatement, Read.statementOf, hn, hfirst, Read.structured?, hkrule,
    Read.createDatabase?, hcolId]

theorem readStatement_createsNamed {source : String} {options : Options} {tree : SyntaxTree Rule}
    (htree : Parser.parseTree (form.script (statement (parser options.maxDepth)))
      (.ofFlavor .postgreSql) source options = .ok tree)
    {n : Node Rule} (hn : n ∈ form.statementsIn tree.root)
    (h : createsDatabase .postgreSql
      (inPiece n.span (tokenize (.ofFlavor .postgreSql) source).dropLast)) :
    (readStatement (.ofString source options.baseline .postgreSql) tree.root n).CreatesNamed source
      (inPiece n.span (tokenize (.ofFlavor .postgreSql) source).dropLast) := by
  obtain ⟨semicolon, hpiece⟩ | ⟨_, post, b, b', rfl, hrun, hpending⟩ :=
    ScriptForm.exists_run_of_mem_statementsIn (excisable_statement options.maxDepth) htree hn
  · rw [hpiece] at h
    contradiction
  · obtain ⟨first, second, rest, hpiece, hfirst, hsecond⟩ := exists_of_createsDatabase h
    rw [hpiece] at hrun ⊢
    obtain ⟨n', k, clause, name, opts, hgrows, hnrule, hk, hkrule, hcreates, hclause⟩ :=
      exists_creation rfl hfirst hsecond hrun
    obtain rfl := hgrows.eq_of_pending hpending
    obtain ⟨i, hi, hichildren, hread⟩ := readStatement_creation hnrule hk hkrule hcreates
    have hlaid := (Parser.laid_of_parseTree (builds_script options.maxDepth) htree).1.of_contains
      (ScriptForm.contains_of_mem_statementsIn hn)
    have hlaid := hlaid.child (m := k) (by simp [Node.childNodes_eq, hk])
    have hleaves : first :: second :: rest = n'.leaves := hgrows.leaves_of_node rfl
    rw [Node.leaves_eq, hk, leaves_node, ← Node.leaves_eq] at hleaves
    rw [hread, hleaves]
    exact createsNamed_of_creates hcreates hfirst hsecond hclause hlaid hi hichildren rfl

end Postgres

theorem Context.span_excerptOf {ρ : Type} {source : String} (baseline : Nat) (flavor : Flavor)
    {n : Node ρ} (h : (Element.node n).Laid source.toList) :
    ((Context.ofString source baseline flavor).excerptOf n).span = n.span :=
  span_excerpt h.span

/--
A statement that starts like one that creates a database does so. It is said to put up with a
database of the name if and only if `IF NOT EXISTS` stands in front of the name, or the word `IF`
anywhere behind it.
-/
theorem parse_createDatabase {flavor : Flavor} {source : String} {options : Options}
    {statements : List Statement} (h : parse flavor source options = .ok statements)
    {s : Statement} (hs : s ∈ statements)
    (hcreates : createsDatabase flavor
      (inPiece s.excerpt.span (tokenize (.ofFlavor flavor) source).dropLast)) :
    s.CreatesNamed source
      (inPiece s.excerpt.span (tokenize (.ofFlavor flavor) source).dropLast) := by
  cases flavor with
  | mySql =>
    obtain ⟨tree, htree, rfl⟩ := MySql.parse_eq_ok.1 h
    obtain ⟨n, hn, rfl⟩ := List.mem_map.1 hs
    have hlaid := (Parser.laid_of_parseTree (MySql.builds_script options.maxDepth) htree).1
    have hspan := Context.span_excerptOf options.baseline .mySql
      (hlaid.of_contains (ScriptForm.contains_of_mem_statementsIn hn))
    rw [MySql.excerpt_of_mem_statementsIn htree hn, hspan] at hcreates ⊢
    exact MySql.readStatement_createsNamed htree hn hcreates
  | postgreSql =>
    obtain ⟨tree, htree, rfl⟩ := Postgres.parse_eq_ok.1 h
    obtain ⟨n, hn, rfl⟩ := List.mem_map.1 hs
    have hlaid := (Parser.laid_of_parseTree (Postgres.builds_script options.maxDepth) htree).1
    have hspan := Context.span_excerptOf options.baseline .postgreSql
      (hlaid.of_contains (ScriptForm.contains_of_mem_statementsIn hn))
    rw [Postgres.excerpt_of_mem_statementsIn htree hn, hspan] at hcreates ⊢
    exact Postgres.readStatement_createsNamed htree hn hcreates

/-- The name of the owner is `if`. -/
theorem parse_createDatabase_owner :
    ∃ statements s, parse .postgreSql "CREATE DATABASE d OWNER if" {} = .ok statements ∧
      s ∈ statements ∧
      createsDatabase .postgreSql
        (inPiece s.excerpt.span (tokenize .postgreSql "CREATE DATABASE d OWNER if").dropLast) ∧
      s.CreatesNamed "CREATE DATABASE d OWNER if"
        (inPiece s.excerpt.span (tokenize .postgreSql "CREATE DATABASE d OWNER if").dropLast) := by
  have hok : (parse .postgreSql "CREATE DATABASE d OWNER if" {}).toOption.any
      fun statements => statements.any (·.excerpt.span = ⟨0, 26⟩) := by
    decide +kernel
  obtain ⟨statements, hparse, hany⟩ := exists_ok_of_any hok
  obtain ⟨s, hs, hspan⟩ := List.any_eq_true.1 hany
  have hcreates : createsDatabase .postgreSql
      (inPiece s.excerpt.span (tokenize .postgreSql "CREATE DATABASE d OWNER if").dropLast) := by
    rw [of_decide_eq_true hspan]
    decide +kernel
  exact ⟨statements, s, hparse, hs, hcreates, parse_createDatabase hparse hs hcreates⟩

end SqlScript
