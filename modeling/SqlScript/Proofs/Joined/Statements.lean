import SqlScript.Proofs.Fidelity
import SqlScript.Proofs.Joined.Script
import SqlScript.Proofs.Joined.Tokens
import SqlScript.Proofs.MySql.Heedless
import SqlScript.Proofs.MySql.Recast
import SqlScript.Proofs.Postgres.Heedless
import SqlScript.Proofs.Postgres.Recast
import SqlScript.Script

/-!
Scripts can be joined: two scripts with a separator between them have the statements of both, those
of the second one further down.
-/

namespace SqlScript

open SqlScript.Tree
open Token (tokenize properlyNested unfinished)

/--
The place that is some lines and bytes further down, in the same column.
-/
def Position.lower (lines bytes : Nat) (p : Position) : Position where
  line := p.line + lines
  column := p.column
  offset := p.offset + bytes

def Excerpt.lower (lines bytes : Nat) (e : Excerpt) : Excerpt :=
  { e with start := e.start.lower lines bytes, stop := e.stop.lower lines bytes }

theorem Position.behind_append {lines : List Char} (h : lines.getLast? = some '\n')
    (baseline : Nat) (before : List Char) :
    behind baseline (lines ++ before) =
      (behind baseline before).lower (lines.count '\n') (Token.byteLength lines) := by
  have hcolumn : (lines ++ before).reverse.takeWhile (· ≠ '\n') =
      before.reverse.takeWhile (· ≠ '\n') := by
    obtain ⟨init, rfl⟩ := List.getLast?_eq_some_iff.1 h
    rw [List.reverse_append, List.reverse_append, List.takeWhile_append]
    split
    · rename_i hall
      rw [(List.takeWhile_prefix _).eq_of_length hall]
      exact List.append_nil _
    · rfl
  unfold behind lower
  rw [hcolumn, List.count_append, Token.byteLength_append]
  simp only [Position.mk.injEq, true_and]
  omega

/--
What the first script has in the text, the second one has elsewhere.
-/
structure Context.Moves (text : List Char) (g : Span → Span) (f : Excerpt → Excerpt)
    (c c' : Context) : Prop where
  excerpt {s : Span} : s.Proper text → c'.excerpt (g s) = f (c.excerpt s)
  slice {s : Span} : s.Proper text → (g s).slice c'.source = s.slice c.source
  merge (s t : Span) : g (s.merge t) = (g s).merge (g t)

theorem Context.Moves.recasts {text : List Char} {g : Span → Span} {f : Excerpt → Excerpt}
    {c c' : Context} (h : c.Moves text g f c') : c.Recasts text (.relocation g) f id c' where
  excerpt := h.excerpt
  slice := h.slice
  merge := h.merge
  transparent := Text.transparent_id

namespace Context

variable (s₁ s₂ : String) (baseline : Nat) (flavor : Flavor)

theorem excerpt_first {s : Span} (hs : s.Proper s₁.toList) :
    (ofString (s₁ ++ s₂) baseline flavor).excerpt s = (ofString s₁ baseline flavor).excerpt s := by
  obtain ⟨before, inside, after, htext, rfl⟩ := exists_cut hs
  have hjoined : (s₁ ++ s₂).toList = before ++ inside ++ (after ++ s₂.toList) := by
    rw [String.toList_append, htext, List.append_assoc]
  rw [excerpt_ofString hjoined, excerpt_ofString htext]

theorem moves_first :
    (ofString s₁ baseline flavor).Moves s₁.toList id id (ofString (s₁ ++ s₂) baseline flavor) where
  excerpt hs := excerpt_first s₁ s₂ baseline flavor hs
  slice hs := congrArg Excerpt.text (excerpt_first s₁ s₂ baseline flavor hs)
  merge _ _ := rfl

variable {s₁} (h : s₁.toList.getLast? = some '\n')

include h

theorem excerpt_second {s : Span} (hs : s.Proper s₂.toList) :
    (ofString (s₁ ++ s₂) baseline flavor).excerpt (s.shift s₁.utf8ByteSize) =
      ((ofString s₂ baseline flavor).excerpt s).lower (s₁.toList.count '\n') s₁.utf8ByteSize := by
  obtain ⟨before, inside, after, htext, rfl⟩ := exists_cut hs
  have hjoined : (s₁ ++ s₂).toList = s₁.toList ++ before ++ inside ++ after := by
    simp [htext]
  have hspan : Span.shift s₁.utf8ByteSize
      ⟨Token.byteLength before, Token.byteLength (before ++ inside)⟩ =
      ⟨Token.byteLength (s₁.toList ++ before), Token.byteLength (s₁.toList ++ before ++ inside)⟩ := by
    simp [Span.shift, Token.byteLength_append, Token.byteLength_toList]
  rw [hspan, excerpt_ofString hjoined, excerpt_ofString htext, List.append_assoc,
    Position.behind_append h, Position.behind_append h, Token.byteLength_toList]
  rfl

theorem moves_second :
    (ofString s₂ baseline flavor).Moves s₂.toList (Span.shift s₁.utf8ByteSize)
      (Excerpt.lower (s₁.toList.count '\n') s₁.utf8ByteSize)
      (ofString (s₁ ++ s₂) baseline flavor) where
  excerpt hs := excerpt_second s₂ baseline flavor h hs
  slice hs := congrArg Excerpt.text (excerpt_second s₂ baseline flavor h hs)
  merge s t := (Span.merge_shift _ s t).symm

end Context

theorem Token.findSome?_invalid? (ts : List Token) :
    ts.findSome? Parser.begin.invalid? = none ↔ ∀ t ∈ ts, t.kind.isValid := by
  rw [List.findSome?_eq_none_iff]
  apply forall₂_congr
  intro t _
  unfold Parser.begin.invalid? TokenKind.isValid
  cases t.kind <;> simp

theorem Token.dropLast_tokenize (d : Dialect) (source : String) :
    (tokenize d source).dropLast = scan d 0 none source.toList :=
  List.dropLast_concat

theorem Token.kind_ne_eof {d : Dialect} {source : String} {t : Token}
    (h : t ∈ (tokenize d source).dropLast) : t.kind ≠ .eof := by
  rw [Token.dropLast_tokenize] at h
  exact scan_ne_eof _ _ _ t h

def Token.separator (s : String) : Token :=
  ⟨.semicolon, s.utf8ByteSize + 1, s.utf8ByteSize + 2⟩

theorem Token.dropLast_tokenize_joined {d : Dialect} {s₁ : String}
    (h : ∀ t ∈ (tokenize d s₁).dropLast, t.kind.isValid) (s₂ : String) :
    (tokenize d (s₁ ++ "\n;\n" ++ s₂)).dropLast =
      (tokenize d s₁).dropLast ++ separator s₁ ::
        (tokenize d s₂).dropLast.map (relocate (Span.shift (s₁.utf8ByteSize + 3))) := by
  rw [Token.dropLast_tokenize] at h
  rw [tokenize_joined h, List.map_dropLast, ← List.dropLast_cons_of_ne_nil,
    List.dropLast_append_of_ne_nil, Token.dropLast_tokenize]
  · rfl
  · simp
  · simp [tokenize]

namespace Parser

variable {ρ : Type} {grammar : Parser ρ Unit} {dialect : Dialect} {options : Options}
  {source : String}

def settingFor (dialect : Dialect) (options : Options) (source : String) : Setting :=
  ⟨dialect, options.maxDepth, .eof source.utf8ByteSize⟩

theorem run_eq_ok {root : Node ρ} :
    parseTree.run grammar dialect options (tokenize dialect source) = .ok root ↔
      (∀ t ∈ (tokenize dialect source).dropLast, t.kind.isValid) ∧
        answer ((grammar >>= fun _ => takeTree) (settingFor dialect options source)
          ⟨(tokenize dialect source).dropLast, .empty⟩) = .ok root := by
  have hsetting : settingOf dialect options.maxDepth (tokenize dialect source) =
      settingFor dialect options source := by
    unfold settingOf tokenize
    rw [List.getLast?_concat]
    rfl
  have hvalid : (∀ t ∈ tokenize dialect source, t.kind.isValid) ↔
      ∀ t ∈ (tokenize dialect source).dropLast, t.kind.isValid := by
    rw [Token.dropLast_tokenize]
    have heof : (Token.eof source.utf8ByteSize).kind.isValid := rfl
    unfold tokenize
    rw [List.forall_mem_append, List.forall_mem_singleton]
    exact and_iff_left heof
  rw [run_eq, hsetting, ← hvalid, ← Token.findSome?_invalid?]
  cases (tokenize dialect source).findSome? begin.invalid? with
  | none => simp [initial]
  | some failure => simp

theorem parseTree_eq_ok {tree : SyntaxTree ρ} :
    parseTree grammar dialect source options = .ok tree ↔
      parseTree.run grammar dialect options (tokenize dialect source) = .ok tree.root ∧
        tree.tokens = tokenize dialect source := by
  obtain ⟨root', tokens⟩ := tree
  unfold parseTree
  dsimp only
  cases parseTree.run grammar dialect options (tokenize dialect source) with
  | error f => simp
  | ok root => simp [eq_comm]

end Parser

/--
Statements are read alike wherever they stand, and however their words are written; the operators of
comparisons must be written the same. The reader gets the tree that the statement stands in, too.
-/
def Reading.Recastable {ρ : Type} (operator : ρ) (read : Context → Node ρ → Node ρ → Statement) :
    Prop :=
  ∀ {text : List Char} {g : Recast} {f : Excerpt → Excerpt} {w : String → String} {c c' : Context}
    {root root' n : Node ρ}, c.Recasts text g f w c' → n.Fits text w c operator →
    n.height ≤ root.height → n.height ≤ root'.height →
    read c' root' (n.recast g) = (read c root n).recast f w

def Reading.Movable {ρ : Type} (read : Context → Node ρ → Node ρ → Statement) : Prop :=
  ∀ {text : List Char} {g : Span → Span} {f : Excerpt → Excerpt} {c c' : Context}
    {root root' n : Node ρ}, c.Moves text g f c' → (Element.node n).Laid text →
    n.height ≤ root.height → n.height ≤ root'.height →
    read c' root' (n.relocate g) = (read c root n).relocate f

theorem Reading.Recastable.movable {ρ : Type} {operator : ρ}
    {read : Context → Node ρ → Node ρ → Statement} (h : Recastable operator read) : Movable read := by
  intro text g f c c' root root' n hc hn hheight hheight'
  have hfits : n.Fits text id c operator := ⟨hn, fun _ _ => rfl⟩
  rw [Node.relocate_eq, h hc.recasts hfits hheight hheight', Statement.relocate]

namespace ScriptForm

open SqlScript.Parser

variable {ρ : Type} [DecidableEq ρ] {form : ScriptForm ρ} {statement : Parser ρ Unit}
  {options : Options} {flavor : Flavor} {s₁ s₂ : String}
  {read : Context → Node ρ → Node ρ → Statement}

theorem contains_of_mem_statementsIn {root n : Node ρ} (h : n ∈ form.statementsIn root) :
    root.Contains n := by
  unfold statementsIn at h
  split at h
  · rename_i list hlist
    exact (Node.Contains.of_child? hlist).trans (.of_mem h)
  · contradiction

theorem read_relocate (hread : Reading.Movable read) {text : List Char} {g : Span → Span}
    {f : Excerpt → Excerpt} {c c' : Context} (hc : c.Moves text g f c') {root root' : Node ρ}
    (hroot : (Element.node root).Laid text)
    (hin : ∀ n ∈ form.statementsIn root, n.relocate g ∈ form.statementsIn root') :
    ((form.statementsIn root).map (Node.relocate g)).map (read c' root') =
      ((form.statementsIn root).map (read c root)).map (Statement.relocate f) := by
  rw [List.map_map, List.map_map]
  apply List.map_congr_left
  intro n hn
  have hcontains := contains_of_mem_statementsIn hn
  apply hread hc (hroot.of_contains hcontains) hcontains.height_le
  have hheight := (contains_of_mem_statementsIn (hin n hn)).height_le
  rwa [Node.height_relocate] at hheight

theorem exists_parseTree_joined
    (hstatement : Joinable (.ofFlavor flavor) options.maxDepth statement)
    (hbuilds : Builds (.ofFlavor flavor) options.maxDepth (form.script statement))
    (hread : Reading.Movable read)
    (hempty : ∀ c root semicolon, read c root (form.emptyStatement semicolon) =
      .empty (c.excerpt semicolon.span)) {tree₁ tree₂ : SyntaxTree ρ}
    (h₁ : parseTree (form.script statement) (.ofFlavor flavor) s₁ options = .ok tree₁)
    (h₂ : parseTree (form.script statement) (.ofFlavor flavor) s₂ options = .ok tree₂)
    (hnested : properlyNested (tokenize (.ofFlavor flavor) s₁).dropLast) :
    ∃ tree, parseTree (form.script statement) (.ofFlavor flavor) (s₁ ++ "\n;\n" ++ s₂) options =
        .ok tree ∧
      (form.statementsIn tree.root).map
          (read (.ofString (s₁ ++ "\n;\n" ++ s₂) options.baseline flavor) tree.root) =
        (form.statementsIn tree₁.root).map
            (read (.ofString s₁ options.baseline flavor) tree₁.root) ++
          (if unfinished (tokenize (.ofFlavor flavor) s₁).dropLast then []
            else [.empty ((Context.ofString (s₁ ++ "\n;\n" ++ s₂) options.baseline flavor).excerpt
              (Token.separator s₁).span)]) ++
          ((form.statementsIn tree₂.root).map
              (read (.ofString s₂ options.baseline flavor) tree₂.root)).map
            (Statement.relocate (.lower ((s₁ ++ "\n;\n").toList.count '\n')
              (s₁ ++ "\n;\n").utf8ByteSize)) := by
  obtain ⟨hlaid₁, -⟩ := laid_of_parseTree hbuilds h₁
  obtain ⟨hlaid₂, -⟩ := laid_of_parseTree hbuilds h₂
  obtain ⟨hvalid₁, hrun₁⟩ := run_eq_ok.1 (parseTree_eq_ok.1 h₁).1
  obtain ⟨hvalid₂, hrun₂⟩ := run_eq_ok.1 (parseTree_eq_ok.1 h₂).1
  have htokens := Token.dropLast_tokenize_joined hvalid₁ s₂
  have hkind : (Token.separator s₁).kind = .semicolon := rfl
  have hlike₁ : (settingFor (.ofFlavor flavor) options s₁).Like
      (settingFor (.ofFlavor flavor) options (s₁ ++ "\n;\n" ++ s₂)) := ⟨rfl, rfl, rfl, rfl⟩
  have hlike₂ : (settingFor (.ofFlavor flavor) options s₂).Like
      (settingFor (.ofFlavor flavor) options (s₁ ++ "\n;\n" ++ s₂)) := ⟨rfl, rfl, rfl, rfl⟩
  obtain ⟨root, hroot, hin⟩ := exists_script_joined hlike₁ hlike₂ hstatement hkind
    (s₁.utf8ByteSize + 3) ⟨[], hnested⟩ (fun _ => Token.kind_ne_eof)
    (fun _ => Token.kind_ne_eof) hrun₁ hrun₂
  rw [← htokens] at hroot
  have hvalid : ∀ t ∈ (tokenize (.ofFlavor flavor) (s₁ ++ "\n;\n" ++ s₂)).dropLast,
      t.kind.isValid := by
    rw [htokens, List.forall_mem_append, List.forall_mem_cons, List.forall_mem_map]
    exact ⟨hvalid₁, rfl, hvalid₂⟩
  refine ⟨⟨root, _⟩, parseTree_eq_ok.2 ⟨run_eq_ok.2 ⟨hvalid, hroot⟩, rfl⟩, ?_⟩
  have hsize : (s₁ ++ "\n;\n").utf8ByteSize = s₁.utf8ByteSize + 3 := by
    rw [String.utf8ByteSize_append]
    rfl
  have hmoves₁ := Context.moves_first s₁ ("\n;\n" ++ s₂) options.baseline flavor
  have hlines : (s₁ ++ "\n;\n").toList.getLast? = some '\n' := by simp
  have hmoves₂ := Context.moves_second s₂ options.baseline flavor hlines
  rw [← String.append_assoc] at hmoves₁
  rw [← hsize] at hin
  have hin₁ : ∀ n ∈ form.statementsIn tree₁.root, n.relocate id ∈ form.statementsIn root := by
    intro n hn
    rw [Node.relocate_id, hin, List.append_assoc]
    exact List.mem_append_left _ hn
  have hin₂ : ∀ n ∈ form.statementsIn tree₂.root,
      n.relocate (Span.shift (s₁ ++ "\n;\n").utf8ByteSize) ∈ form.statementsIn root := by
    intro n hn
    rw [hin]
    exact List.mem_append_right _ (List.mem_map_of_mem hn)
  have hfirst := read_relocate hread hmoves₁ hlaid₁ hin₁
  have hsecond := read_relocate hread hmoves₂ hlaid₂ hin₂
  rw [funext Node.relocate_id, funext Statement.relocate_id, List.map_id', List.map_id'] at hfirst
  dsimp only
  rw [hin, List.map_append, List.map_append, hsecond, hfirst]
  congr 2
  split
  · rfl
  · rw [List.map_singleton, hempty]

end ScriptForm

namespace MySql

theorem joinable_statement (limit : Nat) :
    Parser.Joinable (.ofFlavor .mySql) limit (statement (parser limit)) where
  respects σ hdialect hsmall hlarge := by
    exact (parser.nests_self hdialect (Nat.le_of_eq hsmall.symm)).respects_statement
  heedless t := statement.heedless (parser.heedless_query limit)

theorem builds_script (limit : Nat) :
    Parser.Builds (.ofFlavor .mySql) limit (form.script (statement (parser limit))) := by
  rw [← script_eq]
  exact script_builds limit

def readStatement (c : Context) (root n : Node Rule) : Statement :=
  Read.statementOf c (.ofTree Read.roles c root) n

theorem statementsOf_eq (c : Context) (root : Node Rule) :
    statementsOf c root = (form.statementsIn root).map (readStatement c root) := by
  unfold statementsOf ScriptForm.statementsIn
  have hlist : form.list = .sqlStatements := rfl
  rw [hlist]
  cases root.child? .sqlStatements <;> rfl

theorem parse_eq_ok {source : String} {options : Options} {statements : List Statement} :
    parse .mySql source options = .ok statements ↔
      ∃ tree, Parser.parseTree (form.script (statement (parser options.maxDepth)))
          (.ofFlavor .mySql) source options = .ok tree ∧
        (form.statementsIn tree.root).map
          (readStatement (.ofString source options.baseline .mySql) tree.root) = statements := by
  simp only [← statementsOf_eq]
  constructor
  · exact exists_of_map_eq_ok
  · rintro ⟨tree, htree, rfl⟩
    have htree : parseTree source options = .ok tree := htree
    unfold parse
    dsimp only
    rw [htree]
    rfl

theorem readStatement_empty (c : Context) (root : Node Rule) (semicolon : Token) :
    readStatement c root (form.emptyStatement semicolon) = .empty (c.excerpt semicolon.span) :=
  rfl

theorem recastable_readStatement : Reading.Recastable .comparisonOperator readStatement := by
  intro text g f w c c' root root' n hc hn hheight hheight'
  have hreader := Reader.ofDepth_recasts hc (Read.roles_recasts hc)
    (Nat.le_succ_of_le hheight) (Nat.le_succ_of_le hheight')
  exact Read.statementOf_recast hc hreader hn (Nat.le_refl _)

theorem movable_readStatement : Reading.Movable readStatement :=
  recastable_readStatement.movable

end MySql

namespace Postgres

theorem joinable_statement (limit : Nat) :
    Parser.Joinable (.ofFlavor .postgreSql) limit (statement (parser limit)) where
  respects σ hdialect hsmall hlarge := by
    have hnests : Nests σ (parser limit) (parser (0 + limit)) :=
      parser.nests (.inr rfl) (Nat.le_of_eq hsmall.symm)
    rw [Nat.zero_add] at hnests
    exact hnests.respects_statement
  heedless t := statement.heedless (parser.heedless_query limit)

theorem builds_script (limit : Nat) :
    Parser.Builds (.ofFlavor .postgreSql) limit (form.script (statement (parser limit))) := by
  rw [← script_eq]
  exact script_builds limit

def readStatement (c : Context) (root n : Node Rule) : Statement :=
  Read.statementOf c (.ofTree Read.roles c root) n

theorem statementsOf_eq (c : Context) (root : Node Rule) :
    statementsOf c root = (form.statementsIn root).map (readStatement c root) := by
  unfold statementsOf ScriptForm.statementsIn
  have hlist : form.list = .stmtmulti := rfl
  rw [hlist]
  cases root.child? .stmtmulti <;> rfl

theorem parse_eq_ok {source : String} {options : Options} {statements : List Statement} :
    parse .postgreSql source options = .ok statements ↔
      ∃ tree, Parser.parseTree (form.script (statement (parser options.maxDepth)))
          (.ofFlavor .postgreSql) source options = .ok tree ∧
        (form.statementsIn tree.root).map
          (readStatement (.ofString source options.baseline .postgreSql) tree.root) = statements := by
  simp only [← statementsOf_eq]
  constructor
  · exact exists_of_map_eq_ok
  · rintro ⟨tree, htree, rfl⟩
    have htree : parseTree source options = .ok tree := htree
    unfold parse
    dsimp only
    rw [htree]
    rfl

theorem readStatement_empty (c : Context) (root : Node Rule) (semicolon : Token) :
    readStatement c root (form.emptyStatement semicolon) = .empty (c.excerpt semicolon.span) :=
  rfl

theorem recastable_readStatement : Reading.Recastable .compareOp readStatement := by
  intro text g f w c c' root root' n hc hn hheight hheight'
  have hreader := Reader.ofDepth_recasts hc (Read.roles_recasts hc)
    (Nat.le_succ_of_le hheight) (Nat.le_succ_of_le hheight')
  exact Read.statementOf_recast hc hreader hn (Nat.le_refl _)

theorem movable_readStatement : Reading.Movable readStatement :=
  recastable_readStatement.movable

end Postgres

/--
Two scripts that are joined by a semicolon on a line of its own have the statements of the first, an
empty one if the first has no tokens or ends in a semicolon, and those of the second: as many lines
and bytes further down as there are in front of them, and otherwise unchanged. Groups must be closed
in the first script, because looking ahead for the end of a group passes over semicolons.
-/
theorem parse_joined {flavor : Flavor} {options : Options} {s₁ s₂ : String}
    {first second : List Statement} (h₁ : parse flavor s₁ options = .ok first)
    (h₂ : parse flavor s₂ options = .ok second)
    (hnested : properlyNested (tokenize (.ofFlavor flavor) s₁).dropLast) :
    parse flavor (s₁ ++ "\n;\n" ++ s₂) options =
      .ok (first ++
        (if unfinished (tokenize (.ofFlavor flavor) s₁).dropLast then []
          else [.empty ((Context.ofString (s₁ ++ "\n;\n" ++ s₂) options.baseline flavor).excerpt
            (Token.separator s₁).span)]) ++
        second.map (Statement.relocate (.lower ((s₁ ++ "\n;\n").toList.count '\n')
          (s₁ ++ "\n;\n").utf8ByteSize))) := by
  cases flavor with
  | mySql =>
    obtain ⟨tree₁, htree₁, rfl⟩ := MySql.parse_eq_ok.1 h₁
    obtain ⟨tree₂, htree₂, rfl⟩ := MySql.parse_eq_ok.1 h₂
    exact MySql.parse_eq_ok.2 (ScriptForm.exists_parseTree_joined
      (MySql.joinable_statement options.maxDepth) (MySql.builds_script options.maxDepth)
      MySql.movable_readStatement MySql.readStatement_empty htree₁ htree₂ hnested)
  | postgreSql =>
    obtain ⟨tree₁, htree₁, rfl⟩ := Postgres.parse_eq_ok.1 h₁
    obtain ⟨tree₂, htree₂, rfl⟩ := Postgres.parse_eq_ok.1 h₂
    exact Postgres.parse_eq_ok.2 (ScriptForm.exists_parseTree_joined
      (Postgres.joinable_statement options.maxDepth) (Postgres.builds_script options.maxDepth)
      Postgres.movable_readStatement Postgres.readStatement_empty htree₁ htree₂ hnested)

theorem parse_joined_comments :
    ∃ first second, parse .mySql "SELECT 'é' FROM (a) -- ;" {} = .ok first ∧
      parse .mySql "\n(SELECT 1)" {} = .ok second ∧
      properlyNested (tokenize (.ofFlavor .mySql) "SELECT 'é' FROM (a) -- ;").dropLast ∧
      parse .mySql ("SELECT 'é' FROM (a) -- ;" ++ "\n;\n" ++ "\n(SELECT 1)") {} =
        .ok (first ++
          (if unfinished (tokenize (.ofFlavor .mySql) "SELECT 'é' FROM (a) -- ;").dropLast then []
            else [.empty ((Context.ofString ("SELECT 'é' FROM (a) -- ;" ++ "\n;\n" ++ "\n(SELECT 1)")
              1 .mySql).excerpt (Token.separator "SELECT 'é' FROM (a) -- ;").span)]) ++
          second.map (Statement.relocate (.lower
            (("SELECT 'é' FROM (a) -- ;" ++ "\n;\n").toList.count '\n')
            ("SELECT 'é' FROM (a) -- ;" ++ "\n;\n").utf8ByteSize))) := by
  have hok₁ : (parse .mySql "SELECT 'é' FROM (a) -- ;" {}).isOk := by decide +kernel
  have hok₂ : (parse .mySql "\n(SELECT 1)" {}).isOk := by decide +kernel
  have hnested : properlyNested (tokenize (.ofFlavor .mySql) "SELECT 'é' FROM (a) -- ;").dropLast := by
    decide +kernel
  cases h₁ : parse .mySql "SELECT 'é' FROM (a) -- ;" {} with
  | error e =>
    rw [h₁] at hok₁
    contradiction
  | ok first =>
    cases h₂ : parse .mySql "\n(SELECT 1)" {} with
    | error e =>
      rw [h₂] at hok₂
      contradiction
    | ok second => exact ⟨first, second, rfl, rfl, hnested, parse_joined h₁ h₂ hnested⟩

end SqlScript
