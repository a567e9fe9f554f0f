import Mathlib.Data.List.Induction
import SqlScript.Proofs.Mirror.Script
import SqlScript.Proofs.Recased.Tree

/-!
Keywords and bare names may be written in letters of any case: scripts that differ in that only have
the same tree and the same statements, or are refused at the same place. What is read of a script and
of the same script in capitals is the same, but for names, literals and excerpts, which are in capitals
as well.
-/

namespace SqlScript

open SqlScript.Tree

namespace Text

theorem map_toUpper_eq_iff {xs : List Char} (hxs : ∀ x ∈ xs, Caseless (· == x)) (cs : List Char) :
    cs.map Char.toUpper = xs ↔ cs = xs := by
  induction xs generalizing cs with
  | nil => exact List.map_eq_nil_iff
  | cons x xs ih =>
    obtain ⟨hx, hxs⟩ := List.forall_mem_cons.1 hxs
    cases cs with
    | nil => simp
    | cons c cs =>
      rw [List.map_cons, List.cons.injEq, List.cons.injEq, hx.toUpper_eq_iff, ih hxs]

theorem toUpper_eq_iff_text {a : String} (ha : ∀ x ∈ a.toList, Caseless (· == x)) (s : String) :
    s.toUpper = a ↔ s = a := by
  rw [← String.toList_inj, toList_toUpper, map_toUpper_eq_iff ha, String.toList_inj]

theorem collapse_map {c : Char} (hc : Caseless (· == c)) (cs : List Char) :
    Identifier.collapse c (cs.map Char.toUpper) = (Identifier.collapse c cs).map Char.toUpper := by
  induction cs using List.twoStepInduction with
  | nil => rfl
  | singleton a => rfl
  | cons_cons a b cs ih ih' =>
    rw [List.map_cons, List.map_cons, Identifier.collapse, Identifier.collapse, ← List.map_cons,
      ih, ih' b]
    simp only [hc.toUpper_eq_iff]
    split
    · rw [List.map_cons, (hc.toUpper_eq_iff c).2 rfl]
    · rw [List.map_cons]

theorem ofRaw_toUpper (raw : String) :
    Identifier.ofRaw raw.toUpper = (Identifier.ofRaw raw).recast String.toUpper := by
  have hclosing : Caseless Identifier.closing? := by decide
  have hcloses : ∀ first close, Identifier.closing? first = some close →
      Caseless (· == close) := by
    intro first close h
    unfold Identifier.closing? at h
    split at h
    · rename_i hquote
      cases h
      simp only [Bool.or_eq_true, beq_iff_eq] at hquote
      obtain (rfl | rfl) | rfl := hquote <;> decide
    · split at h <;> cases h
      decide
  unfold Identifier.ofRaw
  rw [toList_toUpper]
  cases raw.toList with
  | nil => rfl
  | cons first inner =>
    rw [List.map_cons]
    dsimp only
    rw [hclosing.toUpper, List.getLast?_map]
    cases hclose : Identifier.closing? first with
    | none => rfl
    | some close =>
      have hcaseless := hcloses first close hclose
      cases inner.getLast? with
      | none => rfl
      | some last =>
        dsimp only [Option.map_some]
        have hlast : (last.toUpper == close) = (last == close) := hcaseless.toUpper last
        rw [hlast]
        split
        · unfold Identifier.recast
          rw [← List.map_dropLast, collapse_map hcaseless, ofList_map_toUpper]
        · rfl

theorem count?_toUpper (text : String) : count? text.toUpper = count? text := by
  have hdigit : Letterless Char.isDigit := by decide
  have hcount (digits : List Char) :
      (if digits.map Char.toUpper ≠ [] ∧ (digits.map Char.toUpper).all Char.isDigit ∧
          ofDigits (digits.map Char.toUpper) < countLimit then
        some (ofDigits (digits.map Char.toUpper)) else none) =
      if digits ≠ [] ∧ digits.all Char.isDigit ∧ ofDigits digits < countLimit then
        some (ofDigits digits) else none := by
    by_cases hall : digits.all Char.isDigit
    · have hsame : digits.map Char.toUpper = digits :=
        (List.map_congr_left fun c hc => hdigit.toUpper_eq (List.all_eq_true.1 hall c hc)).trans
          (List.map_id _)
      rw [hsame]
    · have hall' : ¬(digits.map Char.toUpper).all Char.isDigit := by
        rwa [List.all_map, show Char.isDigit ∘ Char.toUpper = Char.isDigit from
          funext hdigit.caseless.toUpper]
      rw [if_neg fun h => hall' h.2.1, if_neg fun h => hall h.2.1]
  have hunsigned (cs : List Char) (hcs : cs.head? ≠ some '+') : count? (String.ofList cs) =
      if cs ≠ [] ∧ cs.all Char.isDigit ∧ ofDigits cs < countLimit then some (ofDigits cs)
      else none := by
    unfold count?
    rw [String.toList_ofList]
    dsimp only
    split
    · exact absurd rfl hcs
    · rfl
  rw [← String.ofList_toList (s := text), ← ofList_map_toUpper]
  by_cases hhead : text.toList.head? = some '+'
  · obtain ⟨cs, hcs⟩ := List.head?_eq_some_iff.1 hhead
    have hplus : '+'.toUpper = '+' := by decide
    unfold count?
    rw [hcs, String.toList_ofList, String.toList_ofList, List.map_cons, hplus]
    exact hcount cs
  · have hhead' : (text.toList.map Char.toUpper).head? ≠ some '+' := by
      rwa [ne_eq, ← beq_iff_eq, head?_beq_map (by decide), beq_iff_eq]
    rw [hunsigned _ hhead, hunsigned _ hhead', hcount]

theorem ofText?_toUpper (text : String) :
    LogicalOperator.ofText? text.toUpper = LogicalOperator.ofText? text := by
  have hsign (a : String) (ha : ∀ x ∈ a.toList, Caseless (· == x)) :
      (some a == some text.toUpper) = (some a == some text) := by
    rw [Bool.eq_iff_iff, beq_iff_eq, beq_iff_eq, Option.some_inj, Option.some_inj, eq_comm,
      toUpper_eq_iff_text ha, eq_comm]
  unfold LogicalOperator.ofText?
  congr 1
  funext operator
  rw [sameLetters_toUpper]
  cases operator with
  | and => rw [LogicalOperator.sign?, hsign "&&" (caseless_of_all (by decide))]
  | or => rw [LogicalOperator.sign?, hsign "||" (caseless_of_all (by decide))]
  | xor => rfl

theorem transparent_toUpper : Transparent String.toUpper where
  empty := (toUpper_eq_iff_text (caseless_of_all rfl) "").2 rfl
  ofRaw := ofRaw_toUpper
  count? := count?_toUpper
  ofText? := ofText?_toUpper

end Text

def Excerpt.folded (e : Excerpt) : Excerpt :=
  { e with text := e.text.toUpper }

def Statement.folded (s : Statement) : Statement :=
  s.recast .folded String.toUpper

theorem Context.recasts_toUpper (source : String) (baseline : Nat) (flavor : Flavor) :
    (ofString source baseline flavor).Recasts source.toList .folding .folded String.toUpper
      (ofString source.toUpper baseline flavor) where
  excerpt {s} hs := by
    unfold excerpt LineIndex.positions ofString Excerpt.folded Recast.folding
    dsimp only [id_eq]
    rw [LineIndex.ofString_toUpper, Span.slice_toUpper hs]
  slice hs := Span.slice_toUpper hs
  merge _ _ := rfl
  transparent := Text.transparent_toUpper

theorem TokenKind.toUpper_of_isComparison {kind : TokenKind} (hkind : MySql.isComparison kind)
    {text : String} (htext : kind.spelledBy text) : text.toUpper = text := by
  have hmem : text ∈ ["=", "<>", "!=", "<", "<=", ">", ">=", "<=>"] := by
    cases kind
    case notEq => obtain htext | htext := (Bool.or_eq_true _ _).mp htext <;> simp [eq_of_beq htext]
    all_goals first | contradiction | simp [eq_of_beq htext]
  have hsigns : ∀ a ∈ ["=", "<>", "!=", "<", "<=", ">", ">=", "<=>"],
      a.toList.all fun x => decide (Text.Caseless (· == x)) := by
    decide
  exact (Text.toUpper_eq_iff_text (Text.caseless_of_all (hsigns text hmem)) text).2 rfl

section

variable {ρ : Type} [Grammar ρ] {c : Context} {text : List Char} {n : Node ρ}

theorem Tree.Node.Genuine.toUpper_text {p : TokenKind → Bool} (hn : n.Genuine c text)
    (hshape : Grammar.shape n.rule = .token (p ·.kind))
    (hp : ∀ kind, p kind → MySql.isComparison kind) : (c.text n).toUpper = c.text n := by
  have hmatches := hn.formed.matches_children
  rw [hshape] at hmatches
  obtain ⟨t, hchildren, ht⟩ := hmatches
  have hspan : n.span = t.span := (hn.laid.nodes rfl (.refl n)).span_of_singleton hchildren
  have hleaf : t ∈ n.leaves := by
    rw [Node.leaves_eq, hchildren]
    exact List.mem_singleton_self t
  have htext : c.text n = t.text c.source := congrArg (Span.slice · c.source) hspan
  rw [htext]
  exact TokenKind.toUpper_of_isComparison (hp _ ht) (hn.spelled t hleaf).written

theorem Tree.Node.Genuine.fits {p : TokenKind → Bool} {operator : ρ} (hn : n.Genuine c text)
    (hshape : Grammar.shape operator = .token (p ·.kind))
    (hp : ∀ kind, p kind → MySql.isComparison kind) : n.Fits text String.toUpper c operator where
  laid := hn.laid
  unchanged := by
    rintro m hm rfl
    exact (hn.of_contains hm).toUpper_text hshape hp

end

namespace ScriptForm

variable {ρ : Type} [DecidableEq ρ] {form : ScriptForm ρ}

theorem statementsIn_recast (r : Recast) (root : Node ρ) :
    form.statementsIn (root.recast r) = (form.statementsIn root).map (Node.recast r) := by
  unfold statementsIn
  rw [Node.child?_recast]
  cases root.child? form.list with
  | none => rfl
  | some list => exact Node.childNodes_recast r list

variable {operator : ρ} {read : Context → Node ρ → Node ρ → Statement}

theorem read_folded (hread : Reading.Recastable operator read) {source : String} {baseline : Nat}
    {flavor : Flavor} {root : Node ρ}
    (hroot : root.Fits source.toList String.toUpper (.ofString source baseline flavor) operator) :
    ((form.statementsIn root).map (read (.ofString source baseline flavor) root)).map
        Statement.folded =
      (form.statementsIn (root.recast .folding)).map
        (read (.ofString source.toUpper baseline flavor) (root.recast .folding)) := by
  rw [statementsIn_recast, List.map_map, List.map_map]
  apply List.map_congr_left
  intro n hn
  have hcontains := contains_of_mem_statementsIn hn
  have hheight : n.height ≤ (root.recast .folding).height := by
    rw [Node.height_recast]
    exact hcontains.height_le
  exact (hread (Context.recasts_toUpper source baseline flavor) (hroot.of_contains hcontains)
    hcontains.height_le hheight).symm

variable {grammar : Parser ρ Unit} {options : Options} {flavor : Flavor}

theorem statements_folded (hread : Reading.Recastable operator read) {source : String}
    (hfits : ∀ tree, Parser.parseTree grammar (.ofFlavor flavor) source options = .ok tree →
      tree.root.Fits source.toList String.toUpper (.ofString source options.baseline flavor)
        operator) :
    (((Parser.parseTree grammar (.ofFlavor flavor) source options).map fun tree =>
        (form.statementsIn tree.root).map
          (read (.ofString source options.baseline flavor) tree.root)).map
      (List.map Statement.folded)).mapError ParseError.folded =
    (((Parser.parseTree grammar (.ofFlavor flavor) source options).map
      SyntaxTree.folded).mapError ParseError.folded).map fun tree =>
        (form.statementsIn tree.root).map
          (read (.ofString source.toUpper options.baseline flavor) tree.root) := by
  cases htree : Parser.parseTree grammar (.ofFlavor flavor) source options with
  | error e => rfl
  | ok tree => exact congrArg Except.ok (read_folded hread (hfits tree htree))

theorem statements_recased (hread : Reading.Recastable operator read) {statement : Parser ρ Unit}
    (hstatement : Parser.Joinable (.ofFlavor flavor) options.maxDepth statement)
    (hfits : ∀ source tree,
      Parser.parseTree (form.script statement) (.ofFlavor flavor) source options = .ok tree →
      tree.root.Fits source.toList String.toUpper (.ofString source options.baseline flavor)
        operator)
    {source source' : String} (h : Token.Recased (.ofFlavor flavor) source source') :
    (((Parser.parseTree (form.script statement) (.ofFlavor flavor) source' options).map fun tree =>
        (form.statementsIn tree.root).map
          (read (.ofString source' options.baseline flavor) tree.root)).map
      (List.map Statement.folded)).mapError ParseError.folded =
    (((Parser.parseTree (form.script statement) (.ofFlavor flavor) source options).map fun tree =>
        (form.statementsIn tree.root).map
          (read (.ofString source options.baseline flavor) tree.root)).map
      (List.map Statement.folded)).mapError ParseError.folded := by
  rw [statements_folded hread (hfits source), statements_folded hread (hfits source'),
    Parser.parseTree_recased hstatement h, Token.toUpper_of_recased h]

end ScriptForm

variable {source : String} {options : Options}

theorem MySql.fits_of_parseTree {tree : SyntaxTree MySql.Rule}
    (h : MySql.parseTree source options = .ok tree) :
    tree.root.Fits source.toList String.toUpper (.ofString source options.baseline .mySql)
      .comparisonOperator :=
  (MySql.genuine_of_parseTree h).fits (p := MySql.isComparison) rfl fun _ => id

theorem Postgres.fits_of_parseTree {tree : SyntaxTree Postgres.Rule}
    (h : Postgres.parseTree source options = .ok tree) :
    tree.root.Fits source.toList String.toUpper (.ofString source options.baseline .postgreSql)
      .compareOp := by
  refine (Postgres.genuine_of_parseTree h).fits (p := Postgres.isComparison) rfl ?_
  intro kind hkind
  cases kind <;> first | rfl | contradiction

/--
Letter case makes no difference in keywords and bare names. A script in which they are written in
other letters has the same tree up to the case of bare names, and the same statements up to the case
of their words, or it is refused at the same place for the same reason.
-/
theorem parse_recased (flavor : Flavor) (options : Options) {source source' : String}
    (h : Token.Recased (.ofFlavor flavor) source source') :
    (flavor = .mySql →
      ((MySql.parseTree source' options).map SyntaxTree.folded).mapError ParseError.folded =
        ((MySql.parseTree source options).map SyntaxTree.folded).mapError ParseError.folded) ∧
      (flavor = .postgreSql →
        ((Postgres.parseTree source' options).map SyntaxTree.folded).mapError ParseError.folded =
          ((Postgres.parseTree source options).map SyntaxTree.folded).mapError
            ParseError.folded) ∧
      ((parse flavor source' options).map (List.map Statement.folded)).mapError ParseError.folded =
        ((parse flavor source options).map (List.map Statement.folded)).mapError
          ParseError.folded := by
  refine ⟨?_, ?_, ?_⟩
  · rintro rfl
    unfold MySql.parseTree
    rw [MySql.script_eq]
    exact Parser.parseTree_recased (MySql.joinable_statement options.maxDepth) h
  · rintro rfl
    unfold Postgres.parseTree
    rw [Postgres.script_eq]
    exact Parser.parseTree_recased (Postgres.joinable_statement options.maxDepth) h
  · cases flavor with
    | mySql =>
      have hstatements := MySql.form.statements_recased MySql.recastable_readStatement
        (MySql.joinable_statement options.maxDepth) (fun _ _ => MySql.fits_of_parseTree) h
      simp only [← MySql.statementsOf_eq] at hstatements
      exact hstatements
    | postgreSql =>
      have hstatements := Postgres.form.statements_recased Postgres.recastable_readStatement
        (Postgres.joinable_statement options.maxDepth) (fun _ _ => Postgres.fits_of_parseTree) h
      simp only [← Postgres.statementsOf_eq] at hstatements
      exact hstatements

theorem parse_recased_words :
    (Token.Recased .mySql "Select `aB`, N'é' From t Where x Sounds Like y And Not z <=> 1"
        "SELECT `aB`, N'é' from T wHERE X sounds LIKE Y and NOT Z <=> 1" ∧
      ((parse .mySql "SELECT `aB`, N'é' from T wHERE X sounds LIKE Y and NOT Z <=> 1" {}).map
          (List.map Statement.folded)).mapError ParseError.folded =
        ((parse .mySql "Select `aB`, N'é' From t Where x Sounds Like y And Not z <=> 1" {}).map
          (List.map Statement.folded)).mapError ParseError.folded) ∧
    Token.Recased .postgreSql "Select \"aB\"::Text From Only t Where x IsNull"
        "select \"aB\"::tEXT from only T where X ISNULL" ∧
      ((parse .postgreSql "select \"aB\"::tEXT from only T where X ISNULL" {}).map
          (List.map Statement.folded)).mapError ParseError.folded =
        ((parse .postgreSql "Select \"aB\"::Text From Only t Where x IsNull" {}).map
          (List.map Statement.folded)).mapError ParseError.folded := by
  have hmysql : Token.Recased (.ofFlavor .mySql)
      "Select `aB`, N'é' From t Where x Sounds Like y And Not z <=> 1"
      "SELECT `aB`, N'é' from T wHERE X sounds LIKE Y and NOT Z <=> 1" := by
    decide +kernel
  have hpostgres : Token.Recased (.ofFlavor .postgreSql)
      "Select \"aB\"::Text From Only t Where x IsNull"
      "select \"aB\"::tEXT from only T where X ISNULL" := by
    decide +kernel
  exact ⟨⟨hmysql, (parse_recased .mySql {} hmysql).2.2⟩, hpostgres,
    (parse_recased .postgreSql {} hpostgres).2.2⟩

end SqlScript
