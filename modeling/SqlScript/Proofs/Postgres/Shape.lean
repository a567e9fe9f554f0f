import SqlScript.Postgres.Script
import SqlScript.Proofs.Shape.Chain

/-!
What the productions of the PostgreSQL grammar are made of.
-/

namespace SqlScript.Postgres

open SqlScript.Tree (Node Element leaves)

/-!
The kinds of production that a part of the grammar can turn into.
-/

def statementKinds : List Rule := [
  .selectStmt, .insertStmt, .updateStmt, .deleteStmt, .withStmt, .callStmt, .mergeStmt, .valuesStmt,
  .createdbStmt, .ddlStmt, .variableShowStmt, .explainStmt, .variableSetStmt, .transactionStmt,
  .prepareStmt, .grantStmt, .utilityStmt]

def selects : List Rule := [.plainSelect, .setOperationSelect, .parenthesizedSelect]

def setPrimaries : List Rule := [.simpleSelectPrimary, .selectWithParens]

def setOperands : List Rule := [.simpleSelectPrimary, .selectWithParens, .setOperationSelect]

def terms : List Rule := [.aExprNot, .aExprPredicate]

def expressions : List Rule := [.aExprNot, .aExprPredicate, .aExprOr, .aExprAnd]

def predicates : List Rule := [
  .aExprCompare, .aExprSubqueryCompare, .aExprIn, .aExprIsNull, .aExprIs, .aExprBetween, .aExprLike,
  .aExprPrimary]

def primaries : List Rule := [
  .aexprConst, .columnref, .funcExpr, .caseExpr, .paramRef, .cExprExists, .cExprSubquery,
  .cExprNested, .cExprRow, .cExprArray, .cExprIndirection, .aExprTypecast, .aExprCollate,
  .aExprAtTimeZone, .aExprUnary]

def operands : List Rule := primaries ++ [.aExprMath, .aExprQualOp]

def items : List Rule := [
  .relationRef, .subqueryRef, .derivedTableRef, .joinedTableRef, .funcTableRef]

def joinForms : List Rule := [.innerJoin, .outerJoin, .naturalJoin]

def assigned : List Rule := .setToDefault :: expressions

def bond? (n : Node Rule) : Option Nat :=
  match n.rule with
  | .aExprOr => some 1
  | .aExprAnd => some 3
  | .aExprIsNull | .aExprIs => some Test.is.strength
  | .aExprCompare | .aExprSubqueryCompare => some Test.comparison.strength
  | .aExprIn => some Test.among.strength
  | .aExprBetween => some Test.between.strength
  | .aExprLike => some Test.like.strength
  | .aExprMath | .aExprQualOp =>
    n.tokens.head?.bind fun t => (operandOperator? t.kind).map (·.strength)
  | _ => none

instance : Bonds Rule := ⟨bond?⟩

def isFree (rule : Rule) : Bool :=
  match rule with
  | .aExprOr | .aExprAnd | .aExprIsNull | .aExprIs | .aExprCompare | .aExprSubqueryCompare
  | .aExprIn | .aExprBetween | .aExprLike | .aExprMath | .aExprQualOp => false
  | _ => true

theorem bond?_eq_none {rules : List Rule} {n : Node Rule} (hn : n.rule ∈ rules)
    (hfree : rules.all isFree) : bond? n = none := by
  have hrule := List.all_eq_true.1 hfree _ hn
  unfold isFree at hrule
  unfold bond?
  split at hrule
  · contradiction
  · contradiction
  all_goals first | contradiction | simp_all

/--
The token that the grammar takes without looking at it: the operator behind the `USING` of a sort
key, and the word behind the `OVERRIDING` of an insertion.
-/
def unseen? (n : Node Rule) : Option Token :=
  match n.rule, n.tokens with
  | .sortBy, word :: t :: _ => if word.isKeyword .USING then some t else none
  | .insertStmt, _ :: _ :: word :: t :: _ => if word.isWord "OVERRIDING" then some t else none
  | _, _ => none

/--
Is there a delimiter or a separator, somewhere in the production, that the grammar takes without
looking at it? A scan loses its way there.
-/
def misleads (n : Node Rule) : Bool :=
  !n.all fun m => (unseen? m).all (·.kind.isPlain)

def joinsBy (words : List Keyword) (n : Node Rule) : Bool :=
  n.tokens.head?.any (·.isOneOf words)

def intersects (n : Node Rule) : Bool :=
  (n.childrenOf .setOperationPart).all (joinsBy [.INTERSECT])

def manipulated? (t : Token) : Option Rule :=
  match t.kind with
  | .leftParen | .keyword .SELECT => some .selectStmt
  | .keyword .INSERT => some .insertStmt
  | .keyword .UPDATE => some .updateStmt
  | .keyword .DELETE => some .deleteStmt
  | _ => none

def isAnnounced (n : Node Rule) : Bool :=
  (n.leaves.head?.bind manipulated?).all (· == n.rule)

def operatorSign (operator? : TokenKind → Option (InfixOperator Rule))
    (operator : InfixOperator Rule) : Shape Rule :=
  .token (operator? ·.kind == some operator)

theorem leaves_operatorSign {operator? : TokenKind → Option (InfixOperator Rule)}
    {operator : InfixOperator Rule} {es : List (Element Rule)}
    (h : (operatorSign operator? operator).Matches es) : leaves es ≠ [] := by
  obtain ⟨t, rfl, -⟩ := h
  exact List.cons_ne_nil _ _

def connectives : InfixLayer Rule where
  operator? := connective?
  sign := operatorSign connective?
  rules := expressions
  firsts := terms
  top := 10
  eof := rfl
  leaves_sign := leaves_operatorSign
  eq_of_strength_eq := by
    intro kind kind' operator operator' h h' heq
    unfold connective? at h h'
    split at h <;> cases h <;> split at h' <;> cases h'
    all_goals first | rfl | contradiction
  strength_lt := by
    intro kind operator h
    unfold connective? at h
    split at h <;> cases h
    all_goals decide
  rule_mem := by
    intro kind operator h
    unfold connective? at h
    split at h <;> cases h
    all_goals decide
  firsts_subset := by decide
  bond_firsts := by
    intro n hn
    exact bond?_eq_none hn (by decide)

def operandOperators : InfixLayer Rule where
  operator? := operandOperator?
  sign := operatorSign operandOperator?
  rules := operands
  firsts := primaries
  top := 30
  eof := rfl
  leaves_sign := leaves_operatorSign
  eq_of_strength_eq := by
    intro kind kind' operator operator' h h' heq
    unfold operandOperator? at h h'
    split at h <;> cases h <;> split at h' <;> cases h'
    all_goals first | rfl | contradiction
  strength_lt := by
    intro kind operator h
    unfold operandOperator? at h
    split at h <;> cases h
    all_goals decide
  rule_mem := by
    intro kind operator h
    unfold operandOperator? at h
    split at h <;> cases h
    all_goals decide
  firsts_subset := by decide
  bond_firsts := by
    intro n hn
    exact bond?_eq_none hn (by decide)

section

open Shape

def unendingToken : Shape Rule :=
  opt (token (!·.kind.alike .semicolon))

def tailShape : Shape Rule :=
  sequence [opt (one .sortClause), opt (one .selectLimit), opt (one .forLockingClause)]

/--
What stands between two operators of a set operation: a select, a query in parentheses, or an
intersection of such.
-/
def setTermShape : Shape Rule :=
  oneIn setPrimaries ||| node [.setOperationSelect] intersects

def operationShape (operand : Shape Rule) (words : List Keyword) : Shape Rule :=
  sequence [operand, many (node [.setOperationPart] (joinsBy words)), tailShape]

/--
An operation whose kind was decided by a scan that lost its way in one of the operands.
-/
def misledShape : Shape Rule :=
  sequence [node setPrimaries misleads, many (one .setOperationPart), tailShape] |||
    sequence [oneIn setPrimaries, many (one .setOperationPart), node [.setOperationPart] misleads,
      many (one .setOperationPart), tailShape]

def isSymmetry (t : Token) : Bool :=
  t.isWord "SYMMETRIC" || t.isWord "ASYMMETRIC"

instance : Token.Plain isSymmetry :=
  inferInstanceAs (Token.Plain fun t => t.isWord "SYMMETRIC" || t.isWord "ASYMMETRIC")

instance : Token.Plain fun t => isComparison t.kind where
  isPlain {t} h := by
    unfold isComparison at h
    generalize t.kind = kind at h ⊢
    split at h
    all_goals first | contradiction | rfl

def shape (rule : Rule) : Shape Rule :=
  match rule with
  -- Statements
  | .root => opt (one .stmtmulti)
  | .stmtmulti => many (one .emptyStmt ||| sequence [one .stmt, opt (kind .semicolon)])
  | .stmt => node statementKinds isAnnounced
  | .emptyStmt => kind .semicolon
  | .selectStmt => oneIn selects
  | .withStmt | .callStmt | .mergeStmt | .valuesStmt | .ddlStmt | .variableShowStmt | .explainStmt
  | .variableSetStmt | .transactionStmt | .prepareStmt | .grantStmt | .utilityStmt => tokens
  | .createdbStmt =>
    sequence [tokens, opt (sequence [word .IF, word .NOT, word .EXISTS]), one .colId, tokens]
  | .insertStmt =>
    sequence [word .INSERT, word .INTO, one .insertTarget, opt (one .insertColumnList),
      opt (sequence [plainWord "OVERRIDING", anyToken, word .VALUE]),
      oneIn (.defaultValues :: .valuesClause :: selects), opt (one .onConflictClause),
      opt (one .returningClause)]
  | .updateStmt =>
    sequence [word .UPDATE, one .relationRef, word .SET, commas (oneIn [.setClause, .multiSetClause]),
      opt (one .fromClause), opt (one .whereClause), opt (one .returningClause)]
  | .deleteStmt =>
    sequence [word .DELETE, word .FROM, one .relationRef, opt (one .usingClause),
      opt (one .whereClause), opt (one .returningClause)]
  -- Select
  | .plainSelect => sequence [one .simpleSelectPrimary, opt (one .forLockingClause)]
  | .setOperationSelect =>
    operationShape setTermShape [.UNION, .EXCEPT] |||
      operationShape (oneIn setPrimaries) [.INTERSECT] ||| misledShape
  | .parenthesizedSelect => sequence [one .selectWithParens, tailShape]
  | .selectWithParens =>
    parens (one .setOperationSelect ||| sequence [one .selectWithParens, tailShape] |||
      sequence [one .simpleSelectPrimary, opt (one .forLockingClause)])
  | .simpleSelectPrimary =>
    sequence [word .SELECT, word .ALL ||| opt (one .distinctClause), one .targetList,
      opt (one .intoClause), opt (one .fromClause), opt (one .whereClause), opt (one .groupClause),
      opt (one .havingClause), opt (one .windowClause), opt (one .sortClause),
      opt (one .selectLimit)]
  | .setOperationPart =>
    sequence [Shape.oneOf setOperators, opt (Shape.oneOf [.ALL, .DISTINCT]), setTermShape]
  | .distinctClause => sequence [word .DISTINCT, opt (sequence [word .ON, tokenGroup])]
  | .targetList =>
    commasFrom (kind .star ||| oneIn [.targetStar, .targetEl]) (oneIn [.targetStar, .targetEl])
  | .targetStar => kind .star
  | .targetEl =>
    sequence [strong expressions 0, sequence [word .AS, one .colLabel] ||| opt (one .colLabel)]
  | .colLabel => namePart
  | .intoClause => sequence [word .INTO, tokens, opt (word .TABLE), one .qualifiedName]
  | .fromClause => sequence [word .FROM, one .fromList]
  | .usingClause => sequence [word .USING, one .fromList]
  | .whereClause => sequence [word .WHERE, sequence [tokens, one .colId] ||| strong expressions 0]
  | .groupClause => sequence [word .GROUP, word .BY, tokens]
  | .havingClause => sequence [word .HAVING, strong expressions 0]
  | .windowClause => sequence [word .WINDOW, tokens]
  | .sortClause => sequence [word .ORDER, word .BY, commas (one .sortBy)]
  | .sortBy =>
    sequence [strong expressions 0,
      Shape.oneOf [.ASC, .DESC] ||| opt (sequence [word .USING, unendingToken]), opt tokens]
  | .selectLimit =>
    sequence [oneIn [.limitClause, .offsetClause, .fetchClause],
      many (oneIn [.limitClause, .offsetClause, .fetchClause])]
  | .limitClause => sequence [word .LIMIT, word .ALL ||| strong expressions 0]
  | .offsetClause =>
    sequence [word .OFFSET, strong expressions 0, opt (Shape.oneOf [.ROW, .ROWS])]
  | .fetchClause =>
    sequence [word .FETCH, Shape.oneOf [.FIRST, .NEXT], opt (strong expressions 0),
      Shape.oneOf [.ROW, .ROWS], tokens ||| word .ONLY]
  | .forLockingClause => sequence [word .FOR, tokens]
  -- Table references
  | .fromList => commas (one .tableRef)
  | .tableRef => sequence [oneIn items, many (oneIn joinForms)]
  | .relationRef =>
    sequence [opt (word .ONLY), one .qualifiedName, opt (kind .star), opt (one .aliasClause),
      opt (sequence [plainWord "TABLESAMPLE", namePart, tokenGroup,
        opt (sequence [plainWord "REPEATABLE", tokenGroup])])]
  | .subqueryRef => sequence [opt (word .LATERAL), parens (oneIn selects), opt (one .aliasClause)]
  | .derivedTableRef => sequence [opt (word .LATERAL), tokenGroup, opt (one .aliasClause)]
  | .joinedTableRef => sequence [parens (one .fromList), opt (one .aliasClause)]
  | .funcTableRef => sequence [tokens, tokenGroup, opt tokens, opt (one .aliasClause)]
  | .qualifiedName => dotted
  | .aliasClause => sequence [opt (word .AS), one .colId, opt (parens (one .nameList))]
  | .colId => namePart
  | .nameList => commas (one .colId)
  | .innerJoin => sequence [plainToken, word .JOIN, oneIn items, opt (one .joinQual)]
  | .outerJoin =>
    sequence [Shape.oneOf [.LEFT, .RIGHT, .FULL], opt (word .OUTER), word .JOIN, oneIn items,
      one .joinQual]
  | .naturalJoin =>
    sequence [word .NATURAL,
      sequence [Shape.oneOf [.LEFT, .RIGHT, .FULL], opt (word .OUTER)] ||| opt (word .INNER),
      word .JOIN, oneIn items]
  | .joinQual =>
    sequence [word .ON, strong expressions 0] |||
      sequence [word .USING, parens (one .nameList), opt (sequence [word .AS, one .colId])]
  -- Data manipulation
  | .insertTarget => sequence [one .qualifiedName, opt (sequence [word .AS, one .colId])]
  | .insertColumnList => parens (commas (one .setTarget))
  | .defaultValues => tokens
  | .valuesClause => sequence [word .VALUES, commas (one .valuesRow)]
  | .valuesRow => parens (commas (oneIn assigned))
  | .setToDefault => word .DEFAULT
  | .onConflictClause => sequence [tokens, tokens]
  | .returningClause => sequence [word .RETURNING, tokens]
  | .setClause => sequence [one .setTarget, kind .eq, oneIn assigned]
  | .multiSetClause =>
    sequence [parens (commas (one .setTarget)), kind .eq, strong expressions 0]
  | .setTarget => sequence [namePart, many (many (token Token.isDotted) ||| brackets tokens)]
  -- Boolean layer
  | .aExprOr => connectives.chain ⟨.aExprOr, 1⟩
  | .aExprAnd => connectives.chain ⟨.aExprAnd, 3⟩
  | .aExprNot => sequence [word .NOT, strong expressions negationStrength]
  | .aExprPredicate => strong predicates 0
  -- Predicates
  | .aExprCompare =>
    sequence [oneIn predicates, one .compareOp, strong predicates (Test.comparison.strength + 1)]
  | .compareOp => token (isComparison ·.kind)
  | .aExprSubqueryCompare =>
    sequence [oneIn predicates, one .compareOp, plainToken,
      parens (oneIn selects) ||| parens (strong expressions 0)]
  | .aExprIn =>
    sequence [oneIn predicates, opt (word .NOT), plainToken, parens (oneIn selects ||| one .inList)]
  | .inList => commas (strong expressions 0)
  | .aExprIsNull => sequence [oneIn predicates, tokens]
  | .aExprIs =>
    sequence [oneIn predicates, tokens,
      tokens ||| sequence [word .DISTINCT, word .FROM, strong predicates (Test.is.strength + 1)]]
  | .aExprBetween =>
    sequence [oneIn predicates, opt (word .NOT), word .BETWEEN, opt (token isSymmetry),
      strong predicates (Test.between.strength + 1), word .AND,
      strong predicates (Test.between.strength + 1)]
  | .aExprLike =>
    sequence [oneIn predicates, opt (word .NOT), opt (word .SIMILAR), plainToken,
      strong predicates (Test.like.strength + 1),
      opt (sequence [word .ESCAPE, strong predicates (Test.like.strength + 1)])]
  | .aExprPrimary => strong operands 0
  -- Operands
  | .aexprConst | .caseExpr => tokens
  | .columnref =>
    sequence [namePart, many (token Token.isDotted), opt (sequence [kind .dot, kind .star])]
  | .funcExpr =>
    plainToken ||| sequence [plainToken, tokens, tokenGroup, opt (sequence [tokens, tokenGroup]),
      opt (sequence [plainWord "FILTER", tokenGroup]), opt (one .overClause)]
  | .overClause => sequence [word .OVER, tokenGroup ||| namePart]
  | .paramRef => plainToken
  | .cExprExists => sequence [word .EXISTS, parens (oneIn selects)]
  | .cExprSubquery => parens (oneIn selects) ||| tokenGroup
  | .cExprNested => parens (commas (strong expressions 0))
  | .cExprRow => sequence [word .ROW, parens (opt (commas (strong expressions 0)))]
  | .cExprArray => sequence [word .ARRAY, tokenGroup]
  | .cExprIndirection => sequence [oneIn operands, tokenGroup ||| tokens]
  | .aExprTypecast => sequence [oneIn operands, plainToken, one .typename]
  | .aExprCollate => sequence [oneIn operands, word .COLLATE, dotted]
  | .aExprAtTimeZone => sequence [oneIn operands, tokens, strong operands (timeZoneStrength + 1)]
  | .aExprUnary => sequence [plainToken, strong operands signStrength]
  | .aExprMath =>
    operandOperators.chain ⟨.aExprMath, 12⟩ ||| operandOperators.chain ⟨.aExprMath, 14⟩ |||
      operandOperators.chain ⟨.aExprMath, 16⟩
  | .aExprQualOp => operandOperators.chain ⟨.aExprQualOp, 10⟩
  | .typename => sequence [tokens ||| dotted, opt tokenGroup, opt tokens, many tokenGroup]

end

instance : Grammar Rule where
  shape := shape

theorem connectives_shaped : connectives.Shaped where
  chain_within := by
    intro kind operator h
    change connective? kind = some operator at h
    unfold connective? at h
    split at h <;> cases h
    · exact .refl _
    · exact .refl _
  bond_chain := by
    intro kind operator n h hn _
    change connective? kind = some operator at h
    change bond? n = _
    unfold connective? at h
    split at h <;> cases h
    · simp [bond?, hn]
    · simp [bond?, hn]

theorem operandOperators_shaped : operandOperators.Shaped where
  chain_within := by
    intro kind operator h
    change operandOperator? kind = some operator at h
    unfold operandOperator? at h
    split at h <;> cases h
    all_goals first
      | exact .refl _
      | exact fun _ => .inl
      | exact fun _ => .inr
      | exact fun _ h => .inl (.inl h)
      | exact fun _ h => .inl (.inr h)
  bond_chain := by
    intro kind operator n h hn hmatches
    refine InfixLayer.bond_of_head rfl ?_ hmatches
    change operandOperator? kind = some operator at h
    change bond? n = _
    unfold bond?
    rw [hn]
    unfold operandOperator? at h
    split at h <;> cases h
    all_goals rfl

end SqlScript.Postgres
