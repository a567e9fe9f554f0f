import SqlScript.MySql.Script
import SqlScript.Proofs.Shape.Chain
import SqlScript.Statement.Query

/-!
What the productions of the MySQL grammar are made of.
-/

namespace SqlScript.MySql

open SqlScript.Tree (Node Element leaves)

/-!
The kinds of production that a part of the grammar can turn into.
-/

def families : List Rule := [
  .dmlStatement, .ddlStatement, .replicationStatement, .administrationStatement, .utilityStatement,
  .transactionStatement, .preparedStatement]

def updates : List Rule := [.singleUpdateStatement, .multipleUpdateStatement]

def deletes : List Rule := [.singleDeleteStatement, .multipleDeleteStatement]

def changes : List Rule := .insertStatement :: updates ++ deletes

def selects : List Rule := [.simpleSelect, .unionSelect, .parenthesisSelect]

def unionOperands : List Rule := [.querySpecification, .queryExpression]

def elements : List Rule := [
  .selectStarElement, .selectColumnElement, .selectFunctionElement, .selectExpressionElement]

/--
Conditions without a connective on top.
-/
def terms : List Rule := [.notExpression, .isExpression, .predicateExpression]

def conditions : List Rule := terms ++ [.logicalExpression]

def predicates : List Rule := [
  .inPredicate, .isNullPredicate, .binaryComparisonPredicate, .subqueryComparisonPredicate,
  .betweenPredicate, .soundsLikePredicate, .likePredicate, .regexpPredicate, .jsonMemberOfPredicate,
  .expressionAtomPredicate]

/--
Operands without an infix operator on top.
-/
def primaries : List Rule := [
  .constantExpressionAtom, .fullColumnNameExpressionAtom, .functionCallExpressionAtom,
  .collateExpressionAtom, .mysqlVariableExpressionAtom, .parameterExpressionAtom,
  .unaryExpressionAtom, .binaryExpressionAtom, .variableAssignExpressionAtom, .nestedExpressionAtom,
  .nestedRowExpressionAtom, .existsExpressionAtom, .subqueryExpressionAtom, .intervalExpressionAtom]

def operands : List Rule :=
  primaries ++ [.bitExpressionAtom, .mathExpressionAtom, .jsonExpressionAtom]

def items : List Rule := [.atomTableItem, .subqueryTableItem, .tableSourcesItem]

def joinForms : List Rule := [.innerJoin, .straightJoin, .outerJoin, .naturalJoin]

def assigned : List Rule := .defaultExpression :: conditions

/--
How strongly the operator on top of a production binds in its layer, if there is one.
-/
def bond? (n : Node Rule) : Option Nat :=
  match n.rule with
  | .logicalExpression => do
    let sign ← n.child? .logicalOperator
    let t ← sign.tokens.head?
    (connective? t.kind).map (·.strength)
  | .inPredicate => some Test.among.strength
  | .isNullPredicate => some Test.null.strength
  | .binaryComparisonPredicate | .subqueryComparisonPredicate => some Test.comparison.strength
  | .betweenPredicate => some Test.between.strength
  | .soundsLikePredicate => some Test.soundsLike.strength
  | .likePredicate => some Test.like.strength
  | .regexpPredicate => some Test.regexp.strength
  | .jsonMemberOfPredicate => some Test.memberOf.strength
  | .bitExpressionAtom | .mathExpressionAtom | .jsonExpressionAtom => do
    let t ← n.tokens.head?
    (operandOperator? t.kind).map (·.strength)
  | _ => none

instance : Bonds Rule := ⟨bond?⟩

def isFree (rule : Rule) : Bool :=
  match rule with
  | .logicalExpression | .inPredicate | .isNullPredicate | .binaryComparisonPredicate
  | .subqueryComparisonPredicate | .betweenPredicate | .soundsLikePredicate | .likePredicate
  | .regexpPredicate | .jsonMemberOfPredicate | .bitExpressionAtom | .mathExpressionAtom
  | .jsonExpressionAtom => false
  | _ => true

theorem bond?_eq_none {rules : List Rule} {n : Node Rule} (hn : n.rule ∈ rules)
    (hfree : rules.all isFree) : bond? n = none := by
  have hrule := List.all_eq_true.1 hfree _ hn
  unfold isFree at hrule
  unfold bond?
  split at hrule
  all_goals first | contradiction | simp_all

def manipulated? (t : Token) : Option (List Rule) :=
  match t.kind with
  | .leftParen | .keyword .SELECT => some selects
  | .keyword .INSERT => some [.insertStatement]
  | .keyword .UPDATE => some updates
  | .keyword .DELETE => some deletes
  | _ => none

def isAnnounced (n : Node Rule) : Bool :=
  (n.leaves.head?.bind manipulated?).all fun rules =>
    n.rule == .dmlStatement && n.childNodes.head?.any (rules.contains ·.rule)

def denoted? (kind : TokenKind) : Option LogicalOperator :=
  match kind with
  | .keyword .OR | .concat => some .or
  | .keyword .XOR => some .xor
  | .keyword .AND | .logicalAnd => some .and
  | _ => none

def connectiveStrength : LogicalOperator → Nat
  | .or => 1
  | .xor => 3
  | .and => 5

theorem connective?_eq (kind : TokenKind) :
    connective? kind = (denoted? kind).map (⟨.logicalExpression, connectiveStrength ·⟩) := by
  unfold connective?
  split
  case h_6 =>
    unfold denoted?
    split <;> first | contradiction | rfl
  all_goals rfl

def connectiveSign (operator : InfixOperator Rule) : Shape Rule :=
  .node [.logicalOperator] fun n => n.tokens.head?.any (connective? ·.kind == some operator)

def operatorSign (operator : InfixOperator Rule) : Shape Rule :=
  .token (operandOperator? ·.kind == some operator)

def connectives : InfixLayer Rule where
  operator? := connective?
  sign := connectiveSign
  rules := conditions
  firsts := terms
  top := 10
  eof := rfl
  leaves_sign := by
    rintro operator es ⟨n, rfl, -, hn⟩
    obtain ⟨t, ht, -⟩ := (Option.any_eq_true _ _).1 hn
    rw [Tree.leaves_node]
    exact List.ne_nil_of_mem (Tree.mem_leaves_of_mem_tokens (List.mem_of_mem_head? ht))
  eq_of_strength_eq := by
    intro kind kind' operator operator' h h' heq
    unfold connective? at h h'
    split at h <;> cases h <;> split at h' <;> cases h'
    all_goals first | rfl | contradiction
  strength_lt := by
    intro kind operator h
    unfold connective? at h
    split at h <;> cases h
    all_goals decide
  rule_mem := by
    intro kind operator h
    unfold connective? at h
    split at h <;> cases h
    all_goals decide
  firsts_subset := by decide
  bond_firsts := by
    intro n hn
    exact bond?_eq_none hn (by decide)

def operandOperators : InfixLayer Rule where
  operator? := operandOperator?
  sign := operatorSign
  rules := operands
  firsts := primaries
  top := 30
  eof := rfl
  leaves_sign := by
    rintro operator es ⟨t, rfl, -⟩
    exact List.cons_ne_nil _ _
  eq_of_strength_eq := by
    intro kind kind' operator operator' h h' heq
    unfold operandOperator? at h h'
    split at h <;> cases h <;> split at h' <;> cases h'
    all_goals first | rfl | contradiction
  strength_lt := by
    intro kind operator h
    unfold operandOperator? at h
    split at h <;> cases h
    all_goals decide
  rule_mem := by
    intro kind operator h
    unfold operandOperator? at h
    split at h <;> cases h
    all_goals decide
  firsts_subset := by decide
  bond_firsts := by
    intro n hn
    exact bond?_eq_none hn (by decide)

section

open Shape

def tailShape : Shape Rule :=
  sequence [opt (one .orderByClause), opt (one .limitClause), opt (one .lockClause)]

def aliasShape : Shape Rule :=
  sequence [word .AS, one .uid] ||| opt (one .uid)

def partitionShape : Shape Rule :=
  opt (sequence [word .PARTITION, tokenGroup])

def conditionShape : Shape Rule :=
  opt (sequence [word .WHERE, strong conditions 0])

def targetsShape : Shape Rule :=
  commas (sequence [one .tableName, opt tokens])

def assignmentsShape : Shape Rule :=
  sequence [word .SET, commas (one .updatedElement), conditionShape]

def argumentsShape : Shape Rule :=
  sequence [opt (sequence [kind .dot, anyToken]), tokenGroup,
    opt (sequence [plainWord "AGAINST", tokenGroup]), opt (one .overClause)]

def uidShape : Shape Rule :=
  token fun t => t.isNamePart || t.kind.alike .string

instance : Token.Plain fun t => isComparison t.kind where
  isPlain {t} h := by
    unfold isComparison at h
    generalize t.kind = kind at h ⊢
    split at h
    all_goals first | contradiction | rfl

def shape (rule : Rule) : Shape Rule :=
  match rule with
  -- Statements
  | .root => opt (one .sqlStatements)
  | .sqlStatements => many (one .emptyStatement ||| sequence [one .sqlStatement, opt (kind .semicolon)])
  | .sqlStatement => node families isAnnounced
  | .emptyStatement => kind .semicolon
  | .dmlStatement => oneIn (changes ++ selects) ||| tokens
  | .ddlStatement => one .createDatabase ||| tokens
  | .administrationStatement => one .showStatement ||| tokens
  | .utilityStatement => oneIn [.simpleDescribeStatement, .fullDescribeStatement] ||| tokens
  | .transactionStatement | .replicationStatement | .preparedStatement | .showStatement
  | .simpleDescribeStatement | .fullDescribeStatement => tokens
  | .createDatabase =>
    sequence [tokens, opt (sequence [word .IF, word .NOT, word .EXISTS]), one .uid, tokens]
  -- Select
  | .simpleSelect => sequence [one .querySpecification, opt (one .lockClause)]
  | .parenthesisSelect => sequence [one .queryExpression, tailShape]
  | .unionSelect => sequence [oneIn unionOperands, many (one .unionStatement), tailShape]
  | .unionStatement =>
    sequence [word .UNION, opt (Shape.oneOf [.ALL, .DISTINCT]), oneIn unionOperands]
  | .queryExpression => parens (oneIn [.unionSelect, .queryExpression, .querySpecification])
  | .querySpecification =>
    sequence [word .SELECT, many (one .selectSpec), one .selectElements,
      opt (one .selectIntoExpression), opt (one .fromClause), opt (one .groupByClause),
      opt (one .havingClause), opt (one .windowClause), opt (one .orderByClause),
      opt (one .limitClause), opt (one .selectIntoExpression)]
  | .selectSpec => plainToken
  | .selectElements => commasFrom (kind .star ||| oneIn elements) (oneIn elements)
  | .selectStarElement => sequence [opt (sequence [one .fullId, plainToken]), plainToken]
  | .selectColumnElement => sequence [one .fullColumnName, aliasShape]
  | .selectFunctionElement => sequence [one .functionCall, aliasShape]
  | .selectExpressionElement => sequence [strong conditions 0, aliasShape]
  | .selectIntoExpression => sequence [word .INTO, tokens]
  | .windowClause => sequence [word .WINDOW, tokens]
  | .lockClause => sequence [Shape.oneOf [.FOR, .LOCK], tokens]
  | .fromClause => sequence [opt (sequence [word .FROM, one .tableSources]), conditionShape]
  | .groupByClause => sequence [word .GROUP, word .BY, commas (one .groupByItem), opt tokens]
  | .groupByItem | .orderByExpression =>
    sequence [strong conditions 0, opt (Shape.oneOf [.ASC, .DESC])]
  | .havingClause => sequence [word .HAVING, strong conditions 0]
  | .orderByClause => sequence [word .ORDER, word .BY, commas (one .orderByExpression)]
  | .limitClause =>
    sequence [word .LIMIT, one .limitClauseAtom, opt (sequence [plainToken, one .limitClauseAtom])]
  | .limitClauseAtom => plainToken
  -- Table sources
  | .tableSources => commas (oneIn [.tableJson, .tableSourceBase])
  | .tableSourceBase => sequence [oneIn items, many (oneIn joinForms)]
  | .tableJson => sequence [plainWord "JSON_TABLE", tokenGroup, aliasShape]
  | .atomTableItem => sequence [one .tableName, partitionShape, aliasShape, many (one .indexHint)]
  | .subqueryTableItem =>
    sequence [opt (word .LATERAL), parens (oneIn selects), opt (word .AS), one .uid,
      opt (parens (one .uidList))]
  | .tableSourcesItem => parens (one .tableSources)
  | .indexHint =>
    sequence [Shape.oneOf [.USE, .IGNORE, .FORCE], Shape.oneOf [.INDEX, .KEY],
      opt (sequence [word .FOR, word .JOIN ||| sequence [anyToken, word .BY]]), tokenGroup]
  | .innerJoin =>
    sequence [opt (Shape.oneOf [.INNER, .CROSS]), word .JOIN, oneIn items, many (one .joinSpec)]
  | .straightJoin => sequence [word .STRAIGHT_JOIN, oneIn items, opt (one .joinSpec)]
  | .outerJoin =>
    sequence [Shape.oneOf [.LEFT, .RIGHT], opt (word .OUTER), word .JOIN, oneIn items, one .joinSpec]
  | .naturalJoin =>
    sequence [word .NATURAL, opt (sequence [Shape.oneOf [.LEFT, .RIGHT], opt (word .OUTER)]),
      word .JOIN, oneIn items]
  | .joinSpec =>
    sequence [word .ON, strong conditions 0] ||| sequence [word .USING, parens (one .uidList)]
  -- Data manipulation
  | .insertStatement =>
    sequence [word .INSERT, tokens, opt (word .INTO), one .tableName, partitionShape,
      opt (parens (opt (one .uidList))),
      sequence [word .SET, commas (one .updatedElement)] ||| one .insertStatementValue,
      opt (sequence [word .AS, one .uid, opt tokenGroup]), opt (one .duplicateKeyUpdate)]
  | .insertStatementValue =>
    sequence [Shape.oneOf [.VALUES, .VALUE],
      commas (sequence [opt (word .ROW), parens (one .expressionsWithDefaults)])] ||| oneIn selects
  | .expressionsWithDefaults => opt (commas (oneIn assigned))
  | .defaultExpression => word .DEFAULT
  | .uidList => commas (one .uid)
  | .duplicateKeyUpdate =>
    sequence [tokens, word .KEY, word .UPDATE, commas (one .updatedElement)]
  | .updatedElement => sequence [one .fullColumnName, kind .eq, oneIn assigned]
  | .singleUpdateStatement =>
    sequence [tokens, one .tableName, aliasShape, assignmentsShape, opt (one .orderByClause),
      opt (one .limitClause)]
  | .multipleUpdateStatement => sequence [tokens, one .tableSources, assignmentsShape]
  | .singleDeleteStatement =>
    sequence [tokens, one .tableName, aliasShape, partitionShape, conditionShape,
      opt (one .orderByClause), opt (one .limitClause)]
  | .multipleDeleteStatement =>
    sequence [tokens,
      sequence [word .FROM, targetsShape, word .USING] ||| sequence [targetsShape, word .FROM],
      one .tableSources, conditionShape]
  -- Expressions
  | .expressions => commas (strong conditions 0)
  | .notExpression => sequence [word .NOT, strong conditions negationStrength]
  | .logicalExpression =>
    connectives.chain ⟨.logicalExpression, 1⟩ ||| connectives.chain ⟨.logicalExpression, 3⟩ |||
      connectives.chain ⟨.logicalExpression, 5⟩
  | .logicalOperator => plainToken
  | .comparisonOperator => token (isComparison ·.kind)
  | .isExpression => sequence [strong predicates 0, word .IS, opt (word .NOT), plainToken]
  | .predicateExpression => sequence [strong predicates 0, nothing]
  -- Predicates
  | .inPredicate =>
    sequence [oneIn predicates, opt (word .NOT), plainToken,
      parens (oneIn selects ||| one .expressions)]
  | .isNullPredicate => sequence [oneIn predicates, word .IS, opt (word .NOT), word .NULL]
  | .binaryComparisonPredicate =>
    sequence [oneIn predicates, one .comparisonOperator,
      strong predicates (Test.comparison.strength + 1)]
  | .subqueryComparisonPredicate =>
    sequence [oneIn predicates, one .comparisonOperator, plainToken, parens (oneIn selects)]
  | .betweenPredicate =>
    sequence [oneIn predicates, opt (word .NOT), word .BETWEEN,
      strong predicates (Test.between.strength + 1), word .AND,
      strong predicates (Test.between.strength + 1)]
  | .soundsLikePredicate =>
    sequence [oneIn predicates, tokens, strong predicates (Test.soundsLike.strength + 1)]
  | .likePredicate =>
    sequence [oneIn predicates, opt (word .NOT), plainToken,
      strong predicates (Test.like.strength + 1), opt (sequence [word .ESCAPE, kind .string])]
  | .regexpPredicate =>
    sequence [oneIn predicates, opt (word .NOT), plainToken,
      strong predicates (Test.regexp.strength + 1)]
  | .jsonMemberOfPredicate =>
    sequence [oneIn predicates, tokens, parens (strong predicates 0)]
  | .expressionAtomPredicate => strong operands 0
  -- Expression atoms
  | .constantExpressionAtom => one .constant
  | .fullColumnNameExpressionAtom => one .fullColumnName
  | .functionCallExpressionAtom => one .functionCall
  | .collateExpressionAtom => sequence [oneIn operands, word .COLLATE, uidShape]
  | .mysqlVariableExpressionAtom | .parameterExpressionAtom => plainToken
  | .unaryExpressionAtom | .binaryExpressionAtom =>
    sequence [plainToken, strong operands signStrength]
  | .variableAssignExpressionAtom => sequence [tokens, strong operands 0]
  | .nestedExpressionAtom => parens (commas (strong conditions 0))
  | .nestedRowExpressionAtom => sequence [word .ROW, parens (commas (strong conditions 0))]
  | .existsExpressionAtom => sequence [word .EXISTS, parens (oneIn selects)]
  | .subqueryExpressionAtom => parens (oneIn selects)
  | .intervalExpressionAtom => sequence [word .INTERVAL, strong conditions 0, namePart]
  | .bitExpressionAtom =>
    operandOperators.chain ⟨.bitExpressionAtom, 10⟩ |||
      operandOperators.chain ⟨.bitExpressionAtom, 12⟩ |||
      operandOperators.chain ⟨.bitExpressionAtom, 14⟩ |||
      operandOperators.chain ⟨.bitExpressionAtom, 20⟩
  | .mathExpressionAtom =>
    operandOperators.chain ⟨.mathExpressionAtom, 16⟩ |||
      operandOperators.chain ⟨.mathExpressionAtom, 18⟩
  | .jsonExpressionAtom => operandOperators.chain ⟨.jsonExpressionAtom, 24⟩
  -- Leaves
  | .functionCall =>
    tokens ||| sequence [token fun t => t.kind.isPlain && !t.isKeyword .CASE, opt argumentsShape]
  | .overClause => sequence [word .OVER, tokenGroup ||| namePart]
  | .constant => tokens
  | .fullId | .fullColumnName => dotted
  | .tableName => one .fullId
  | .uid => uidShape

end

instance : Grammar Rule where
  shape := shape

theorem connective_of_chain {operator : InfixOperator Rule} {n : Node Rule}
    (h : (connectives.chain operator).Matches n.children) :
    ∃ sign t, n.child? .logicalOperator = some sign ∧ sign.tokens.head? = some t ∧
      connective? t.kind = some operator := by
  obtain ⟨_, zs, hchildren, ⟨_, _, rfl, ⟨first, rfl, hfirst, -⟩, _, ys, rfl,
    ⟨sign, rfl, hrule, hsign⟩, _⟩, _⟩ := h
  obtain ⟨t, ht, hop⟩ := (Option.any_eq_true _ _).1 hsign
  refine ⟨sign, t, ?_, ht, eq_of_beq hop⟩
  have hne : first.rule ≠ .logicalOperator := by
    rintro heq
    rw [heq] at hfirst
    exact absurd hfirst (by decide)
  have hnodes : n.childNodes = first :: sign :: Tree.nodesOf (ys ++ zs) := by
    rw [Node.childNodes_eq, hchildren]
    rfl
  unfold Node.child? Node.findChild?
  rw [hnodes, List.find?_cons_of_neg (by simpa using hne), List.find?_cons_of_pos]
  simpa using hrule

theorem connectives_shaped : connectives.Shaped where
  chain_within := by
    intro kind operator h
    change connective? kind = some operator at h
    unfold connective? at h
    split at h <;> cases h
    all_goals first
      | exact fun _ => .inr
      | exact fun _ h => .inl (.inl h)
      | exact fun _ h => .inl (.inr h)
  bond_chain := by
    intro kind operator n h hn hmatches
    have hbond : bond? n = (do
        let sign ← n.child? .logicalOperator
        let t ← sign.tokens.head?
        (connective? t.kind).map (·.strength)) := by
      change connective? kind = some operator at h
      unfold bond?
      rw [hn]
      unfold connective? at h
      split at h <;> cases h
      all_goals rfl
    obtain ⟨sign, t, hsign, ht, hop⟩ := connective_of_chain hmatches
    change bond? n = _
    rw [hbond, hsign]
    simp [ht, hop]

theorem operandOperators_shaped : operandOperators.Shaped where
  chain_within := by
    intro kind operator h
    change operandOperator? kind = some operator at h
    unfold operandOperator? at h
    split at h <;> cases h
    all_goals first
      | exact .refl _
      | exact fun _ => .inl
      | exact fun _ => .inr
      | exact fun _ h => .inl (.inr h)
      | exact fun _ h => .inl (.inl (.inl h))
      | exact fun _ h => .inl (.inl (.inr h))
  bond_chain := by
    intro kind operator n h hn hmatches
    refine InfixLayer.bond_of_head rfl ?_ hmatches
    change operandOperator? kind = some operator at h
    change bond? n = _
    unfold bond?
    rw [hn]
    unfold operandOperator? at h
    split at h <;> cases h
    all_goals rfl

end SqlScript.MySql
