import SqlScript.Postgres.Rule
import SqlScript.Statement.Reading

/-!
Reading statements from syntax trees of PostgreSQL scripts. The elements of a select are told apart
here, by the shape of their expressions.
-/

namespace SqlScript.Postgres

open SqlScript.Tree

namespace Read

def alias? (c : Context) (n : Node Rule) : Option String := do
  let clause ← n.child? .aliasClause
  let name ← clause.child? .colId
  return (c.identifier name).value

def tableName (c : Context) (n : Node Rule) : TableName :=
  (c.dottedName n).toTableName

def columnName (c : Context) (n : Node Rule) : ColumnName :=
  (c.dottedName n).toColumnName

def namedTable? (c : Context) (n : Node Rule) : Option NamedTable := do
  let name ← n.child? .qualifiedName
  return ⟨c.excerptOf n, tableName c name, alias? c n⟩

def bareOperand? (n : Node Rule) : Option (Node Rule) := do
  guard (n.rule = .aExprPredicate)
  let primary ← n.firstChild?
  guard (primary.rule = .aExprPrimary)
  primary.firstChild?

/--
The dotted name that these tokens are, which must be some.
-/
def nameOfTokens? (c : Context) (tokens : List Token) : Option DottedName := do
  let tokens := tokens.filter (·.kind != .dot)
  let first ← tokens.head?
  let last ← tokens.getLast?
  return c.nameOfTokens (first.span.merge last.span) tokens

def selectElement? (c : Context) (n : Node Rule) : Option SelectElement :=
  match n.rule with
  | .targetStar => some <| .star ⟨c.excerptOf n, none⟩
  | .targetEl => do
    let expression ← n.findChild? Rule.isExpressionForm
    match bareOperand? expression with
    | some operand =>
      match operand.rule with
      | .columnref =>
        if operand.hasToken .star then
          return .star ⟨c.excerptOf n, nameOfTokens? c (operand.tokens.filter (·.kind != .star))⟩
        else
          let label := (c.identifier · |>.value) <$> n.child? .colLabel
          return .column ⟨c.excerptOf n, columnName c operand, label⟩
      | .funcExpr => return .function (c.unstructured n)
      | _ => return .expression (c.unstructured n)
    | none => return .expression (c.unstructured n)
  | _ => none

def count? (c : Context) (n : Node Rule) : Option Nat := do
  let expression ← n.findChild? Rule.isExpressionForm
  Text.count? (c.text expression)

/--
The counts of the limiting clauses. `FETCH` without a count means one row.
-/
def limit (c : Context) (n : Node Rule) : Limit where
  excerpt := c.excerptOf n
  rowCount :=
    match n.child? .limitClause with
    | some clause => count? c clause
    | none => do
      let clause ← n.child? .fetchClause
      if (clause.findChild? Rule.isExpressionForm).isSome then count? c clause else some 1
  offset := n.child? .offsetClause >>= count? c

def joinSide? (n : Node Rule) : Option JoinSide :=
  if n.hasKeyword .LEFT then some .left
  else if n.hasKeyword .RIGHT then some .right
  else if n.hasKeyword .FULL then some .full
  else none

def joinKind? (n : Node Rule) : Option JoinKind :=
  match n.rule with
  | .innerJoin => some .inner
  | .outerJoin => .outer <$> joinSide? n
  | .naturalJoin => some (.natural (joinSide? n))
  | _ => none

def connectiveOf? (n : Node Rule) : Option LogicalOperator :=
  match n.rule with
  | .aExprAnd => some .and
  | .aExprOr => some .or
  | _ => none

def atom (c : Context) (n : Node Rule) : Atom :=
  match n.rule with
  | .aexprConst => .constant (c.excerptOf n) ⟨c.excerptOf n, c.text n⟩
  | .columnref =>
    if n.hasToken .star then .unstructured (c.unstructured n) else .column (columnName c n)
  | _ => .unstructured (c.unstructured n)

def isSetOperand (rule : Rule) : Bool :=
  rule == .simpleSelectPrimary || rule == .selectWithParens || rule == .setOperationSelect

def roles : Roles Rule where
  simpleSelect := .plainSelect
  unionSelect := .setOperationSelect
  parenthesisSelect := .parenthesizedSelect
  specification := .simpleSelectPrimary
  group := .selectWithParens
  unionPart := .setOperationPart
  isOperand := isSetOperand
  partOperand? := (·.findChild? isSetOperand)
  isDistinct n := (n.child? .distinctClause).isSome
  elements := .targetList
  element? := selectElement?
  tables? n := n.child? .fromClause >>= (·.child? .fromList)
  rowCondition? := (·.child? .whereClause)
  groupBy := .groupClause
  having := .havingClause
  orderBy := .sortClause
  limitClause := .selectLimit
  limit
  lock := .forLockingClause
  tableSource := .tableRef
  namedTable := .relationRef
  subqueryTable := .subqueryRef
  nestedTables := .joinedTableRef
  tableList := .fromList
  namedTable?
  alias?
  isJoin := Rule.isJoinForm
  isJoinedItem := Rule.isTableItemForm
  joinKind?
  joinCondition := .joinQual
  nameList := .nameList
  name := .colId
  isSelect := Rule.isSelectForm
  isExpression := Rule.isExpressionForm
  isPredicate := Rule.isPredicateForm
  connective? _ := connectiveOf?
  predicateExpression := .aExprPredicate
  comparison := .aExprCompare
  comparisonOperator := .compareOp
  among := .aExprIn
  inList := .inList
  atomPredicate := .aExprPrimary
  atom? := (·.firstChild?)
  atom

section

variable (c : Context) (reader : Reader Rule)

/--
The column that gets a value. What is said about its elements is left out.
-/
def targetColumn? (n : Node Rule) : Option ColumnName :=
  (·.toColumnName) <$> nameOfTokens? c (n.tokens.takeWhile (·.kind != .leftBracket))

/--
The targets of an assignment to several columns, each with its value. A list of as many expressions
gives each column its own value, anything else is the value of all.
-/
def pairedTargets (n : Node Rule) : List (Node Rule × Node Rule) :=
  let targets := n.childrenOf .setTarget
  match n.findChild? Rule.isExpressionForm with
  | none => []
  | some value =>
    let row :=
      match bareOperand? value with
      | some operand =>
        if operand.rule = .cExprNested then operand.childrenThat Rule.isExpressionForm else []
      | none => []
    if row.length = targets.length then targets.zip row else targets.map (·, value)

def multiAssignments (n : Node Rule) : List Assignment :=
  (pairedTargets n).filterMap fun (target, value) => do
    let column ← targetColumn? c target
    return ⟨c.excerptOf n, column, reader.expression value⟩

def singleAssignment? (n : Node Rule) : Option Assignment := do
  let target ← n.child? .setTarget
  let column ← targetColumn? c target
  let value ← n.findChild? fun rule => rule.isExpressionForm || rule == .setToDefault
  return ⟨c.excerptOf n, column, reader.expression value⟩

def assignmentsOf (n : Node Rule) : List Assignment :=
  n.childNodes.flatMap fun m =>
    match m.rule with
    | .setClause => (singleAssignment? c reader m).toList
    | .multiSetClause => multiAssignments c reader m
    | _ => []

/--
The table that is changed, and after it the tables of the clause that adds some.
-/
def changedTables? (n : Node Rule) (clause : Rule) : Option TableSources := do
  let target ← n.child? .relationRef
  let table ← namedTable? c target
  let first : TableSource := .base ⟨c.excerptOf target, .named table, []⟩
  match n.child? clause >>= (·.child? .fromList) with
  | some list =>
    return ⟨c.excerpt (target.span.merge list.span), first :: (reader.tables list).sources⟩
  | none => return ⟨c.excerptOf target, [first]⟩

def insertSource? (n : Node Rule) : Option InsertSource :=
  match n.child? .valuesClause, n.child? .defaultValues with
  | some values, _ =>
    some <| .values ⟨c.excerptOf values,
      (values.childrenOf .valuesRow).map (·.childNodes.map reader.expression)⟩
  | none, some defaults => some <| .defaultValues (c.excerptOf defaults)
  | none, none => do
    let select ← n.findChild? Rule.isSelectForm
    .select <$> reader.select? select

def insertedColumnsOf (n : Node Rule) : List String :=
  (n.childrenOf .setTarget).filterMap fun m =>
    (fun t => (Identifier.ofRaw (c.tokenText t)).value) <$> m.tokens.head?

def insert? (n : Node Rule) : Option Insert := do
  let source ← insertSource? c reader n
  let target ← n.child? .insertTarget
  let table ← target.child? .qualifiedName
  return {
    excerpt := c.excerptOf n
    table := tableName c table
    columns := ((n.child? .insertColumnList).map (insertedColumnsOf c)).getD []
    source
    onDuplicate := []
    onConflict := Reading.unstructured? c n .onConflictClause
    returning := Reading.unstructured? c n .returningClause }

def rowCondition? (n : Node Rule) : Option Expr :=
  n.child? .whereClause >>= Reading.condition? roles reader

def update? (n : Node Rule) : Option Update := do
  let tables ← changedTables? c reader n .fromClause
  return {
    excerpt := c.excerptOf n
    tables
    assignments := assignmentsOf c reader n
    condition := rowCondition? reader n
    orderBy := none
    limit := none
    returning := Reading.unstructured? c n .returningClause }

def delete? (n : Node Rule) : Option Delete := do
  let tables ← changedTables? c reader n .usingClause
  return {
    excerpt := c.excerptOf n
    tables
    targets := []
    condition := rowCondition? reader n
    orderBy := none
    limit := none
    returning := Reading.unstructured? c n .returningClause }

def createDatabase? (n : Node Rule) : Option CreateDatabase := do
  let name ← n.child? .colId
  return ⟨c.excerptOf n, c.identifier name, n.hasKeyword .IF⟩

def structured? (n : Node Rule) : Option Statement :=
  match n.rule with
  | .selectStmt => .select <$> (n.firstChild? >>= reader.select?)
  | .insertStmt => .insert <$> insert? c reader n
  | .updateStmt => .update <$> update? c reader n
  | .deleteStmt => .delete <$> delete? c reader n
  | .createdbStmt => .createDatabase <$> createDatabase? c n
  | _ => none

def unlooked (n : Node Rule) : Statement :=
  match n.rule with
  | .ddlStmt | .createdbStmt => .definition (c.unstructured n)
  | .variableShowStmt | .explainStmt => .otherRead (c.unstructured n)
  | .selectStmt | .insertStmt | .updateStmt | .deleteStmt | .withStmt | .callStmt | .mergeStmt
  | .valuesStmt => .manipulation (c.unstructured n)
  | _ => .unclassified (c.unstructured n)

def statementOf (n : Node Rule) : Statement :=
  match n.rule with
  | .emptyStmt => .empty (c.excerptOf n)
  | _ =>
    match n.firstChild? with
    | some m => (structured? c reader m).getD (unlooked c m)
    | none => .unclassified (c.unstructured n)

end

end Read

def statementsOf (c : Context) (root : Node Rule) : List Statement :=
  match root.child? .stmtmulti with
  | some list => list.childNodes.map (Read.statementOf c (.ofTree Read.roles c root))
  | none => []

end SqlScript.Postgres
