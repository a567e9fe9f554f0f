import SqlScript.MySql.Rule
import SqlScript.Statement.Reading

/-!
Reading statements from syntax trees of MySQL scripts.
-/

namespace SqlScript.MySql

open SqlScript.Tree

namespace Read

/--
What lies between the quotes of the single name inside a production.
-/
def alias? (c : Context) (n : Node Rule) : Option String :=
  (c.identifier · |>.value) <$> n.child? .uid

def tableName? (c : Context) (n : Node Rule) : Option TableName :=
  (c.dottedName · |>.toTableName) <$> n.child? .fullId

def columnName (c : Context) (n : Node Rule) : ColumnName :=
  (c.dottedName n).toColumnName

def namedTable? (c : Context) (n : Node Rule) : Option NamedTable := do
  let name ← n.child? .tableName >>= tableName? c
  return ⟨c.excerptOf n, name, alias? c n⟩

def isDistinct (n : Node Rule) : Bool :=
  (n.childrenOf .selectSpec).any fun m => m.hasKeyword .DISTINCT || m.hasKeyword .DISTINCTROW

def selectElement? (c : Context) (n : Node Rule) : Option SelectElement :=
  match n.rule with
  | .selectStarElement => some <| .star ⟨c.excerptOf n, c.dottedName <$> n.child? .fullId⟩
  | .selectColumnElement => do
    let column ← n.child? .fullColumnName
    return .column ⟨c.excerptOf n, columnName c column, alias? c n⟩
  | .selectFunctionElement => some <| .function (c.unstructured n)
  | .selectExpressionElement => some <| .expression (c.unstructured n)
  | _ => none

/--
The counts of a limit. In front of a comma stands the offset.
-/
def limit (c : Context) (n : Node Rule) : Limit :=
  let counts := (n.childrenOf .limitClauseAtom).map fun m => m.tokens.head? >>= c.integer?
  let first := counts[0]?.join
  let second := counts[1]?.join
  if n.hasKeyword .OFFSET then
    ⟨c.excerptOf n, first, second⟩
  else if n.hasToken .comma then
    ⟨c.excerptOf n, second, first⟩
  else
    ⟨c.excerptOf n, first, none⟩

def joinKind? (n : Node Rule) : Option JoinKind :=
  match n.rule with
  | .innerJoin => some .inner
  | .straightJoin => some .straight
  | .outerJoin => some (.outer (if n.hasKeyword .LEFT then .left else .right))
  | .naturalJoin =>
    some <| .natural <|
      if n.hasKeyword .LEFT then some .left
      else if n.hasKeyword .RIGHT then some .right
      else none
  | _ => none

def connectiveOf? (c : Context) (n : Node Rule) : Option LogicalOperator :=
  match n.rule with
  | .logicalExpression => n.child? .logicalOperator >>= (LogicalOperator.ofText? <| c.text ·)
  | _ => none

def atom (c : Context) (n : Node Rule) : Atom :=
  let atom? : Option Atom :=
    match n.rule with
    | .constantExpressionAtom =>
      (fun m => .constant (c.excerptOf n) ⟨c.excerptOf m, c.text m⟩) <$> n.child? .constant
    | .fullColumnNameExpressionAtom => (.column <| columnName c ·) <$> n.child? .fullColumnName
    | _ => none
  atom?.getD (.unstructured (c.unstructured n))

def roles : Roles Rule where
  simpleSelect := .simpleSelect
  unionSelect := .unionSelect
  parenthesisSelect := .parenthesisSelect
  specification := .querySpecification
  group := .queryExpression
  unionPart := .unionStatement
  isOperand rule := rule == .querySpecification || rule == .queryExpression
  partOperand? := (·.firstChild?)
  isDistinct
  elements := .selectElements
  element? := selectElement?
  tables? n := n.child? .fromClause >>= (·.child? .tableSources)
  rowCondition? := (·.child? .fromClause)
  groupBy := .groupByClause
  having := .havingClause
  orderBy := .orderByClause
  limitClause := .limitClause
  limit
  lock := .lockClause
  tableSource := .tableSourceBase
  namedTable := .atomTableItem
  subqueryTable := .subqueryTableItem
  nestedTables := .tableSourcesItem
  tableList := .tableSources
  namedTable?
  alias?
  isJoin := Rule.isJoinForm
  isJoinedItem rule :=
    rule == .atomTableItem || rule == .subqueryTableItem || rule == .tableSourcesItem
  joinKind?
  joinCondition := .joinSpec
  nameList := .uidList
  name := .uid
  isSelect := Rule.isSelectForm
  isExpression := Rule.isExpressionForm
  isPredicate := Rule.isPredicateForm
  connective? := connectiveOf?
  predicateExpression := .predicateExpression
  comparison := .binaryComparisonPredicate
  comparisonOperator := .comparisonOperator
  among := .inPredicate
  inList := .expressions
  atomPredicate := .expressionAtomPredicate
  atom? := (·.findChild? Rule.isAtomForm)
  atom

section

variable (c : Context) (reader : Reader Rule)

def assignmentsOf (n : Node Rule) : List Assignment :=
  (n.childrenOf .updatedElement).filterMap fun m => do
    let value ← m.findChild? fun rule => rule.isExpressionForm || rule == .defaultExpression
    let column ← m.child? .fullColumnName
    return ⟨c.excerptOf m, columnName c column, reader.expression value⟩

def singleTable? (n : Node Rule) : Option TableSources := do
  let name ← n.child? .tableName
  let table ← tableName? c name
  let excerpt := c.excerpt <|
    match n.child? .uid with
    | some uid => name.span.merge uid.span
    | none => name.span
  return ⟨excerpt, [.base ⟨excerpt, .named ⟨excerpt, table, alias? c n⟩, []⟩]⟩

def insertSource? (n : Node Rule) : Option InsertSource :=
  match n.child? .insertStatementValue with
  | some value =>
    match value.findChild? Rule.isSelectForm with
    | some select => .select <$> reader.select? select
    | none =>
      some <| .values ⟨c.excerptOf value,
        (value.childrenOf .expressionsWithDefaults).map (·.childNodes.map reader.expression)⟩
  | none => some <| .set (assignmentsOf c reader n)

def insert? (n : Node Rule) : Option Insert := do
  let source ← insertSource? c reader n
  let table ← n.child? .tableName >>= tableName? c
  return {
    excerpt := c.excerptOf n
    table
    columns := ((n.child? .uidList).map (Reading.names roles c)).getD []
    source
    onDuplicate := ((n.child? .duplicateKeyUpdate).map (assignmentsOf c reader)).getD []
    onConflict := none
    returning := none }

def update? (n : Node Rule) : Option Update := do
  let tables ←
    if n.rule = .singleUpdateStatement then singleTable? c n
    else reader.tables <$> n.child? .tableSources
  return {
    excerpt := c.excerptOf n
    tables
    assignments := assignmentsOf c reader n
    condition := Reading.condition? roles reader n
    orderBy := Reading.unstructured? c n .orderByClause
    limit := Reading.limit? roles c n
    returning := none }

def delete? (n : Node Rule) : Option Delete := do
  let single := n.rule = .singleDeleteStatement
  let tables ← if single then singleTable? c n else reader.tables <$> n.child? .tableSources
  return {
    excerpt := c.excerptOf n
    tables
    targets := if single then [] else (n.childrenOf .tableName).filterMap (tableName? c)
    condition := Reading.condition? roles reader n
    orderBy := Reading.unstructured? c n .orderByClause
    limit := Reading.limit? roles c n
    returning := none }

def createDatabase? (n : Node Rule) : Option CreateDatabase := do
  let name ← n.child? .uid
  return ⟨c.excerptOf n, c.identifier name, n.hasKeyword .IF⟩

def manipulationOf (n : Node Rule) : Statement :=
  let statement? : Option Statement := do
    let m ← n.firstChild?
    match m.rule with
    | .simpleSelect | .unionSelect | .parenthesisSelect => .select <$> reader.select? m
    | .insertStatement => .insert <$> insert? c reader m
    | .singleUpdateStatement | .multipleUpdateStatement => .update <$> update? c reader m
    | .singleDeleteStatement | .multipleDeleteStatement => .delete <$> delete? c reader m
    | _ => none
  statement?.getD (.manipulation (c.unstructured n))

def statementOfFamily (n : Node Rule) : Statement :=
  match n.rule with
  | .dmlStatement => manipulationOf c reader n
  | .ddlStatement =>
    match n.child? .createDatabase >>= createDatabase? c with
    | some create => .createDatabase create
    | none => .definition (c.unstructured n)
  | .administrationStatement =>
    match n.child? .showStatement with
    | some m => .otherRead (c.unstructured m)
    | none => .unclassified (c.unstructured n)
  | .utilityStatement =>
    match n.findChild? (fun rule =>
      rule == .simpleDescribeStatement || rule == .fullDescribeStatement) with
    | some m => .otherRead (c.unstructured m)
    | none => .unclassified (c.unstructured n)
  | _ => .unclassified (c.unstructured n)

def statementOf (n : Node Rule) : Statement :=
  match n.rule with
  | .emptyStatement => .empty (c.excerptOf n)
  | _ =>
    match n.firstChild? with
    | some family => statementOfFamily c reader family
    | none => .unclassified (c.unstructured n)

end

end Read

def statementsOf (c : Context) (root : Node Rule) : List Statement :=
  match root.child? .sqlStatements with
  | some list => list.childNodes.map (Read.statementOf c (.ofTree Read.roles c root))
  | none => []

end SqlScript.MySql
