import SqlScript.Tree.Basic

/-!
The productions of the MySQL grammar and the families they form.
-/

namespace SqlScript.MySql

inductive Rule where
  -- Statements
  | root | sqlStatements | sqlStatement | emptyStatement | dmlStatement | ddlStatement
  | transactionStatement | replicationStatement | preparedStatement | administrationStatement
  | utilityStatement | createDatabase | showStatement | simpleDescribeStatement
  | fullDescribeStatement
  -- Select
  | simpleSelect | parenthesisSelect | unionSelect | unionStatement | queryExpression
  | querySpecification | selectSpec | selectElements | selectStarElement | selectColumnElement
  | selectFunctionElement | selectExpressionElement | selectIntoExpression | fromClause
  | groupByClause | groupByItem | havingClause | windowClause | orderByClause | orderByExpression
  | limitClause | limitClauseAtom | lockClause
  -- Table sources
  | tableSources | tableSourceBase | tableJson | atomTableItem | subqueryTableItem
  | tableSourcesItem | indexHint | innerJoin | straightJoin | outerJoin | naturalJoin | joinSpec
  -- Data manipulation
  | insertStatement | insertStatementValue | expressionsWithDefaults | defaultExpression
  | uidList | duplicateKeyUpdate | updatedElement | singleUpdateStatement
  | multipleUpdateStatement | singleDeleteStatement | multipleDeleteStatement
  -- Expressions
  | expressions | notExpression | logicalExpression | logicalOperator | isExpression
  | predicateExpression
  -- Predicates
  | inPredicate | isNullPredicate | binaryComparisonPredicate | comparisonOperator
  | subqueryComparisonPredicate | betweenPredicate | soundsLikePredicate | likePredicate
  | regexpPredicate | jsonMemberOfPredicate | expressionAtomPredicate
  -- Expression atoms
  | constantExpressionAtom | fullColumnNameExpressionAtom | functionCallExpressionAtom
  | collateExpressionAtom | mysqlVariableExpressionAtom | parameterExpressionAtom
  | unaryExpressionAtom | binaryExpressionAtom | variableAssignExpressionAtom
  | nestedExpressionAtom | nestedRowExpressionAtom | existsExpressionAtom
  | subqueryExpressionAtom | intervalExpressionAtom | bitExpressionAtom | mathExpressionAtom
  | jsonExpressionAtom
  -- Leaves
  | functionCall | overClause | constant | fullId | fullColumnName | tableName | uid
  deriving DecidableEq, Inhabited

namespace Rule

def all : List Rule := [
  root, sqlStatements, sqlStatement, emptyStatement, dmlStatement, ddlStatement,
  transactionStatement, replicationStatement, preparedStatement, administrationStatement,
  utilityStatement, createDatabase, showStatement, simpleDescribeStatement,
  fullDescribeStatement,
  simpleSelect, parenthesisSelect, unionSelect, unionStatement, queryExpression,
  querySpecification, selectSpec, selectElements, selectStarElement, selectColumnElement,
  selectFunctionElement, selectExpressionElement, selectIntoExpression, fromClause,
  groupByClause, groupByItem, havingClause, windowClause, orderByClause, orderByExpression,
  limitClause, limitClauseAtom, lockClause,
  tableSources, tableSourceBase, tableJson, atomTableItem, subqueryTableItem, tableSourcesItem,
  indexHint, innerJoin, straightJoin, outerJoin, naturalJoin, joinSpec,
  insertStatement, insertStatementValue, expressionsWithDefaults, defaultExpression, uidList,
  duplicateKeyUpdate, updatedElement, singleUpdateStatement, multipleUpdateStatement,
  singleDeleteStatement, multipleDeleteStatement,
  expressions, notExpression, logicalExpression, logicalOperator, isExpression,
  predicateExpression,
  inPredicate, isNullPredicate, binaryComparisonPredicate, comparisonOperator,
  subqueryComparisonPredicate, betweenPredicate, soundsLikePredicate, likePredicate,
  regexpPredicate, jsonMemberOfPredicate, expressionAtomPredicate,
  constantExpressionAtom, fullColumnNameExpressionAtom, functionCallExpressionAtom,
  collateExpressionAtom, mysqlVariableExpressionAtom, parameterExpressionAtom,
  unaryExpressionAtom, binaryExpressionAtom, variableAssignExpressionAtom, nestedExpressionAtom,
  nestedRowExpressionAtom, existsExpressionAtom, subqueryExpressionAtom, intervalExpressionAtom,
  bitExpressionAtom, mathExpressionAtom, jsonExpressionAtom,
  functionCall, overClause, constant, fullId, fullColumnName, tableName, uid]

def name : Rule → String
  | root => "Root"
  | sqlStatements => "SqlStatements"
  | sqlStatement => "SqlStatement"
  | emptyStatement => "EmptyStatement"
  | dmlStatement => "DmlStatement"
  | ddlStatement => "DdlStatement"
  | transactionStatement => "TransactionStatement"
  | replicationStatement => "ReplicationStatement"
  | preparedStatement => "PreparedStatement"
  | administrationStatement => "AdministrationStatement"
  | utilityStatement => "UtilityStatement"
  | createDatabase => "CreateDatabase"
  | showStatement => "ShowStatement"
  | simpleDescribeStatement => "SimpleDescribeStatement"
  | fullDescribeStatement => "FullDescribeStatement"
  | simpleSelect => "SimpleSelect"
  | parenthesisSelect => "ParenthesisSelect"
  | unionSelect => "UnionSelect"
  | unionStatement => "UnionStatement"
  | queryExpression => "QueryExpression"
  | querySpecification => "QuerySpecification"
  | selectSpec => "SelectSpec"
  | selectElements => "SelectElements"
  | selectStarElement => "SelectStarElement"
  | selectColumnElement => "SelectColumnElement"
  | selectFunctionElement => "SelectFunctionElement"
  | selectExpressionElement => "SelectExpressionElement"
  | selectIntoExpression => "SelectIntoExpression"
  | fromClause => "FromClause"
  | groupByClause => "GroupByClause"
  | groupByItem => "GroupByItem"
  | havingClause => "HavingClause"
  | windowClause => "WindowClause"
  | orderByClause => "OrderByClause"
  | orderByExpression => "OrderByExpression"
  | limitClause => "LimitClause"
  | limitClauseAtom => "LimitClauseAtom"
  | lockClause => "LockClause"
  | tableSources => "TableSources"
  | tableSourceBase => "TableSourceBase"
  | tableJson => "TableJson"
  | atomTableItem => "AtomTableItem"
  | subqueryTableItem => "SubqueryTableItem"
  | tableSourcesItem => "TableSourcesItem"
  | indexHint => "IndexHint"
  | innerJoin => "InnerJoin"
  | straightJoin => "StraightJoin"
  | outerJoin => "OuterJoin"
  | naturalJoin => "NaturalJoin"
  | joinSpec => "JoinSpec"
  | insertStatement => "InsertStatement"
  | insertStatementValue => "InsertStatementValue"
  | expressionsWithDefaults => "ExpressionsWithDefaults"
  | defaultExpression => "DefaultExpression"
  | uidList => "UidList"
  | duplicateKeyUpdate => "DuplicateKeyUpdate"
  | updatedElement => "UpdatedElement"
  | singleUpdateStatement => "SingleUpdateStatement"
  | multipleUpdateStatement => "MultipleUpdateStatement"
  | singleDeleteStatement => "SingleDeleteStatement"
  | multipleDeleteStatement => "MultipleDeleteStatement"
  | expressions => "Expressions"
  | notExpression => "NotExpression"
  | logicalExpression => "LogicalExpression"
  | logicalOperator => "LogicalOperator"
  | isExpression => "IsExpression"
  | predicateExpression => "PredicateExpression"
  | inPredicate => "InPredicate"
  | isNullPredicate => "IsNullPredicate"
  | binaryComparisonPredicate => "BinaryComparisonPredicate"
  | comparisonOperator => "ComparisonOperator"
  | subqueryComparisonPredicate => "SubqueryComparisonPredicate"
  | betweenPredicate => "BetweenPredicate"
  | soundsLikePredicate => "SoundsLikePredicate"
  | likePredicate => "LikePredicate"
  | regexpPredicate => "RegexpPredicate"
  | jsonMemberOfPredicate => "JsonMemberOfPredicate"
  | expressionAtomPredicate => "ExpressionAtomPredicate"
  | constantExpressionAtom => "ConstantExpressionAtom"
  | fullColumnNameExpressionAtom => "FullColumnNameExpressionAtom"
  | functionCallExpressionAtom => "FunctionCallExpressionAtom"
  | collateExpressionAtom => "CollateExpressionAtom"
  | mysqlVariableExpressionAtom => "MysqlVariableExpressionAtom"
  | parameterExpressionAtom => "ParameterExpressionAtom"
  | unaryExpressionAtom => "UnaryExpressionAtom"
  | binaryExpressionAtom => "BinaryExpressionAtom"
  | variableAssignExpressionAtom => "VariableAssignExpressionAtom"
  | nestedExpressionAtom => "NestedExpressionAtom"
  | nestedRowExpressionAtom => "NestedRowExpressionAtom"
  | existsExpressionAtom => "ExistsExpressionAtom"
  | subqueryExpressionAtom => "SubqueryExpressionAtom"
  | intervalExpressionAtom => "IntervalExpressionAtom"
  | bitExpressionAtom => "BitExpressionAtom"
  | mathExpressionAtom => "MathExpressionAtom"
  | jsonExpressionAtom => "JsonExpressionAtom"
  | functionCall => "FunctionCall"
  | overClause => "OverClause"
  | constant => "Constant"
  | fullId => "FullId"
  | fullColumnName => "FullColumnName"
  | tableName => "TableName"
  | uid => "Uid"

instance : Production Rule := ⟨name⟩

def ofName? (name : String) : Option Rule :=
  all.find? (·.name == name)

def isSelectForm (rule : Rule) : Bool :=
  match rule with
  | simpleSelect | unionSelect | parenthesisSelect => true
  | _ => false

def isExpressionForm (rule : Rule) : Bool :=
  match rule with
  | notExpression | logicalExpression | isExpression | predicateExpression => true
  | _ => false

def isPredicateForm (rule : Rule) : Bool :=
  match rule with
  | inPredicate | isNullPredicate | binaryComparisonPredicate | subqueryComparisonPredicate
  | betweenPredicate | soundsLikePredicate | likePredicate | regexpPredicate
  | jsonMemberOfPredicate | expressionAtomPredicate => true
  | _ => false

def isAtomForm (rule : Rule) : Bool :=
  match rule with
  | constantExpressionAtom | fullColumnNameExpressionAtom | functionCallExpressionAtom
  | collateExpressionAtom | mysqlVariableExpressionAtom | parameterExpressionAtom
  | unaryExpressionAtom | binaryExpressionAtom | variableAssignExpressionAtom
  | nestedExpressionAtom | nestedRowExpressionAtom | existsExpressionAtom
  | subqueryExpressionAtom | intervalExpressionAtom | bitExpressionAtom | mathExpressionAtom
  | jsonExpressionAtom => true
  | _ => false

def isJoinForm (rule : Rule) : Bool :=
  match rule with
  | innerJoin | straightJoin | outerJoin | naturalJoin => true
  | _ => false

end Rule

end SqlScript.MySql
