import SqlScript.Tree.Basic

/-!
The productions of the PostgreSQL grammar and the families they form.
-/

namespace SqlScript.Postgres

inductive Rule where
  -- Statements
  | root | stmtmulti | stmt | emptyStmt | selectStmt | insertStmt | updateStmt | deleteStmt
  | withStmt | callStmt | mergeStmt | valuesStmt | createdbStmt | ddlStmt | variableShowStmt
  | explainStmt | variableSetStmt | transactionStmt | prepareStmt | grantStmt | utilityStmt
  -- Select
  | plainSelect | setOperationSelect | parenthesizedSelect | selectWithParens
  | simpleSelectPrimary | setOperationPart | distinctClause | targetList | targetEl | targetStar
  | colLabel | intoClause | fromClause | fromList | whereClause | groupClause | havingClause
  | windowClause | sortClause | sortBy | selectLimit | limitClause | offsetClause | fetchClause
  | forLockingClause
  -- Table references
  | tableRef | relationRef | subqueryRef | derivedTableRef | joinedTableRef | funcTableRef
  | qualifiedName | aliasClause | colId | nameList | innerJoin | outerJoin | naturalJoin
  | joinQual
  -- Data manipulation
  | insertTarget | insertColumnList | defaultValues | valuesClause | valuesRow | setToDefault
  | onConflictClause | returningClause | setClause | multiSetClause | setTarget | usingClause
  -- Boolean layer
  | aExprOr | aExprAnd | aExprNot | aExprPredicate
  -- Predicates
  | aExprCompare | compareOp | aExprSubqueryCompare | aExprIn | inList | aExprIsNull | aExprIs
  | aExprBetween | aExprLike | aExprPrimary
  -- Operands
  | aexprConst | columnref | funcExpr | overClause | caseExpr | paramRef | cExprExists
  | cExprSubquery | cExprNested | cExprRow | cExprArray | cExprIndirection | aExprTypecast
  | aExprCollate | aExprAtTimeZone | aExprUnary | aExprMath | aExprQualOp | typename
  deriving DecidableEq, Inhabited

namespace Rule

def all : List Rule := [
  root, stmtmulti, stmt, emptyStmt, selectStmt, insertStmt, updateStmt, deleteStmt, withStmt,
  callStmt, mergeStmt, valuesStmt, createdbStmt, ddlStmt, variableShowStmt, explainStmt,
  variableSetStmt, transactionStmt, prepareStmt, grantStmt, utilityStmt,
  plainSelect, setOperationSelect, parenthesizedSelect, selectWithParens, simpleSelectPrimary,
  setOperationPart, distinctClause, targetList, targetEl, targetStar, colLabel, intoClause,
  fromClause, fromList, whereClause, groupClause, havingClause, windowClause, sortClause, sortBy,
  selectLimit, limitClause, offsetClause, fetchClause, forLockingClause,
  tableRef, relationRef, subqueryRef, derivedTableRef, joinedTableRef, funcTableRef,
  qualifiedName, aliasClause, colId, nameList, innerJoin, outerJoin, naturalJoin, joinQual,
  insertTarget, insertColumnList, defaultValues, valuesClause, valuesRow, setToDefault,
  onConflictClause, returningClause, setClause, multiSetClause, setTarget, usingClause,
  aExprOr, aExprAnd, aExprNot, aExprPredicate,
  aExprCompare, compareOp, aExprSubqueryCompare, aExprIn, inList, aExprIsNull, aExprIs,
  aExprBetween, aExprLike, aExprPrimary,
  aexprConst, columnref, funcExpr, overClause, caseExpr, paramRef, cExprExists, cExprSubquery,
  cExprNested, cExprRow, cExprArray, cExprIndirection, aExprTypecast, aExprCollate,
  aExprAtTimeZone, aExprUnary, aExprMath, aExprQualOp, typename]

def name : Rule → String
  | root => "Root"
  | stmtmulti => "Stmtmulti"
  | stmt => "Stmt"
  | emptyStmt => "EmptyStmt"
  | selectStmt => "SelectStmt"
  | insertStmt => "InsertStmt"
  | updateStmt => "UpdateStmt"
  | deleteStmt => "DeleteStmt"
  | withStmt => "WithStmt"
  | callStmt => "CallStmt"
  | mergeStmt => "MergeStmt"
  | valuesStmt => "ValuesStmt"
  | createdbStmt => "CreatedbStmt"
  | ddlStmt => "DdlStmt"
  | variableShowStmt => "VariableShowStmt"
  | explainStmt => "ExplainStmt"
  | variableSetStmt => "VariableSetStmt"
  | transactionStmt => "TransactionStmt"
  | prepareStmt => "PrepareStmt"
  | grantStmt => "GrantStmt"
  | utilityStmt => "UtilityStmt"
  | plainSelect => "PlainSelect"
  | setOperationSelect => "SetOperationSelect"
  | parenthesizedSelect => "ParenthesizedSelect"
  | selectWithParens => "SelectWithParens"
  | simpleSelectPrimary => "SimpleSelectPrimary"
  | setOperationPart => "SetOperationPart"
  | distinctClause => "DistinctClause"
  | targetList => "TargetList"
  | targetEl => "TargetEl"
  | targetStar => "TargetStar"
  | colLabel => "ColLabel"
  | intoClause => "IntoClause"
  | fromClause => "FromClause"
  | fromList => "FromList"
  | whereClause => "WhereClause"
  | groupClause => "GroupClause"
  | havingClause => "HavingClause"
  | windowClause => "WindowClause"
  | sortClause => "SortClause"
  | sortBy => "SortBy"
  | selectLimit => "SelectLimit"
  | limitClause => "LimitClause"
  | offsetClause => "OffsetClause"
  | fetchClause => "FetchClause"
  | forLockingClause => "ForLockingClause"
  | tableRef => "TableRef"
  | relationRef => "RelationRef"
  | subqueryRef => "SubqueryRef"
  | derivedTableRef => "DerivedTableRef"
  | joinedTableRef => "JoinedTableRef"
  | funcTableRef => "FuncTableRef"
  | qualifiedName => "QualifiedName"
  | aliasClause => "AliasClause"
  | colId => "ColId"
  | nameList => "NameList"
  | innerJoin => "InnerJoin"
  | outerJoin => "OuterJoin"
  | naturalJoin => "NaturalJoin"
  | joinQual => "JoinQual"
  | insertTarget => "InsertTarget"
  | insertColumnList => "InsertColumnList"
  | defaultValues => "DefaultValues"
  | valuesClause => "ValuesClause"
  | valuesRow => "ValuesRow"
  | setToDefault => "SetToDefault"
  | onConflictClause => "OnConflictClause"
  | returningClause => "ReturningClause"
  | setClause => "SetClause"
  | multiSetClause => "MultiSetClause"
  | setTarget => "SetTarget"
  | usingClause => "UsingClause"
  | aExprOr => "AExprOr"
  | aExprAnd => "AExprAnd"
  | aExprNot => "AExprNot"
  | aExprPredicate => "AExprPredicate"
  | aExprCompare => "AExprCompare"
  | compareOp => "CompareOp"
  | aExprSubqueryCompare => "AExprSubqueryCompare"
  | aExprIn => "AExprIn"
  | inList => "InList"
  | aExprIsNull => "AExprIsNull"
  | aExprIs => "AExprIs"
  | aExprBetween => "AExprBetween"
  | aExprLike => "AExprLike"
  | aExprPrimary => "AExprPrimary"
  | aexprConst => "AexprConst"
  | columnref => "Columnref"
  | funcExpr => "FuncExpr"
  | overClause => "OverClause"
  | caseExpr => "CaseExpr"
  | paramRef => "ParamRef"
  | cExprExists => "CExprExists"
  | cExprSubquery => "CExprSubquery"
  | cExprNested => "CExprNested"
  | cExprRow => "CExprRow"
  | cExprArray => "CExprArray"
  | cExprIndirection => "CExprIndirection"
  | aExprTypecast => "AExprTypecast"
  | aExprCollate => "AExprCollate"
  | aExprAtTimeZone => "AExprAtTimeZone"
  | aExprUnary => "AExprUnary"
  | aExprMath => "AExprMath"
  | aExprQualOp => "AExprQualOp"
  | typename => "Typename"

instance : Production Rule := ⟨name⟩

def ofName? (name : String) : Option Rule :=
  all.find? (·.name == name)

def isSelectForm (rule : Rule) : Bool :=
  match rule with
  | plainSelect | setOperationSelect | parenthesizedSelect => true
  | _ => false

def isExpressionForm (rule : Rule) : Bool :=
  match rule with
  | aExprOr | aExprAnd | aExprNot | aExprPredicate => true
  | _ => false

def isPredicateForm (rule : Rule) : Bool :=
  match rule with
  | aExprCompare | aExprSubqueryCompare | aExprIn | aExprIsNull | aExprIs | aExprBetween
  | aExprLike | aExprPrimary => true
  | _ => false

def isAtomForm (rule : Rule) : Bool :=
  match rule with
  | aexprConst | columnref | funcExpr | caseExpr | paramRef | cExprExists | cExprSubquery
  | cExprNested | cExprRow | cExprArray | cExprIndirection | aExprTypecast | aExprCollate
  | aExprAtTimeZone | aExprUnary | aExprMath | aExprQualOp => true
  | _ => false

def isJoinForm (rule : Rule) : Bool :=
  match rule with
  | innerJoin | outerJoin | naturalJoin => true
  | _ => false

/--
What can stand at the start of a table reference or behind a join word.
-/
def isTableItemForm (rule : Rule) : Bool :=
  match rule with
  | relationRef | subqueryRef | derivedTableRef | joinedTableRef | funcTableRef => true
  | _ => false

end Rule

end SqlScript.Postgres
