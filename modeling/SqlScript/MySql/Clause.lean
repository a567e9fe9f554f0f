import SqlScript.MySql.Condition

/-!
Clauses of MySQL statements that are no statements and no tables: sorting, grouping, limits, locks
and targets of a select.
-/

namespace SqlScript.MySql

open SqlScript.Parser

def startsLimitValue (a : Lookahead) : Bool :=
  a.isKind 0 .integer || a.isKind 0 .atVariable || a.isKind 0 .question || a.isName 0

def limitValue : Parser Rule Unit :=
  production .limitClauseAtom (expectIf startsLimitValue "limit value")

/--
`LIMIT count`, `LIMIT offset, count` or `LIMIT count OFFSET offset`.
-/
def limitClause : Parser Rule Unit :=
  production .limitClause do
    bump
    limitValue
    if ← eatIf fun a => a.isKind 0 .comma || a.isKeyword 0 .OFFSET then
      limitValue

/--
`FOR` with anything behind it, or `LOCK IN SHARE MODE`.
-/
def startsLock (a : Lookahead) : Bool :=
  a.isKeyword 0 .FOR || (a.isKeyword 0 .LOCK && a.isKeyword 1 .IN)

def lockClause : Parser Rule Unit :=
  production .lockClause do
    bump
    bumpBalancedUntil (·.isOneOf [.UNION, .INTO])

def intoClause : Parser Rule Unit :=
  production .selectIntoExpression do
    bump
    bumpBalancedUntil (·.isOneOf
      [.FROM, .WHERE, .GROUP, .HAVING, .WINDOW, .ORDER, .LIMIT, .FOR, .LOCK, .UNION])

def windowClause : Parser Rule Unit :=
  production .windowClause do
    bump
    bumpBalancedUntil (·.isOneOf [.ORDER, .LIMIT, .UNION, .INTO, .FOR, .LOCK])

section

variable (nested : Goal → Parser Rule Unit)

def whereCondition : Parser Rule Unit :=
  afterKeyword .WHERE (nested .expression)

def havingClause : Parser Rule Unit :=
  production .havingClause do
    bump
    nested .expression

def sortItem (rule : Rule) : Parser Rule Unit :=
  production rule do
    nested .expression
    optionalOneOf [.ASC, .DESC]

def groupByClause : Parser Rule Unit :=
  production .groupByClause do
    bump
    expectKeyword .BY
    commaSeparated (sortItem nested .groupByItem)
    ifSees (fun a => a.isKeyword 0 .WITH && a.isWord 1 "ROLLUP") (bumpN 2)

def orderByClause : Parser Rule Unit :=
  production .orderByClause do
    bump
    expectKeyword .BY
    commaSeparated (sortItem nested .orderByExpression)

def orderAndLimit : Parser Rule Unit := do
  ifKeyword .ORDER (orderByClause nested)
  ifKeyword .LIMIT limitClause

def selectTail : Parser Rule Unit := do
  orderAndLimit nested
  ifSees startsLock lockClause

end

end SqlScript.MySql
