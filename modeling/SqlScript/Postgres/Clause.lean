import SqlScript.Postgres.Condition

/-!
Clauses of PostgreSQL statements that are no statements and no tables: sorting, grouping, limits,
locks, and what is returned.
-/

namespace SqlScript.Postgres

open SqlScript.Parser

/--
Keywords in front of which a clause that is not looked into ends.
-/
def clauseEnds : List Keyword := [
  .HAVING, .WINDOW, .ORDER, .LIMIT, .OFFSET, .FETCH, .FOR, .UNION, .INTERSECT, .EXCEPT, .INTO, .ON,
  .RETURNING]

def setOperators : List Keyword := [.UNION, .INTERSECT, .EXCEPT]

def lockClause : Parser Rule Unit :=
  production .forLockingClause do
    bump
    bumpBalancedUntil (·.isOneOf setOperators)

def groupByClause : Parser Rule Unit :=
  production .groupClause do
    bump
    expectKeyword .BY
    bumpBalancedUntil (·.isOneOf clauseEnds)

def windowClause : Parser Rule Unit :=
  production .windowClause do
    bump
    bumpBalancedUntil (·.isOneOf clauseEnds)

def distinctClause : Parser Rule Unit :=
  production .distinctClause do
    bump
    afterKeyword .ON bumpGroup

def intoClause : Parser Rule Unit :=
  production .intoClause do
    bump
    discard (eatIf fun a => ["TEMPORARY", "TEMP", "UNLOGGED"].any (a.isWord 0))
    optionalKeyword .TABLE
    qualifiedName

def returningClause : Parser Rule Unit :=
  production .returningClause do
    bump
    bumpBalanced

section

variable (nested : Goal → Parser Rule Unit)

/--
A condition on rows, or the row at which a cursor stands.
-/
def whereClause : Parser Rule Unit :=
  production .whereClause do
    bump
    if ← sees fun a => a.isWord 0 "CURRENT" && a.isKeyword 1 .OF then
      bumpN 2
      name
    else
      nested .expression

def havingClause : Parser Rule Unit :=
  production .havingClause do
    bump
    nested .expression

def sortDirection : Parser Rule Unit := do
  if !(← eatOneOf [.ASC, .DESC]) then
    afterKeyword .USING do
      if ← sees (·.atStatementEnd) then
        expected "operator"
      bump

def sortItem : Parser Rule Unit :=
  production .sortBy do
    nested .expression
    sortDirection
    ifSees (fun a => a.isWord 0 "NULLS" && (a.isKeyword 1 .FIRST || a.isWord 1 "LAST")) (bumpN 2)

def orderByClause : Parser Rule Unit :=
  production .sortClause do
    bump
    expectKeyword .BY
    commaSeparated (sortItem nested)

def limitClause : Parser Rule Unit :=
  production .limitClause do
    bump
    if !(← eatKeyword .ALL) then
      nested .expression

def offsetClause : Parser Rule Unit :=
  production .offsetClause do
    bump
    nested .expression
    optionalOneOf [.ROW, .ROWS]

def startsRowWord (a : Lookahead) : Bool :=
  a.isOneOf 0 [.ROW, .ROWS]

/--
`FETCH FIRST n ROWS ONLY`; the count may be left out.
-/
def fetchClause : Parser Rule Unit :=
  production .fetchClause do
    bump
    expectOneOf [.FIRST, .NEXT] "FIRST or NEXT"
    ifSees (!startsRowWord ·) (nested .expression)
    expectIf startsRowWord "ROW or ROWS"
    if ← sees fun a => a.isKeyword 0 .WITH && a.isWord 1 "TIES" then
      bumpN 2
    else
      expectKeyword .ONLY

def limit? (a : Lookahead) : Option (Parser Rule Unit) :=
  match a.keyword? 0 with
  | some .LIMIT => some (limitClause nested)
  | some .OFFSET => some (offsetClause nested)
  | some .FETCH => some (fetchClause nested)
  | _ => none

def limits : Parser Rule Unit :=
  production .selectLimit <| repeatWhile do
    match ← sees (limit? nested) with
    | some limit =>
      limit
      return true
    | none => return false

def orderAndLimit : Parser Rule Unit := do
  ifKeyword .ORDER (orderByClause nested)
  ifSees (·.isOneOf 0 [.LIMIT, .OFFSET, .FETCH]) (limits nested)

def selectTail : Parser Rule Unit := do
  orderAndLimit nested
  ifKeyword .FOR lockClause

end

end SqlScript.Postgres
