import SqlScript.Postgres.Source

/-!
PostgreSQL select statements: single selects, selects in parentheses, set operations.
-/

namespace SqlScript.Postgres

open SqlScript.Parser

/--
The label of an element, if there is one. Behind `AS` any word can be a label.
-/
def optionalLabel : Parser Rule Unit := do
  if ← eatKeyword .AS then
    production .colLabel (expectIf (·.isNamePart 0) "column label")
  else
    ifSees (·.isName 0) (production .colLabel bump)

section

variable (nested : Goal → Parser Rule Unit)

def target : Parser Rule Unit := do
  if ← sees (·.isKind 0 .star) then
    production .targetStar bump
  else
    production .targetEl do
      nested .expression
      optionalLabel

def targets : Parser Rule Unit :=
  production .targetList do
    commaSeparatedFrom (do if !(← eat .star) then target nested) (target nested)

def simpleSelect (withTail : Bool) : Parser Rule Unit :=
  production .simpleSelectPrimary do
    expectKeyword .SELECT
    if !(← eatKeyword .ALL) then
      ifKeyword .DISTINCT distinctClause
    targets nested
    ifKeyword .INTO intoClause
    ifKeyword .FROM (tablesClause nested .fromClause)
    ifKeyword .WHERE (whereClause nested)
    ifKeyword .GROUP groupByClause
    ifKeyword .HAVING (havingClause nested)
    ifKeyword .WINDOW windowClause
    if withTail then
      orderAndLimit nested

def startsSetOperation (a : Lookahead) : Bool :=
  a.topLevelAny (·.isOneOf setOperators)

/--
Is there a set operation in front that binds less strongly than `INTERSECT`?
-/
def startsWeakOperation (a : Lookahead) : Bool :=
  a.topLevelAny (·.isOneOf [.UNION, .EXCEPT])

def setOperator : Parser Rule Unit := do
  bump
  optionalOneOf [.ALL, .DISTINCT]

def setOperand : Parser Rule Unit := do
  if ← sees (·.isKind 0 .leftParen) then
    nested .queryGroup
  else
    simpleSelect nested false

def intersections (checkpoint : Nat) : Parser Rule Unit :=
  ifKeyword .INTERSECT <| productionAt checkpoint .setOperationSelect <|
    whileSees (·.isKeyword 0 .INTERSECT) <| production .setOperationPart do
      setOperator
      setOperand nested

/--
An operand, with its intersections if they bind more strongly than another operation around.
-/
def setTerm (mixed : Bool) : Parser Rule Unit := do
  let checkpoint ← checkpoint
  setOperand nested
  if mixed then
    intersections nested checkpoint

def setOperation : Parser Rule Unit :=
  production .setOperationSelect do
    let mixed ← sees startsWeakOperation
    setTerm nested mixed
    whileSees (·.isOneOf 0 setOperators) <| production .setOperationPart do
      setOperator
      setTerm nested mixed
    selectTail nested

def queryGroup : Parser Rule Unit :=
  production .selectWithParens <| parenthesized do
    if ← sees startsSetOperation then
      setOperation nested
    else if ← sees (·.isKind 0 .leftParen) then
      nested .queryGroup
      selectTail nested
    else
      simpleSelect nested true
      ifKeyword .FOR lockClause

def query : Parser Rule Unit := do
  if ← sees startsSetOperation then
    setOperation nested
  else if ← sees (·.isKind 0 .leftParen) then
    production .parenthesizedSelect do
      nested .queryGroup
      selectTail nested
  else
    production .plainSelect do
      simpleSelect nested true
      ifKeyword .FOR lockClause

end

end SqlScript.Postgres
