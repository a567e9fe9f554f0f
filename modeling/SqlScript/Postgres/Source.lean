import SqlScript.Postgres.Clause

/-!
Where PostgreSQL statements take their rows from: relations, subqueries, functions and joins.
-/

namespace SqlScript.Postgres

open SqlScript.Parser

def relation : Parser Rule Unit :=
  production .relationRef do
    optionalKeyword .ONLY
    qualifiedName
    discard (eat .star)
    optionalAlias
    if ← eatWord "TABLESAMPLE" then
      expectName
      bumpGroup
      if ← eatWord "REPEATABLE" then
        bumpGroup

/--
A function as a table; its arguments open behind `n` tokens.
-/
def functionTable (n : Nat) : Parser Rule Unit :=
  production .funcTableRef do
    bumpN n
    bumpGroup
    ifSees (fun a => a.isKeyword 0 .WITH && a.isWord 1 "ORDINALITY") (bumpN 2)
    optionalAlias

def derivedTable : Parser Rule Unit :=
  production .derivedTableRef do
    optionalKeyword .LATERAL
    bumpGroup
    optionalAlias

section

variable (nested : Goal → Parser Rule Unit)

def subqueryTable : Parser Rule Unit :=
  production .subqueryRef do
    optionalKeyword .LATERAL
    parenthesized (nested .query)
    optionalAlias

def joinCondition : Parser Rule Unit := do
  if ← sees (·.isOneOf 0 [.ON, .USING]) then
    production .joinQual do
      if ← eatKeyword .ON then
        nested .expression
      else
        bump
        parenthesized nameList
        afterKeyword .AS name
  else
    expected "ON or USING"

def crossJoin : Parser Rule Unit :=
  production .innerJoin do
    bump
    expectKeyword .JOIN
    nested .source

def innerJoin : Parser Rule Unit :=
  production .innerJoin do
    optionalKeyword .INNER
    expectKeyword .JOIN
    nested .source
    joinCondition nested

def outerJoin : Parser Rule Unit :=
  production .outerJoin do
    bump
    optionalKeyword .OUTER
    expectKeyword .JOIN
    nested .source
    joinCondition nested

def naturalJoin : Parser Rule Unit :=
  production .naturalJoin do
    bump
    if ← eatOneOf [.LEFT, .RIGHT, .FULL] then
      optionalKeyword .OUTER
    else
      optionalKeyword .INNER
    expectKeyword .JOIN
    nested .source

def join? (a : Lookahead) : Option (Parser Rule Unit) :=
  match a.keyword? 0 with
  | some .CROSS => some (crossJoin nested)
  | some .INNER | some .JOIN => some (innerJoin nested)
  | some .LEFT | some .RIGHT | some .FULL => some (outerJoin nested)
  | some .NATURAL => some (naturalJoin nested)
  | _ => none

def joins : Parser Rule Unit :=
  repeatWhile do
    match ← sees (join? nested) with
    | some join =>
      join
      return true
    | none => return false

def tableReference : Parser Rule Unit :=
  production .tableRef do
    nested .source
    joins nested

def fromList : Parser Rule Unit :=
  production .fromList (commaSeparated (tableReference nested))

def tablesClause (rule : Rule) : Parser Rule Unit :=
  production rule do
    bump
    fromList nested

def joinedTable : Parser Rule Unit :=
  production .joinedTableRef do
    parenthesized (fromList nested)
    optionalAlias

/--
One item of a table list or join. `LATERAL` may stand in front of subqueries and functions.
-/
def source : Parser Rule Unit := do
  let a ← ahead
  let lateral := a.isKeyword 0 .LATERAL
  let n := if lateral then 1 else 0
  if a.opensSubquery n [.SELECT] then
    subqueryTable nested
  else if a.isKind n .leftParen && a.isOneOf (n + 1) [.VALUES, .WITH] then
    derivedTable
  else if !lateral && a.isKind 0 .leftParen then
    joinedTable nested
  else
    match argumentsAt? a n with
    | some opened => functionTable opened
    | none =>
      if lateral then
        bump
        expected "subquery or function after LATERAL"
      else
        relation

end

end SqlScript.Postgres
