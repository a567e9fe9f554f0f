import SqlScript.MySql.Clause

/-!
Where MySQL statements take their rows from: tables, subqueries and joins.
-/

namespace SqlScript.MySql

open SqlScript.Parser

def startsIndexHint (a : Lookahead) : Bool :=
  a.isOneOf 0 [.USE, .IGNORE, .FORCE] && a.isOneOf 1 [.INDEX, .KEY]

/--
`USE INDEX (...)` and the like, possibly `FOR JOIN`, `FOR ORDER BY` or `FOR GROUP BY`.
-/
def indexHint : Parser Rule Unit :=
  production .indexHint do
    bumpN 2
    afterKeyword .FOR do
      if !(← eatKeyword .JOIN) then
        bump
        expectKeyword .BY
    bumpGroup

def partitionGroup : Parser Rule Unit :=
  afterKeyword .PARTITION bumpGroup

def namedTable : Parser Rule Unit :=
  production .atomTableItem do
    tableName
    partitionGroup
    optionalAlias
    whileSees startsIndexHint indexHint

def jsonTable : Parser Rule Unit :=
  production .tableJson do
    bump
    bumpGroup
    optionalAlias

def startsSubquery (a : Lookahead) : Bool :=
  (a.isKeyword 0 .LATERAL && a.isKind 1 .leftParen) || a.opensSubquery 0 [.SELECT]

section

variable (nested : Goal → Parser Rule Unit)

def subquerySource : Parser Rule Unit :=
  production .subqueryTableItem do
    optionalKeyword .LATERAL
    parenthesized (nested .query)
    optionalKeyword .AS
    uid
    ifSees (·.isKind 0 .leftParen) (parenthesized uidList)

def joinSpec : Parser Rule Unit :=
  production .joinSpec do
    if ← eatKeyword .ON then
      nested .expression
    else
      bump
      parenthesized uidList

def startsJoinSpec (a : Lookahead) : Bool :=
  a.isOneOf 0 [.ON, .USING]

def innerJoin : Parser Rule Unit :=
  production .innerJoin do
    optionalOneOf [.INNER, .CROSS]
    expectKeyword .JOIN
    nested .source
    whileSees startsJoinSpec (joinSpec nested)

def straightJoin : Parser Rule Unit :=
  production .straightJoin do
    bump
    nested .source
    ifKeyword .ON (joinSpec nested)

def outerJoin : Parser Rule Unit :=
  production .outerJoin do
    bump
    optionalKeyword .OUTER
    expectKeyword .JOIN
    nested .source
    if ← sees startsJoinSpec then
      joinSpec nested
    else
      expected "ON or USING"

def naturalJoin : Parser Rule Unit :=
  production .naturalJoin do
    bump
    if ← eatOneOf [.LEFT, .RIGHT] then
      optionalKeyword .OUTER
    expectKeyword .JOIN
    nested .source

def join? (a : Lookahead) : Option (Parser Rule Unit) :=
  match a.keyword? 0 with
  | some .INNER | some .CROSS | some .JOIN => some (innerJoin nested)
  | some .STRAIGHT_JOIN => some (straightJoin nested)
  | some .LEFT | some .RIGHT => some (outerJoin nested)
  | some .NATURAL => some (naturalJoin nested)
  | _ => none

def joins : Parser Rule Unit :=
  repeatWhile do
    match ← sees (join? nested) with
    | some join =>
      join
      return true
    | none => return false

/--
A table with what is joined to it. A table made from JSON is joined to nothing.
-/
def tableSource : Parser Rule Unit := do
  if ← sees fun a => a.isWord 0 "JSON_TABLE" && a.isKind 1 .leftParen then
    jsonTable
  else
    production .tableSourceBase do
      nested .source
      joins nested

def tableSources : Parser Rule Unit :=
  production .tableSources (commaSeparated (tableSource nested))

def source : Parser Rule Unit := do
  if ← sees startsSubquery then
    subquerySource nested
  else if ← sees (·.isKind 0 .leftParen) then
    production .tableSourcesItem (parenthesized (tableSources nested))
  else
    namedTable

end

end SqlScript.MySql
