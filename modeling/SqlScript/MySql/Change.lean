import SqlScript.MySql.Query

/-!
MySQL statements that change rows: `INSERT`, `UPDATE` and `DELETE`.
-/

namespace SqlScript.MySql

open SqlScript.Parser

def skipModifiers (words : List String) (a : Lookahead) (n : Nat) : Nat :=
  n + ((a.rest.drop n).takeWhile isModifier).length
where
  isModifier (t : Token) : Bool :=
    t.isOneOf [.LOW_PRIORITY, .IGNORE] || words.any t.isWord

def updatesOneTable (n : Nat) (a : Lookahead) : Bool :=
  (aliasedNameExtent? a n).any fun n => a.isKeyword n .SET

/--
Does a `DELETE` whose modifiers end behind `n` tokens take rows from one table only?
-/
def deletesFromOneTable (n : Nat) (a : Lookahead) : Bool :=
  a.isKeyword n .FROM && (aliasedNameExtent? a (n + 1)).any fun n =>
    a.isKind n .semicolon || a.isKind n .eof || a.isOneOf n [.PARTITION, .WHERE, .ORDER, .LIMIT]

/--
The tables of which a `DELETE` deletes, each possibly followed by `.*`.
-/
def deleteTargets : Parser Rule Unit :=
  commaSeparated do
    tableName
    ifSees (fun a => a.isKind 0 .dot && a.isKind 1 .star) (bumpN 2)

section

variable (nested : Goal → Parser Rule Unit)

def expressionOrDefault : Parser Rule Unit := do
  if ← sees fun a => a.isKeyword 0 .DEFAULT && !a.isKind 1 .leftParen then
    production .defaultExpression bump
  else
    nested .expression

def valueRow : Parser Rule Unit :=
  production .expressionsWithDefaults do
    ifSees (!·.isKind 0 .rightParen) (commaSeparated (expressionOrDefault nested))

def updatedElement : Parser Rule Unit :=
  production .updatedElement do
    columnName
    expect .eq
    expressionOrDefault nested

def updatedElements : Parser Rule Unit :=
  commaSeparated (updatedElement nested)

def insertedRows : Parser Rule Unit :=
  production .insertStatementValue do
    if ← eatOneOf [.VALUES, .VALUE] then
      commaSeparated do
        optionalKeyword .ROW
        parenthesized (valueRow nested)
    else if ← sees fun a => a.isKeyword 0 .SELECT || a.isKind 0 .leftParen then
      nested .query
    else
      expected "VALUES, SELECT or SET"

/--
The columns of an `INSERT`, in parentheses that hold no query.
-/
def insertedColumns : Parser Rule Unit :=
  ifSees (fun a => a.isKind 0 .leftParen && !a.opensSubquery 0 [.SELECT]) <|
    parenthesized (ifSees (!·.isKind 0 .rightParen) uidList)

def rowAlias : Parser Rule Unit :=
  afterKeyword .AS do
    uid
    ifSees (·.isKind 0 .leftParen) bumpGroup

def duplicateKeyUpdate : Parser Rule Unit :=
  production .duplicateKeyUpdate do
    bumpN 2
    expectKeyword .KEY
    expectKeyword .UPDATE
    updatedElements nested

def insert : Parser Rule Unit :=
  production .insertStatement do
    bump
    whileSees (·.isOneOf 0 [.LOW_PRIORITY, .DELAYED, .HIGH_PRIORITY, .IGNORE]) bump
    optionalKeyword .INTO
    tableName
    partitionGroup
    insertedColumns
    if ← eatKeyword .SET then
      updatedElements nested
    else
      insertedRows nested
    rowAlias
    ifSees (fun a => a.isKeyword 0 .ON && a.isWord 1 "DUPLICATE") (duplicateKeyUpdate nested)

def assignments : Parser Rule Unit := do
  expectKeyword .SET
  updatedElements nested
  whereCondition nested

def update : Parser Rule Unit := do
  let first ← sees (skipModifiers [] · 1)
  if ← sees (updatesOneTable first) then
    production .singleUpdateStatement do
      bumpN first
      tableName
      optionalAlias
      assignments nested
      orderAndLimit nested
  else
    production .multipleUpdateStatement do
      bumpN first
      tableSources nested
      assignments nested

def delete : Parser Rule Unit := do
  let first ← sees (skipModifiers ["QUICK"] · 1)
  if ← sees (deletesFromOneTable first) then
    production .singleDeleteStatement do
      bumpN (first + 1)
      tableName
      optionalAlias
      partitionGroup
      whereCondition nested
      orderAndLimit nested
  else
    production .multipleDeleteStatement do
      bumpN first
      if ← eatKeyword .FROM then
        deleteTargets
        expectKeyword .USING
      else
        deleteTargets
        expectKeyword .FROM
      tableSources nested
      whereCondition nested

end

end SqlScript.MySql
