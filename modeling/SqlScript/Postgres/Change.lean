import SqlScript.Postgres.Query

/-!
PostgreSQL statements that change rows: `INSERT`, `UPDATE` and `DELETE`.
-/

namespace SqlScript.Postgres

open SqlScript.Parser

def changedColumn : Parser Rule Unit :=
  production .setTarget do
    expectName
    repeatWhile do
      if ← sees startsPart then
        bumpN 2
        return true
      else if ← sees (·.isKind 0 .leftBracket) then
        bumpGroup
        return true
      else
        return false

def changedColumns : Parser Rule Unit :=
  parenthesized (commaSeparated changedColumn)

def insertedColumns : Parser Rule Unit :=
  ifSees (fun a => a.isKind 0 .leftParen && !a.opensSubquery 0 [.SELECT]) <|
    production .insertColumnList changedColumns

def insertTarget : Parser Rule Unit :=
  production .insertTarget do
    qualifiedName
    afterKeyword .AS name

def overriding : Parser Rule Unit :=
  ifSees (·.isWord 0 "OVERRIDING") do
    bumpN 2
    expectKeyword .VALUE

def conflictClause : Parser Rule Unit :=
  production .onConflictClause do
    bumpN 2
    bumpBalancedUntil (·.isKeyword .RETURNING)

section

variable (nested : Goal → Parser Rule Unit)

def expressionOrDefault : Parser Rule Unit := do
  if ← sees (·.isKeyword 0 .DEFAULT) then
    production .setToDefault bump
  else
    nested .expression

def valueRow : Parser Rule Unit :=
  production .valuesRow (parenthesized (commaSeparated (expressionOrDefault nested)))

def valueRows : Parser Rule Unit :=
  production .valuesClause do
    bump
    commaSeparated (valueRow nested)

def insertedRows : Parser Rule Unit := do
  let a ← ahead
  if a.isKeyword 0 .DEFAULT && a.isKeyword 1 .VALUES then
    production .defaultValues (bumpN 2)
  else if a.isKeyword 0 .VALUES then
    valueRows nested
  else if a.isKeyword 0 .SELECT || a.isKind 0 .leftParen then
    nested .query
  else
    expected "VALUES, SELECT or DEFAULT VALUES"

def insert : Parser Rule Unit :=
  production .insertStmt do
    bump
    expectKeyword .INTO
    insertTarget
    insertedColumns
    overriding
    insertedRows nested
    ifSees (fun a => a.isKeyword 0 .ON && a.isWord 1 "CONFLICT") conflictClause
    ifKeyword .RETURNING returningClause

def assignment : Parser Rule Unit := do
  if ← sees (·.isKind 0 .leftParen) then
    production .multiSetClause do
      changedColumns
      expect .eq
      nested .expression
  else
    production .setClause do
      changedColumn
      expect .eq
      expressionOrDefault nested

def update : Parser Rule Unit :=
  production .updateStmt do
    bump
    relation
    expectKeyword .SET
    commaSeparated (assignment nested)
    ifKeyword .FROM (tablesClause nested .fromClause)
    ifKeyword .WHERE (whereClause nested)
    ifKeyword .RETURNING returningClause

def delete : Parser Rule Unit :=
  production .deleteStmt do
    bump
    expectKeyword .FROM
    relation
    ifKeyword .USING (tablesClause nested .usingClause)
    ifKeyword .WHERE (whereClause nested)
    ifKeyword .RETURNING returningClause

end

end SqlScript.Postgres
