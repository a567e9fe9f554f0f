import SqlScript.MySql.Source

/-!
MySQL select statements: single selects, selects in parentheses, unions.
-/

namespace SqlScript.MySql

open SqlScript.Parser

def modifierKeywords : List Keyword := [
  .ALL, .DISTINCT, .DISTINCTROW, .HIGH_PRIORITY, .STRAIGHT_JOIN]

def modifierWords : List String := [
  "SQL_SMALL_RESULT", "SQL_BIG_RESULT", "SQL_BUFFER_RESULT", "SQL_CACHE", "SQL_NO_CACHE",
  "SQL_CALC_FOUND_ROWS"]

def startsModifier (a : Lookahead) : Bool :=
  a.isOneOf 0 modifierKeywords || modifierWords.any (a.isWord 0)

def elementEnds : List Keyword := [
  .FROM, .INTO, .AS, .UNION, .WHERE, .GROUP, .HAVING, .ORDER, .LIMIT, .WINDOW, .FOR, .LOCK]

/--
Is an element complete in front of the token behind `n` others? A name there is an alias, unless it
starts a test.
-/
def elementEndsAt (a : Lookahead) (n : Nat) : Bool :=
  match a.kind n with
  | .comma | .rightParen | .semicolon | .eof | .string => true
  | _ =>
    a.isOneOf n elementEnds ||
      (a.isName n && !(a.isWord n "SOUNDS" && a.isKeyword (n + 1) .LIKE) &&
        !(a.isWord n "MEMBER" && a.isKeyword (n + 1) .OF))

/--
The index of the star behind a dotted name, at the front of these tokens.
-/
def qualifiedStar? : List Token → Option Nat
  | name :: dot :: rest =>
    if name.isNamePart && dot.kind.alike .dot then
      if rest.head?.any (·.kind.alike .star) then some 2 else (· + 2) <$> qualifiedStar? rest
    else
      none
  | _ => none

def starExtent? (a : Lookahead) : Option Nat :=
  if a.isKind 0 .star then some 0 else qualifiedStar? a.rest

def columnExtent? (a : Lookahead) : Option Nat :=
  if a.isName 0 && !introducesString a then some (nameExtent a 0) else none

def starElement (n : Nat) : Parser Rule Unit :=
  production .selectStarElement do
    if n > 0 then
      production .fullId (bumpN (n - 1))
      bump
    bump

section

variable (nested : Goal → Parser Rule Unit)

/--
A column or a call is told from other expressions by what stands behind it.
-/
def plainElement : Parser Rule Unit := do
  let a ← ahead
  if (callExtent? a 0).any (elementEndsAt a) then
    production .selectFunctionElement do
      functionCall
      optionalAlias
  else if (columnExtent? a).any (elementEndsAt a) then
    production .selectColumnElement do
      columnName
      optionalAlias
  else
    production .selectExpressionElement do
      nested .expression
      optionalAlias

def selectElement : Parser Rule Unit := do
  match ← sees starExtent? with
  | some n => starElement n
  | none => plainElement nested

/--
The elements of a select. A star in the first place stands for itself.
-/
def selectElements : Parser Rule Unit :=
  production .selectElements do
    commaSeparatedFrom (do if !(← eat .star) then selectElement nested) (selectElement nested)

def fromClause : Parser Rule Unit :=
  production .fromClause do
    afterKeyword .FROM (tableSources nested)
    whereCondition nested

/--
One select. The operands of a union leave sorting and limit to the union.
-/
def querySpecification (withTail : Bool) : Parser Rule Unit :=
  production .querySpecification do
    expectKeyword .SELECT
    whileSees startsModifier (production .selectSpec bump)
    selectElements nested
    ifKeyword .INTO intoClause
    ifSees (·.isOneOf 0 [.FROM, .WHERE]) (fromClause nested)
    ifKeyword .GROUP (groupByClause nested)
    ifKeyword .HAVING (havingClause nested)
    ifKeyword .WINDOW windowClause
    if withTail then
      orderAndLimit nested
    ifKeyword .INTO intoClause

/--
Is a union in front, outside of all parentheses?
-/
def startsUnion (a : Lookahead) : Bool :=
  a.topLevelAny (·.isKeyword .UNION)

def unionOperand : Parser Rule Unit := do
  if ← sees (·.isKind 0 .leftParen) then
    nested .queryGroup
  else
    querySpecification nested false

def unionPart : Parser Rule Unit :=
  production .unionStatement do
    bump
    optionalOneOf [.ALL, .DISTINCT]
    unionOperand nested

def unionSelect : Parser Rule Unit :=
  production .unionSelect do
    unionOperand nested
    whileSees (·.isKeyword 0 .UNION) (unionPart nested)
    selectTail nested

def queryGroup : Parser Rule Unit :=
  production .queryExpression <| parenthesized do
    if ← sees startsUnion then
      unionSelect nested
    else if ← sees (·.isKind 0 .leftParen) then
      nested .queryGroup
    else
      querySpecification nested true

def query : Parser Rule Unit := do
  if ← sees startsUnion then
    unionSelect nested
  else if ← sees (·.isKind 0 .leftParen) then
    production .parenthesisSelect do
      nested .queryGroup
      selectTail nested
  else
    production .simpleSelect do
      querySpecification nested true
      ifSees startsLock lockClause

end

end SqlScript.MySql
