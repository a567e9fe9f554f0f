import SqlScript.Postgres.Call
import SqlScript.Postgres.Operator

/-!
Operands of PostgreSQL predicates: literals, columns, calls, subqueries and what operators make of
them.
-/

namespace SqlScript.Postgres

open SqlScript.Parser

def intervalFields : List String := [
  "YEAR", "MONTH", "DAY", "HOUR", "MINUTE", "SECOND"]

def startsIntervalField (a : Lookahead) : Bool :=
  intervalFields.any (a.isWord 0) || (a.isKeyword 0 .TO && intervalFields.any (a.isWord 1))

def intervalLiteral : Parser Rule Unit :=
  production .aexprConst do
    bumpN 2
    whileSees startsIntervalField bump

def literal : Parser Rule Unit :=
  production .aexprConst do
    ifSees (fun a => a.isKind 0 .minus || a.isKind 0 .plus || a.isKind 0 (.identifier "")) bump
    if ← eat .string then
      whileSees (·.isKind 0 .string) bump
    else
      bump

def array : Parser Rule Unit :=
  production .cExprArray do
    bump
    bumpGroup

def named : Parser Rule Unit := do
  let a ← ahead
  if startsBareCall a then
    production .funcExpr bump
  else if (argumentsAt? a 0).isSome then
    call
  else if a.isName 0 then
    columnReference
  else
    expected "expression"

section

variable (nested : Goal → Parser Rule Unit)

def expressionList : Parser Rule Unit :=
  commaSeparated (nested .expression)

def prefixed : Parser Rule Unit :=
  production .aExprUnary do
    bump
    nested (.operand signStrength)

/--
Something in parentheses: a subquery, which is only looked into if it is a select, or a list of
expressions.
-/
def group : Parser Rule Unit := do
  let a ← ahead
  if a.opensSubquery 0 [.SELECT] then
    production .cExprSubquery (parenthesized (nested .query))
  else if a.isOneOf 1 [.WITH, .VALUES] then
    production .cExprSubquery bumpGroup
  else
    production .cExprNested (parenthesized (expressionList nested))

def row : Parser Rule Unit :=
  production .cExprRow do
    bump
    parenthesized (ifSees (!·.isKind 0 .rightParen) (expressionList nested))

def existence : Parser Rule Unit :=
  production .cExprExists do
    bump
    parenthesized (nested .query)

def primary : Parser Rule Unit := do
  let a ← ahead
  match a.kind 0 with
  | .integer | .float | .string | .hexString | .bitString => literal
  | .minus | .plus =>
    if a.isKind 1 .integer || a.isKind 1 .float then literal else prefixed nested
  | .bitNot | .operator => prefixed nested
  | .identifier _ => if a.isKind 1 .string then literal else named
  | .parameter => production .paramRef bump
  | .leftParen => group nested
  | .keyword word =>
    match word with
    | .NULL | .TRUE | .FALSE => literal
    | .INTERVAL => if a.isKind 1 .string then intervalLiteral else named
    | .ROW => if a.isKind 1 .leftParen then row nested else named
    | .ARRAY => if a.isKind 1 .leftBracket || a.isKind 1 .leftParen then array else named
    | .EXISTS => existence nested
    | .CASE => production .caseExpr bumpCase
    | _ => named
  | _ => named

def operandTail (checkpoint least : Nat) : Parser Rule Unit := do
  infixChain checkpoint least (operandOperator? <| ·.kind 0) bump (nested <| .operand ·)
  match ← sees (suffix? least) with
  | some suffix => nested (.suffix suffix checkpoint least)
  | none => return ()

def applySuffix (suffix : Suffix) (checkpoint : Nat) : Parser Rule Unit :=
  match suffix with
  | .typecast =>
    productionAt checkpoint .aExprTypecast do
      bump
      typeName
  | .subscript => productionAt checkpoint .cExprIndirection bumpGroup
  | .field => productionAt checkpoint .cExprIndirection (bumpN 2)
  | .collation =>
    productionAt checkpoint .aExprCollate do
      bump
      anyName "collation name"
  | .timeZone =>
    productionAt checkpoint .aExprAtTimeZone do
      bumpN 3
      nested (.operand (timeZoneStrength + 1))

def suffixedOperand (suffix : Suffix) (checkpoint least : Nat) : Parser Rule Unit := do
  applySuffix nested suffix checkpoint
  operandTail nested checkpoint least

def operand (least : Nat) : Parser Rule Unit := do
  let checkpoint ← checkpoint
  primary nested
  operandTail nested checkpoint least

end

end SqlScript.Postgres
