import SqlScript.Postgres.Operand

/-!
Expressions of PostgreSQL: predicates, which test operands, and conditions, which connect
predicates.
-/

namespace SqlScript.Postgres

open SqlScript.Parser

def startsSubquerySource (a : Lookahead) : Bool :=
  a.isKeyword 0 .SELECT ||
    (a.opensSubquery 0 [.SELECT] &&
      (a.matchingParen? 0).any fun close => !a.isKind (close + 1) .comma)

def isQuantified (a : Lookahead) : Bool :=
  a.isOneOf 1 [.ALL, .ANY, .SOME] && a.isKind 2 .leftParen

def comparisonOperator : Parser Rule Unit :=
  production .compareOp bump

section

variable (nested : Goal → Parser Rule Unit)

def inSource : Parser Rule Unit := do
  if ← sees startsSubquerySource then
    nested .query
  else
    production .inList (expressionList nested)

def quantifiedSource : Parser Rule Unit := do
  if ← sees (·.opensSubquery 0 [.SELECT]) then
    parenthesized (nested .query)
  else
    parenthesized (nested .expression)

/--
A test that is not one for `NULL`, behind `IS` and `NOT`.
-/
def truthTest : Parser Rule Unit := do
  if ← eatIf fun a => a.isOneOf 0 [.TRUE, .FALSE] || a.isWord 0 "UNKNOWN" then
    return ()
  else if ← eatKeyword .DISTINCT then
    expectKeyword .FROM
    nested (.predicate (Test.is.strength + 1))
  else
    expected "NULL, TRUE, FALSE, UNKNOWN or DISTINCT FROM"

def isTest (checkpoint : Nat) : Parser Rule Unit := do
  let a ← ahead
  if a.isKeyword 0 .IS then
    let n := if a.isKeyword 1 .NOT then 2 else 1
    if a.isKeyword n .NULL then
      productionAt checkpoint .aExprIsNull (bumpN (n + 1))
    else
      productionAt checkpoint .aExprIs do
        bumpN n
        truthTest nested
  else
    productionAt checkpoint .aExprIsNull bump

def applyTest (test : Test) (checkpoint : Nat) : Parser Rule Unit := do
  let right := nested (.predicate (test.strength + 1))
  match test with
  | .is => isTest nested checkpoint
  | .among =>
    productionAt checkpoint .aExprIn do
      optionalKeyword .NOT
      bump
      parenthesized (inSource nested)
  | .comparison =>
    if ← sees isQuantified then
      productionAt checkpoint .aExprSubqueryCompare do
        comparisonOperator
        bump
        quantifiedSource nested
    else
      productionAt checkpoint .aExprCompare do
        comparisonOperator
        right
  | .between =>
    productionAt checkpoint .aExprBetween do
      optionalKeyword .NOT
      bump
      discard (eatIf fun a => a.isWord 0 "SYMMETRIC" || a.isWord 0 "ASYMMETRIC")
      right
      expectKeyword .AND
      right
  | .like =>
    productionAt checkpoint .aExprLike do
      optionalKeyword .NOT
      optionalKeyword .SIMILAR
      bump
      right
      afterKeyword .ESCAPE right

def furtherTests (checkpoint least : Nat) : Parser Rule Unit := do
  match ← sees test? with
  | some test =>
    if least ≤ test.strength then
      nested (.test test checkpoint least)
  | none => return ()

def testedPredicate (test : Test) (checkpoint least : Nat) : Parser Rule Unit := do
  applyTest nested test checkpoint
  furtherTests nested checkpoint least

def predicate (least : Nat) : Parser Rule Unit := do
  let checkpoint ← checkpoint
  production .aExprPrimary (nested (.operand 0))
  furtherTests nested checkpoint least

def condition (least : Nat) : Parser Rule Unit := do
  let checkpoint ← checkpoint
  if ← sees (·.isKeyword 0 .NOT) then
    production .aExprNot do
      bump
      nested (.condition negationStrength)
  else
    production .aExprPredicate (nested (.predicate 0))
  infixChain checkpoint least (connective? <| ·.kind 0) bump (nested <| .condition ·)

end

end SqlScript.Postgres
