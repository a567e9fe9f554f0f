import SqlScript.MySql.Operand

/-!
Expressions of MySQL: predicates, which test operands, and conditions, which connect predicates.
-/

namespace SqlScript.MySql

open SqlScript.Parser

/--
Behind `IN (`: does a subquery start here? A select in parentheses may also be but the first item of
a list of values.
-/
def startsSubquerySource (a : Lookahead) : Bool :=
  a.isKeyword 0 .SELECT ||
    (a.opensSubquery 0 [.SELECT] &&
      (a.matchingParen? 0).any fun close => !a.isKind (close + 1) .comma)

def comparesWithSubquery (a : Lookahead) : Bool :=
  a.isOneOf 1 [.ALL, .ANY, .SOME] && a.isKind 2 .leftParen

def startsTruthTest (a : Lookahead) : Bool :=
  let n := if a.isKeyword 1 .NOT then 2 else 1
  a.isKeyword 0 .IS && (a.isOneOf n [.TRUE, .FALSE] || a.isWord n "UNKNOWN")

def comparisonOperator : Parser Rule Unit :=
  production .comparisonOperator bump

section

variable (nested : Goal → Parser Rule Unit)

def expressions : Parser Rule Unit :=
  production .expressions (commaSeparated (nested .expression))

def inSource : Parser Rule Unit := do
  if ← sees startsSubquerySource then
    nested .query
  else
    expressions nested

def applyTest (test : Test) (checkpoint : Nat) : Parser Rule Unit := do
  let right := nested (.predicate (test.strength + 1))
  match test with
  | .among =>
    productionAt checkpoint .inPredicate do
      optionalKeyword .NOT
      bump
      parenthesized (inSource nested)
  | .null =>
    productionAt checkpoint .isNullPredicate do
      bump
      optionalKeyword .NOT
      expectKeyword .NULL
  | .comparison =>
    if ← sees comparesWithSubquery then
      productionAt checkpoint .subqueryComparisonPredicate do
        comparisonOperator
        bump
        parenthesized (nested .query)
    else
      productionAt checkpoint .binaryComparisonPredicate do
        comparisonOperator
        right
  | .between =>
    productionAt checkpoint .betweenPredicate do
      optionalKeyword .NOT
      bump
      right
      expectKeyword .AND
      right
  | .soundsLike =>
    productionAt checkpoint .soundsLikePredicate do
      bumpN 2
      right
  | .like =>
    productionAt checkpoint .likePredicate do
      optionalKeyword .NOT
      bump
      right
      afterKeyword .ESCAPE (expect .string)
  | .regexp =>
    productionAt checkpoint .regexpPredicate do
      optionalKeyword .NOT
      bump
      right
  | .memberOf =>
    productionAt checkpoint .jsonMemberOfPredicate do
      bumpN 2
      parenthesized (nested (.predicate 0))

/--
The tests behind a predicate that was built since the checkpoint. Each of them nests what was built
so far one level deeper.
-/
def furtherTests (checkpoint least : Nat) : Parser Rule Unit := do
  match ← sees test? with
  | some test =>
    if least ≤ test.strength then
      nested (.test test checkpoint least)
  | none => return ()

def testedPredicate (test : Test) (checkpoint least : Nat) : Parser Rule Unit := do
  applyTest nested test checkpoint
  furtherTests nested checkpoint least

def predicate (least : Nat) : Parser Rule Unit := do
  let checkpoint ← checkpoint
  production .expressionAtomPredicate (nested (.operand 0))
  furtherTests nested checkpoint least

def predicateExpression : Parser Rule Unit := do
  let checkpoint ← checkpoint
  nested (.predicate 0)
  if ← sees startsTruthTest then
    productionAt checkpoint .isExpression do
      bump
      optionalKeyword .NOT
      bump
  else
    productionAt checkpoint .predicateExpression (pure ())

def condition (least : Nat) : Parser Rule Unit := do
  let checkpoint ← checkpoint
  if ← sees (·.isKeyword 0 .NOT) then
    production .notExpression do
      bump
      nested (.condition negationStrength)
  else
    predicateExpression nested
  infixChain checkpoint least (connective? <| ·.kind 0) (production .logicalOperator bump)
    (nested <| .condition ·)

end

end SqlScript.MySql
