import SqlScript.MySql.Rule
import SqlScript.Parsing.Chain

/-!
The operators of MySQL expressions. They come in three layers, each with strengths of its own:
connectives between predicates, tests of operands, and operators between operands.
-/

namespace SqlScript.MySql

def negationStrength : Nat :=
  7

def signStrength : Nat :=
  22

def collationStrength : Nat :=
  26

/--
Connectives: `AND` binds more strongly than `XOR`, and `XOR` more strongly than `OR`.
-/
def connective? (kind : TokenKind) : Option (InfixOperator Rule) :=
  match kind with
  | .keyword .OR | .concat => some ⟨.logicalExpression, 1⟩
  | .keyword .XOR => some ⟨.logicalExpression, 3⟩
  | .keyword .AND | .logicalAnd => some ⟨.logicalExpression, 5⟩
  | _ => none

def operandOperator? (kind : TokenKind) : Option (InfixOperator Rule) :=
  match kind with
  | .bitOr => some ⟨.bitExpressionAtom, 10⟩
  | .bitAnd => some ⟨.bitExpressionAtom, 12⟩
  | .leftShift | .rightShift => some ⟨.bitExpressionAtom, 14⟩
  | .plus | .minus => some ⟨.mathExpressionAtom, 16⟩
  | .star | .slash | .percent | .keyword .DIV | .keyword .MOD => some ⟨.mathExpressionAtom, 18⟩
  | .caret => some ⟨.bitExpressionAtom, 20⟩
  | .arrow | .longArrow => some ⟨.jsonExpressionAtom, 24⟩
  | _ => none

inductive Test where
  /-- `[NOT] IN (...)` -/
  | among
  /-- `IS [NOT] NULL` -/
  | null
  /-- `=`, `<` and so on, also against `ALL`, `ANY` or `SOME` of a subquery -/
  | comparison
  /-- `[NOT] BETWEEN a AND b` -/
  | between
  /-- `SOUNDS LIKE` -/
  | soundsLike
  /-- `[NOT] LIKE x [ESCAPE y]` -/
  | like
  /-- `[NOT] REGEXP x` or `[NOT] RLIKE x` -/
  | regexp
  /-- `MEMBER OF (json)` -/
  | memberOf
  deriving DecidableEq, Repr

/--
How strongly a test binds among the tests. What stands to its right binds more strongly.
-/
def Test.strength : Test → Nat
  | among => 20
  | null => 18
  | comparison => 16
  | between => 14
  | soundsLike => 12
  | like => 10
  | regexp => 8
  | memberOf => 6

def isComparison (kind : TokenKind) : Bool :=
  match kind with
  | .eq | .notEq | .lt | .ltEq | .gt | .gtEq | .nullSafeEq => true
  | _ => false

def test? (a : Lookahead) : Option Test :=
  let negated := a.isKeyword 0 .NOT
  match a.keyword? (if negated then 1 else 0) with
  | some .IN => some .among
  | some .BETWEEN => some .between
  | some .LIKE => some .like
  | some .REGEXP | some .RLIKE => some .regexp
  | _ =>
    if negated then
      none
    else if a.isKeyword 0 .IS then
      if a.isKeyword (if a.isKeyword 1 .NOT then 2 else 1) .NULL then some .null else none
    else if isComparison (a.kind 0) then
      some .comparison
    else if a.isWord 0 "SOUNDS" && a.isKeyword 1 .LIKE then
      some .soundsLike
    else if a.isWord 0 "MEMBER" && a.isKeyword 1 .OF then
      some .memberOf
    else
      none

/-!
## Levels of nesting

The parts of a MySQL script that count as levels of nesting. Wherever the grammar comes to one of
them it asks for it by its goal, and gets a parser that may nest one level less.
-/

inductive Goal where
  /-- A select statement in any form. -/
  | query
  /-- A query in parentheses, as part of a select statement. -/
  | queryGroup
  /-- A condition whose connectives bind at least as strongly as `least`. -/
  | condition (least : Nat)
  /-- A predicate whose tests bind at least as strongly as `least`. -/
  | predicate (least : Nat)
  /-- A test of the predicate that was built since the checkpoint, and further tests of that. -/
  | test (test : Test) (checkpoint least : Nat)
  /-- Operands whose operators bind at least as strongly as `least`. -/
  | operand (least : Nat)
  /-- A collation of the operand that was built since the checkpoint, and what follows it. -/
  | collation (checkpoint least : Nat)
  /-- One item of a table list or join. -/
  | source

def Goal.expression : Goal :=
  .condition 0

end SqlScript.MySql
