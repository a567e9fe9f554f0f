import SqlScript.Postgres.Rule
import SqlScript.Parsing.Chain

/-!
The operators of PostgreSQL expressions. They come in three layers, each with strengths of its own:
connectives between predicates, tests of operands, and operators between operands.
-/

namespace SqlScript.Postgres

def negationStrength : Nat :=
  5

def timeZoneStrength : Nat :=
  18

def collationStrength : Nat :=
  20

def signStrength : Nat :=
  22

def connective? (kind : TokenKind) : Option (InfixOperator Rule) :=
  match kind with
  | .keyword .OR => some ⟨.aExprOr, 1⟩
  | .keyword .AND => some ⟨.aExprAnd, 3⟩
  | _ => none

/--
Operators between operands. All that have no strength of their own bind alike.
-/
def operandOperator? (kind : TokenKind) : Option (InfixOperator Rule) :=
  match kind with
  | .operator | .concat | .logicalAnd | .bitAnd | .bitOr | .bitNot | .bang | .leftShift
  | .rightShift | .arrow | .longArrow | .question => some ⟨.aExprQualOp, 10⟩
  | .plus | .minus => some ⟨.aExprMath, 12⟩
  | .star | .slash | .percent => some ⟨.aExprMath, 14⟩
  | .caret => some ⟨.aExprMath, 16⟩
  | _ => none

inductive Suffix where
  /-- `::type` -/
  | typecast
  /-- `[...]` -/
  | subscript
  /-- `.name` or `.*` -/
  | field
  /-- `COLLATE name` -/
  | collation
  /-- `AT TIME ZONE x` -/
  | timeZone
  deriving DecidableEq, Repr

/--
The suffix that starts at the token in front of an operand that takes operators from `least` on.
-/
def suffix? (least : Nat) (a : Lookahead) : Option Suffix :=
  match a.kind 0 with
  | .doubleColon => some .typecast
  | .leftBracket => some .subscript
  | .dot => if a.isNamePart 1 || a.isKind 1 .star then some .field else none
  | _ =>
    if a.isKeyword 0 .COLLATE then
      if least ≤ collationStrength then some .collation else none
    else if a.isWord 0 "AT" && a.isWord 1 "TIME" && a.isWord 2 "ZONE" then
      if least ≤ timeZoneStrength then some .timeZone else none
    else
      none

inductive Test where
  /-- `IS [NOT] NULL` and the like, `ISNULL`, `NOTNULL`, `IS [NOT] DISTINCT FROM x` -/
  | is
  /-- `=`, `<` and so on, also against `ALL`, `ANY` or `SOME` -/
  | comparison
  /-- `[NOT] IN (...)` -/
  | among
  /-- `[NOT] BETWEEN [SYMMETRIC] a AND b` -/
  | between
  /-- `[NOT] LIKE x`, `ILIKE x` or `SIMILAR TO x`, each with `[ESCAPE y]` -/
  | like
  deriving DecidableEq, Repr

def Test.strength : Test → Nat
  | is => 8
  | comparison => 10
  | among | between | like => 12

def isComparison (kind : TokenKind) : Bool :=
  match kind with
  | .eq | .notEq | .lt | .ltEq | .gt | .gtEq => true
  | _ => false

def test? (a : Lookahead) : Option Test :=
  let negated := a.isKeyword 0 .NOT
  let n := if negated then 1 else 0
  if a.isKeyword n .IN then
    some .among
  else if a.isKeyword n .BETWEEN then
    some .between
  else if a.isOneOf n [.LIKE, .ILIKE] || (a.isKeyword n .SIMILAR && a.isKeyword (n + 1) .TO) then
    some .like
  else if negated then
    none
  else if a.isKeyword 0 .IS || a.isWord 0 "ISNULL" || a.isWord 0 "NOTNULL" then
    some .is
  else if isComparison (a.kind 0) then
    some .comparison
  else
    none

/-!
## Levels of nesting

The parts of a PostgreSQL script that count as levels of nesting. Wherever the grammar comes to one
of them it asks for it by its goal, and gets a parser that may nest one level less.
-/

inductive Goal where
  /-- A select statement in any form. -/
  | query
  /-- A query in parentheses, as part of a select statement. -/
  | queryGroup
  /-- A condition whose connectives bind at least as strongly as `least`. -/
  | condition (least : Nat)
  /-- A predicate whose tests bind at least as strongly as `least`. -/
  | predicate (least : Nat)
  /-- A test of the predicate that was built since the checkpoint, and further tests of that. -/
  | test (test : Test) (checkpoint least : Nat)
  /-- Operands whose operators bind at least as strongly as `least`. -/
  | operand (least : Nat)
  /-- A suffix of the operand that was built since the checkpoint, and what follows it. -/
  | suffix (suffix : Suffix) (checkpoint least : Nat)
  /-- One item of a table list or join. -/
  | source

def Goal.expression : Goal :=
  .condition 0

end SqlScript.Postgres
