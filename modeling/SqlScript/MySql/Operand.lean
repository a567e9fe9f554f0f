import SqlScript.MySql.Call
import SqlScript.MySql.Name
import SqlScript.MySql.Operator

/-!
Operands of MySQL predicates: literals, columns, calls, subqueries and what operators make of them.
-/

namespace SqlScript.MySql

open SqlScript.Parser

/--
Does the token in front announce the character set of a string behind it, as in `_utf8mb4'text'`?
-/
def introducesString (a : Lookahead) : Bool :=
  match a.kind 0 with
  | .identifier name =>
    a.isKind 1 .string && (name.toList.head? == some '_' || Text.sameLetters name "N")
  | _ => false

/--
A literal. A sign or the character set of a string belongs to it, and so do the strings behind a
string.
-/
def constant : Parser Rule Unit :=
  production .constantExpressionAtom <| production .constant do
    ifSees (fun a => a.isKind 0 .minus || a.isKind 0 .plus || a.isKind 0 (.identifier "")) bump
    if ← eat .string then
      whileSees (·.isKind 0 .string) bump
    else
      bump

section

variable (nested : Goal → Parser Rule Unit)

def prefixed (rule : Rule) : Parser Rule Unit :=
  production rule do
    bump
    nested (.operand signStrength)

def group : Parser Rule Unit := do
  if ← sees (·.opensSubquery 0 [.SELECT]) then
    production .subqueryExpressionAtom (parenthesized (nested .query))
  else
    production .nestedExpressionAtom (parenthesized (commaSeparated (nested .expression)))

def row : Parser Rule Unit :=
  production .nestedRowExpressionAtom do
    bump
    parenthesized (commaSeparated (nested .expression))

def existence : Parser Rule Unit :=
  production .existsExpressionAtom do
    bump
    parenthesized (nested .query)

def interval : Parser Rule Unit :=
  production .intervalExpressionAtom do
    bump
    nested .expression
    expectIf (·.isNamePart 0) "interval unit"

def assignment : Parser Rule Unit :=
  production .variableAssignExpressionAtom do
    bumpN 2
    nested (.operand 0)

def named : Parser Rule Unit := do
  if ← sees fun a => (callExtent? a 0).isSome then
    production .functionCallExpressionAtom functionCall
  else if ← sees (·.isName 0) then
    production .fullColumnNameExpressionAtom columnName
  else
    expected "expression"

def primary : Parser Rule Unit := do
  let a ← ahead
  match a.kind 0 with
  | .integer | .float | .string | .hexString | .bitString => constant
  | .minus | .plus =>
    if a.isKind 1 .integer || a.isKind 1 .float then
      constant
    else
      prefixed nested .unaryExpressionAtom
  | .bitNot | .bang => prefixed nested .unaryExpressionAtom
  | .identifier _ => if introducesString a then constant else named
  | .atVariable =>
    if a.isKind 1 .assign then
      assignment nested
    else
      production .mysqlVariableExpressionAtom bump
  | .question => production .parameterExpressionAtom bump
  | .leftParen => group nested
  | .keyword word =>
    match word with
    | .NULL | .TRUE | .FALSE => constant
    | .NOT => prefixed nested .unaryExpressionAtom
    | .BINARY => prefixed nested .binaryExpressionAtom
    | .ROW => if a.isKind 1 .leftParen then row nested else named
    | .EXISTS => existence nested
    | .INTERVAL => interval nested
    | _ => named
  | _ => named

/--
The operators behind an operand that was built since the checkpoint. Each `COLLATE` nests what was
built so far one level deeper.
-/
def operandTail (checkpoint least : Nat) : Parser Rule Unit := do
  infixChain checkpoint least (operandOperator? <| ·.kind 0) bump (nested <| .operand ·)
  ifSees (fun a => a.isKeyword 0 .COLLATE && least ≤ collationStrength)
    (nested (.collation checkpoint least))

def collation (checkpoint least : Nat) : Parser Rule Unit := do
  productionAt checkpoint .collateExpressionAtom do
    bump
    expectIf startsUid "collation name"
  operandTail nested checkpoint least

def operand (least : Nat) : Parser Rule Unit := do
  let checkpoint ← checkpoint
  primary nested
  operandTail nested checkpoint least

end

end SqlScript.MySql
