import SqlScript.Postgres.Change

/-!
PostgreSQL scripts: statements of all kinds, separated by semicolons. Statements of kinds that are
not looked into are kept as balanced runs of tokens.
-/

namespace SqlScript.Postgres

open SqlScript.Parser

def tokenRun (rule : Rule) : Parser Rule Unit :=
  production rule bumpBalanced

def createDatabase : Parser Rule Unit :=
  production .createdbStmt do
    bumpN 2
    afterKeyword .IF do
      expectKeyword .NOT
      expectKeyword .EXISTS
    name
    bumpBalanced

def runKeywords : List (Rule × List Keyword) := [
  (.withStmt, [.WITH]),
  (.callStmt, [.CALL]),
  (.mergeStmt, [.MERGE]),
  (.valuesStmt, [.VALUES, .TABLE]),
  (.ddlStmt, [.CREATE, .ALTER, .DROP, .TRUNCATE, .COMMENT]),
  (.variableShowStmt, [.SHOW]),
  (.explainStmt, [.EXPLAIN]),
  (.variableSetStmt, [.SET, .RESET]),
  (.transactionStmt, [.BEGIN, .START, .COMMIT, .ROLLBACK, .SAVEPOINT, .RELEASE, .END]),
  (.prepareStmt, [.PREPARE, .EXECUTE, .DEALLOCATE]),
  (.grantStmt, [.GRANT, .REVOKE]),
  (.utilityStmt, [.COPY, .VACUUM, .ANALYZE, .LOCK, .DO, .LOAD])]

def runWords : List (Rule × List String) := [
  (.transactionStmt, ["ABORT"]),
  (.utilityStmt, [
    "CHECKPOINT", "LISTEN", "NOTIFY", "UNLISTEN", "DISCARD", "REINDEX", "CLUSTER", "REFRESH"])]

def run? (a : Lookahead) : Option Rule :=
  (runKeywords.find? (a.isOneOf 0 ·.2)).map (·.1) <|>
    (runWords.find? (·.2.any (a.isWord 0))).map (·.1)

def attempt (nested : Goal → Parser Rule Unit) : Goal → Parser Rule Unit
  | .query => query nested
  | .queryGroup => queryGroup nested
  | .condition least => condition nested least
  | .predicate least => predicate nested least
  | .test test checkpoint least => testedPredicate nested test checkpoint least
  | .operand least => operand nested least
  | .suffix suffix checkpoint least => suffixedOperand nested suffix checkpoint least
  | .source => source nested

def parser (depth : Nat) (goal : Goal) : Parser Rule Unit :=
  match depth with
  | 0 => tooDeep
  | depth + 1 => attempt (parser depth) goal

section

variable (nested : Goal → Parser Rule Unit)

def statement? (a : Lookahead) : Option (Parser Rule Unit) :=
  match a.keyword? 0 with
  | some .SELECT => some (production .selectStmt (nested .query))
  | some .INSERT => some (insert nested)
  | some .UPDATE => some (update nested)
  | some .DELETE => some (delete nested)
  | _ =>
    if a.isKind 0 .leftParen then
      some (production .selectStmt (nested .query))
    else if a.isKeyword 0 .CREATE && a.isKeyword 1 .DATABASE then
      some createDatabase
    else
      (run? a).map tokenRun

def statement : Parser Rule Unit :=
  production .stmt do
    match ← sees (statement? nested) with
    | some body => body
    | none => expected "statement"

def separatedStatement : Parser Rule Unit := do
  statement nested
  if !(← eat .semicolon) then
    ifSees (!·.atEnd) (expected "';' or end of input")

def statements : Parser Rule Unit :=
  production .stmtmulti <| whileSees (!·.atEnd) do
    if ← sees (·.isKind 0 .semicolon) then
      production .emptyStmt bump
    else
      separatedStatement nested

def script : Parser Rule Unit :=
  production .root (ifSees (!·.atEnd) (statements nested))

end

def parseTree (source : String) (options : Options) : Except ParseError (SyntaxTree Rule) :=
  Parser.parseTree (script (parser options.maxDepth)) .postgreSql source options

end SqlScript.Postgres
