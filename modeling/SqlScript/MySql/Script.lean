import SqlScript.MySql.Change

/-!
MySQL scripts: statements of all kinds, separated by semicolons. Statements of kinds that are not
looked into are kept as balanced runs of tokens.
-/

namespace SqlScript.MySql

open SqlScript.Parser

def tokenRun (rule : Rule) : Parser Rule Unit :=
  production rule bumpBalanced

def createDatabase : Parser Rule Unit :=
  production .createDatabase do
    bumpN 2
    afterKeyword .IF do
      expectKeyword .NOT
      expectKeyword .EXISTS
    uid
    bumpBalanced

def definition : Parser Rule Unit :=
  production .ddlStatement do
    if ← sees fun a => a.isKeyword 0 .CREATE && a.isOneOf 1 [.DATABASE, .SCHEMA] then
      createDatabase
    else
      bumpBalanced

def description : Parser Rule Unit :=
  production .utilityStatement do
    if ← sees fun a => a.isName 1 && !a.isKind 2 .eq then
      tokenRun .simpleDescribeStatement
    else
      tokenRun .fullDescribeStatement

def manipulation (nested : Goal → Parser Rule Unit) : Parser Rule Unit :=
  production .dmlStatement do
    let a ← ahead
    match a.keyword? 0 with
    | some .INSERT => insert nested
    | some .UPDATE => update nested
    | some .DELETE => delete nested
    | some .SELECT => nested .query
    | _ => if a.isKind 0 .leftParen then nested .query else bumpBalanced

inductive Family where
  | manipulation
  | definition
  | replication
  | display
  | administration
  | description
  | utility
  | transaction
  | prepared
  deriving DecidableEq, Repr

namespace Family

def keywords : List (Family × List Keyword) := [
  (manipulation, [
    .SELECT, .INSERT, .UPDATE, .DELETE, .REPLACE, .CALL, .DO, .HANDLER, .LOAD, .WITH, .VALUES,
    .TABLE]),
  (definition, [.CREATE, .ALTER, .DROP, .RENAME, .TRUNCATE]),
  (display, [.SHOW]),
  (administration, [
    .GRANT, .REVOKE, .KILL, .ANALYZE, .OPTIMIZE, .REPAIR, .CHECK, .SET, .RESET]),
  (description, [.DESCRIBE, .DESC, .EXPLAIN]),
  (utility, [.USE]),
  (transaction, [
    .START, .BEGIN, .COMMIT, .ROLLBACK, .SAVEPOINT, .RELEASE, .LOCK, .UNLOCK]),
  (prepared, [.PREPARE, .EXECUTE, .DEALLOCATE])]

def words : List (Family × List String) := [
  (replication, ["CHANGE", "PURGE", "STOP"]),
  (administration, [
    "FLUSH", "INSTALL", "UNINSTALL", "BINLOG", "CACHE", "CHECKSUM", "SHUTDOWN", "RESTART"]),
  (utility, ["HELP"]),
  (transaction, ["XA"])]

/--
The family of the statement in front. `START` begins a transaction unless it starts a replica.
-/
def ofLookahead? (a : Lookahead) : Option Family :=
  if a.isKind 0 .leftParen then
    some manipulation
  else if a.isKeyword 0 .START && (a.isWord 1 "SLAVE" || a.isWord 1 "REPLICA") then
    some replication
  else
    (keywords.find? (a.isOneOf 0 ·.2)).map (·.1) <|>
      (words.find? (·.2.any (a.isWord 0))).map (·.1)

def statement (nested : Goal → Parser Rule Unit) : Family → Parser Rule Unit
  | manipulation => MySql.manipulation nested
  | definition => MySql.definition
  | replication => tokenRun .replicationStatement
  | display => production .administrationStatement (tokenRun .showStatement)
  | administration => tokenRun .administrationStatement
  | description => MySql.description
  | utility => tokenRun .utilityStatement
  | transaction => tokenRun .transactionStatement
  | prepared => tokenRun .preparedStatement

end Family

/--
What is done for a goal, given what is done for the goals one level deeper.
-/
def attempt (nested : Goal → Parser Rule Unit) : Goal → Parser Rule Unit
  | .query => query nested
  | .queryGroup => queryGroup nested
  | .condition least => condition nested least
  | .predicate least => predicate nested least
  | .test test checkpoint least => testedPredicate nested test checkpoint least
  | .operand least => operand nested least
  | .collation checkpoint least => collation nested checkpoint least
  | .source => source nested

/--
The parser for a goal that may nest `depth` levels, its own included.
-/
def parser (depth : Nat) (goal : Goal) : Parser Rule Unit :=
  match depth with
  | 0 => tooDeep
  | depth + 1 => attempt (parser depth) goal

section

variable (nested : Goal → Parser Rule Unit)

def statement : Parser Rule Unit :=
  production .sqlStatement do
    match ← sees Family.ofLookahead? with
    | some family => family.statement nested
    | none => expected "statement"

/--
A statement with the semicolon behind it, which only the last may go without.
-/
def separatedStatement : Parser Rule Unit := do
  statement nested
  if !(← eat .semicolon) then
    ifSees (!·.atEnd) (expected "';' or end of input")

def statements : Parser Rule Unit :=
  production .sqlStatements <| whileSees (!·.atEnd) do
    if ← sees (·.isKind 0 .semicolon) then
      production .emptyStatement bump
    else
      separatedStatement nested

def script : Parser Rule Unit :=
  production .root (ifSees (!·.atEnd) (statements nested))

end

def parseTree (source : String) (options : Options) : Except ParseError (SyntaxTree Rule) :=
  Parser.parseTree (script (parser options.maxDepth)) .mySql source options

end SqlScript.MySql
