import SqlScript.Token.Keyword

/-!
What SQL dialects differ in before any grammar is read: the lexical switches, and which keywords are
reserved.
-/

namespace SqlScript

inductive Flavor where
  | mySql
  | postgreSql
  deriving DecidableEq, Repr, Inhabited

def Flavor.tag : Flavor → String
  | mySql => "mysql"
  | postgreSql => "postgresql"

/--
The lexical conventions of a dialect. The defaults are those of standard SQL.
-/
structure Dialect where
  name : String
  flavor : Flavor
  /-- The character that quotes names, beside the double quote. -/
  identifierQuote : Char := '"'
  /-- Are texts in double quotes strings and not names? -/
  doubleQuotedStrings : Bool := false
  /-- Does a backslash in a string take the next character with it? -/
  backslashEscapes : Bool := false
  /-- Does `#` start a comment? -/
  hashComments : Bool := false
  /-- Must a blank follow `--` for a comment to start? -/
  dashCommentNeedsSpace : Bool := false
  nestedBlockComments : Bool := false
  /-- Are there strings `$tag$...$tag$` and parameters `$1`? -/
  dollarQuoting : Bool := false
  /-- Are `@name` and `@@name` variables? -/
  atVariables : Bool := false
  /-- Is any run of operator characters an operator? -/
  customOperators : Bool := false
  /-- Keywords that can never be bare names. -/
  isReserved : Keyword → Bool

namespace Dialect

def mySql : Dialect where
  name := "mysql"
  flavor := .mySql
  identifierQuote := '\x60'
  doubleQuotedStrings := true
  backslashEscapes := true
  hashComments := true
  dashCommentNeedsSpace := true
  atVariables := true
  isReserved word := !unreserved.contains word
where
  unreserved : List Keyword := [
    .OFFSET, .FULL, .VALUE, .TRUNCATE, .END, .ANY, .SOME, .FIRST, .NEXT, .ONLY, .RETURNING, .BEGIN,
    .COMMIT, .ROLLBACK, .START, .SAVEPOINT, .OVER, .ARRAY, .ILIKE, .SIMILAR, .USER, .DO, .HANDLER,
    .MERGE, .COPY, .COMMENT, .CONFLICT, .VACUUM, .RESET, .PREPARE, .EXECUTE, .DEALLOCATE, .ESCAPE,
    .REPAIR, .CAST]

/--
`SET`, `INSERT`, `UPDATE` and `DELETE` are reserved too, since they would otherwise read as table
aliases.
-/
def postgreSql : Dialect where
  name := "postgresql"
  flavor := .postgreSql
  nestedBlockComments := true
  dollarQuoting := true
  customOperators := true
  isReserved word := reserved.contains word
where
  reserved : List Keyword := [
    .SELECT, .FROM, .WHERE, .GROUP, .HAVING, .ORDER, .LIMIT, .OFFSET, .FETCH, .ONLY, .DISTINCT,
    .ALL, .AS, .ASC, .DESC, .WITH, .WINDOW, .FOR, .JOIN, .INNER, .CROSS, .LEFT, .RIGHT, .FULL,
    .OUTER, .NATURAL, .LATERAL, .ON, .USING, .UNION, .INTERSECT, .EXCEPT, .INTO, .VALUES, .INSERT,
    .UPDATE, .DELETE, .SET, .RETURNING, .DEFAULT, .CREATE, .TABLE, .GRANT, .CHECK, .ANALYZE, .DO,
    .NOT, .AND, .OR, .IN, .IS, .NULL, .TRUE, .FALSE, .EXISTS, .BETWEEN, .LIKE, .ILIKE, .SIMILAR,
    .COLLATE, .BINARY, .INTERVAL, .CASE, .WHEN, .THEN, .ELSE, .END, .CAST, .ROW, .ARRAY, .ANY,
    .SOME, .TO, .USER]

/--
A dialect with all switches at their defaults, in which only `OFFSET` may be a bare name.
-/
def plain : Dialect where
  name := "plain"
  flavor := .mySql
  isReserved word := word != .OFFSET

def ofFlavor : Flavor → Dialect
  | .mySql => mySql
  | .postgreSql => postgreSql

def reserved (d : Dialect) : List Keyword :=
  Keyword.all.filter d.isReserved

@[simp]
theorem flavor_ofFlavor (flavor : Flavor) : (ofFlavor flavor).flavor = flavor := by
  cases flavor <;> rfl

end Dialect

end SqlScript
