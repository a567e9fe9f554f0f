/-!
The words that SQL grammars give a meaning to. One table serves every dialect; which of the words
may still be used as plain names is a matter of the dialect.
-/

namespace SqlScript

inductive Keyword where
  -- Queries
  | SELECT | FROM | WHERE | GROUP | BY | HAVING | ORDER | LIMIT | OFFSET | FETCH | FIRST | NEXT
  | ONLY | DISTINCT | DISTINCTROW | ALL | AS | ASC | DESC | WITH | RECURSIVE | WINDOW | OVER
  | FOR | OF | LOCK | UNLOCK
  -- Joins and set operations
  | JOIN | INNER | CROSS | LEFT | RIGHT | FULL | OUTER | NATURAL | STRAIGHT_JOIN | LATERAL | ON
  | USING | UNION | INTERSECT | EXCEPT
  -- Data manipulation
  | INSERT | INTO | VALUES | VALUE | REPLACE | UPDATE | SET | DELETE | RETURNING | DEFAULT
  | CONFLICT | LOW_PRIORITY | HIGH_PRIORITY | DELAYED | IGNORE | PARTITION | CALL | DO | HANDLER
  | LOAD | MERGE | COPY
  -- Data definition
  | CREATE | ALTER | DROP | TRUNCATE | RENAME | COMMENT | DATABASE | SCHEMA | TABLE | INDEX | KEY
  | FORCE
  -- Expressions
  | NOT | AND | OR | XOR | IN | IS | NULL | TRUE | FALSE | EXISTS | BETWEEN | LIKE | ILIKE
  | SIMILAR | REGEXP | RLIKE | ESCAPE | COLLATE | BINARY | INTERVAL | CASE | WHEN | THEN | ELSE
  | END | CAST | ROW | ROWS | ARRAY | DIV | MOD | ANY | SOME | IF | TO | USER
  -- Administration, utility and transactions
  | SHOW | DESCRIBE | EXPLAIN | USE | GRANT | REVOKE | KILL | ANALYZE | OPTIMIZE | REPAIR | CHECK
  | VACUUM | RESET | BEGIN | START | COMMIT | ROLLBACK | SAVEPOINT | RELEASE | PREPARE | EXECUTE
  | DEALLOCATE
  deriving DecidableEq, Inhabited

namespace Keyword

def all : List Keyword := [
  .SELECT, .FROM, .WHERE, .GROUP, .BY, .HAVING, .ORDER, .LIMIT, .OFFSET, .FETCH, .FIRST, .NEXT,
  .ONLY, .DISTINCT, .DISTINCTROW, .ALL, .AS, .ASC, .DESC, .WITH, .RECURSIVE, .WINDOW, .OVER,
  .FOR, .OF, .LOCK, .UNLOCK,
  .JOIN, .INNER, .CROSS, .LEFT, .RIGHT, .FULL, .OUTER, .NATURAL, .STRAIGHT_JOIN, .LATERAL, .ON,
  .USING, .UNION, .INTERSECT, .EXCEPT,
  .INSERT, .INTO, .VALUES, .VALUE, .REPLACE, .UPDATE, .SET, .DELETE, .RETURNING, .DEFAULT,
  .CONFLICT, .LOW_PRIORITY, .HIGH_PRIORITY, .DELAYED, .IGNORE, .PARTITION, .CALL, .DO, .HANDLER,
  .LOAD, .MERGE, .COPY,
  .CREATE, .ALTER, .DROP, .TRUNCATE, .RENAME, .COMMENT, .DATABASE, .SCHEMA, .TABLE, .INDEX, .KEY,
  .FORCE,
  .NOT, .AND, .OR, .XOR, .IN, .IS, .NULL, .TRUE, .FALSE, .EXISTS, .BETWEEN, .LIKE, .ILIKE,
  .SIMILAR, .REGEXP, .RLIKE, .ESCAPE, .COLLATE, .BINARY, .INTERVAL, .CASE, .WHEN, .THEN, .ELSE,
  .END, .CAST, .ROW, .ROWS, .ARRAY, .DIV, .MOD, .ANY, .SOME, .IF, .TO, .USER,
  .SHOW, .DESCRIBE, .EXPLAIN, .USE, .GRANT, .REVOKE, .KILL, .ANALYZE, .OPTIMIZE, .REPAIR, .CHECK,
  .VACUUM, .RESET, .BEGIN, .START, .COMMIT, .ROLLBACK, .SAVEPOINT, .RELEASE, .PREPARE, .EXECUTE,
  .DEALLOCATE
]

def spelling : Keyword → String
  | .SELECT => "SELECT"
  | .FROM => "FROM"
  | .WHERE => "WHERE"
  | .GROUP => "GROUP"
  | .BY => "BY"
  | .HAVING => "HAVING"
  | .ORDER => "ORDER"
  | .LIMIT => "LIMIT"
  | .OFFSET => "OFFSET"
  | .FETCH => "FETCH"
  | .FIRST => "FIRST"
  | .NEXT => "NEXT"
  | .ONLY => "ONLY"
  | .DISTINCT => "DISTINCT"
  | .DISTINCTROW => "DISTINCTROW"
  | .ALL => "ALL"
  | .AS => "AS"
  | .ASC => "ASC"
  | .DESC => "DESC"
  | .WITH => "WITH"
  | .RECURSIVE => "RECURSIVE"
  | .WINDOW => "WINDOW"
  | .OVER => "OVER"
  | .FOR => "FOR"
  | .OF => "OF"
  | .LOCK => "LOCK"
  | .UNLOCK => "UNLOCK"
  | .JOIN => "JOIN"
  | .INNER => "INNER"
  | .CROSS => "CROSS"
  | .LEFT => "LEFT"
  | .RIGHT => "RIGHT"
  | .FULL => "FULL"
  | .OUTER => "OUTER"
  | .NATURAL => "NATURAL"
  | .STRAIGHT_JOIN => "STRAIGHT_JOIN"
  | .LATERAL => "LATERAL"
  | .ON => "ON"
  | .USING => "USING"
  | .UNION => "UNION"
  | .INTERSECT => "INTERSECT"
  | .EXCEPT => "EXCEPT"
  | .INSERT => "INSERT"
  | .INTO => "INTO"
  | .VALUES => "VALUES"
  | .VALUE => "VALUE"
  | .REPLACE => "REPLACE"
  | .UPDATE => "UPDATE"
  | .SET => "SET"
  | .DELETE => "DELETE"
  | .RETURNING => "RETURNING"
  | .DEFAULT => "DEFAULT"
  | .CONFLICT => "CONFLICT"
  | .LOW_PRIORITY => "LOW_PRIORITY"
  | .HIGH_PRIORITY => "HIGH_PRIORITY"
  | .DELAYED => "DELAYED"
  | .IGNORE => "IGNORE"
  | .PARTITION => "PARTITION"
  | .CALL => "CALL"
  | .DO => "DO"
  | .HANDLER => "HANDLER"
  | .LOAD => "LOAD"
  | .MERGE => "MERGE"
  | .COPY => "COPY"
  | .CREATE => "CREATE"
  | .ALTER => "ALTER"
  | .DROP => "DROP"
  | .TRUNCATE => "TRUNCATE"
  | .RENAME => "RENAME"
  | .COMMENT => "COMMENT"
  | .DATABASE => "DATABASE"
  | .SCHEMA => "SCHEMA"
  | .TABLE => "TABLE"
  | .INDEX => "INDEX"
  | .KEY => "KEY"
  | .FORCE => "FORCE"
  | .NOT => "NOT"
  | .AND => "AND"
  | .OR => "OR"
  | .XOR => "XOR"
  | .IN => "IN"
  | .IS => "IS"
  | .NULL => "NULL"
  | .TRUE => "TRUE"
  | .FALSE => "FALSE"
  | .EXISTS => "EXISTS"
  | .BETWEEN => "BETWEEN"
  | .LIKE => "LIKE"
  | .ILIKE => "ILIKE"
  | .SIMILAR => "SIMILAR"
  | .REGEXP => "REGEXP"
  | .RLIKE => "RLIKE"
  | .ESCAPE => "ESCAPE"
  | .COLLATE => "COLLATE"
  | .BINARY => "BINARY"
  | .INTERVAL => "INTERVAL"
  | .CASE => "CASE"
  | .WHEN => "WHEN"
  | .THEN => "THEN"
  | .ELSE => "ELSE"
  | .END => "END"
  | .CAST => "CAST"
  | .ROW => "ROW"
  | .ROWS => "ROWS"
  | .ARRAY => "ARRAY"
  | .DIV => "DIV"
  | .MOD => "MOD"
  | .ANY => "ANY"
  | .SOME => "SOME"
  | .IF => "IF"
  | .TO => "TO"
  | .USER => "USER"
  | .SHOW => "SHOW"
  | .DESCRIBE => "DESCRIBE"
  | .EXPLAIN => "EXPLAIN"
  | .USE => "USE"
  | .GRANT => "GRANT"
  | .REVOKE => "REVOKE"
  | .KILL => "KILL"
  | .ANALYZE => "ANALYZE"
  | .OPTIMIZE => "OPTIMIZE"
  | .REPAIR => "REPAIR"
  | .CHECK => "CHECK"
  | .VACUUM => "VACUUM"
  | .RESET => "RESET"
  | .BEGIN => "BEGIN"
  | .START => "START"
  | .COMMIT => "COMMIT"
  | .ROLLBACK => "ROLLBACK"
  | .SAVEPOINT => "SAVEPOINT"
  | .RELEASE => "RELEASE"
  | .PREPARE => "PREPARE"
  | .EXECUTE => "EXECUTE"
  | .DEALLOCATE => "DEALLOCATE"

def ofString? (word : String) : Option Keyword :=
  let word := word.toUpper
  all.find? (·.spelling == word)

/--
The spelling with the words it is made of run together, each with one capital: `LowPriority` for
`LOW_PRIORITY`.
-/
def name (k : Keyword) : String :=
  "".intercalate ((k.spelling.splitOn "_").map fun word => word.toLower.capitalize)

theorem mem_all (k : Keyword) : k ∈ all := by
  cases k <;> decide

end Keyword

end SqlScript
