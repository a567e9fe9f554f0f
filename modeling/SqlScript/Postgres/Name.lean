import SqlScript.Postgres.Rule
import SqlScript.Parsing.Parser

/-!
Names in PostgreSQL: single names, qualified names, aliases, and names of types.
-/

namespace SqlScript.Postgres

open SqlScript.Parser

def startsPart (a : Lookahead) : Bool :=
  a.isKind 0 .dot && a.isNamePart 1

def nameParts : Parser Rule Unit :=
  whileSees startsPart (bumpN 2)

def name : Parser Rule Unit :=
  production .colId expectName

def nameList : Parser Rule Unit :=
  production .nameList (commaSeparated name)

def qualifiedName : Parser Rule Unit :=
  production .qualifiedName do
    expectName
    nameParts

/--
A column, possibly with what it is a part of; the last part may be a star.
-/
def columnReference : Parser Rule Unit :=
  production .columnref do
    expectName
    nameParts
    ifSees (fun a => a.isKind 0 .dot && a.isKind 1 .star) (bumpN 2)

/--
A dotted name in which any word can stand.
-/
def anyName (what : String) : Parser Rule Unit := do
  expectIf (·.isNamePart 0) what
  nameParts

def optionalAlias : Parser Rule Unit :=
  ifSees (fun a => a.isKeyword 0 .AS || (a.isName 0 && !a.isWord 0 "TABLESAMPLE")) <|
    production .aliasClause do
      optionalKeyword .AS
      name
      ifSees (·.isKind 0 .leftParen) (parenthesized nameList)

def startsLongType (a : Lookahead) : Bool :=
  (a.isWord 0 "DOUBLE" && a.isWord 1 "PRECISION") ||
    ((a.isWord 0 "CHARACTER" || a.isWord 0 "CHAR") && a.isWord 1 "VARYING")

def typeName : Parser Rule Unit :=
  production .typename do
    if ← sees startsLongType then
      bumpN 2
    else
      anyName "type name"
    ifSees (·.isKind 0 .leftParen) bumpGroup
    ifSees (fun a => (a.isKeyword 0 .WITH || a.isWord 0 "WITHOUT") && a.isWord 1 "TIME" &&
      a.isWord 2 "ZONE") (bumpN 3)
    whileSees (·.isKind 0 .leftBracket) bumpGroup

end SqlScript.Postgres
