import SqlScript.Postgres.Name

/-!
Function calls in PostgreSQL. The arguments and the clauses behind them are kept as runs of tokens.
-/

namespace SqlScript.Postgres

open SqlScript.Parser

def bareFunctions : List String := [
  "CURRENT_DATE", "CURRENT_TIME", "CURRENT_TIMESTAMP", "CURRENT_USER", "CURRENT_ROLE",
  "CURRENT_SCHEMA", "CURRENT_CATALOG", "SESSION_USER", "LOCALTIME", "LOCALTIMESTAMP", "USER"]

def startsBareCall (a : Lookahead) : Bool :=
  bareFunctions.any (a.isWord 0) && !a.isKind 1 .leftParen && !a.isKind 1 .dot

def partsExtent : List Token → Nat
  | dot :: part :: rest =>
    if dot.kind.alike .dot && part.isNamePart then partsExtent rest + 2 else 0
  | _ => 0

/--
The index of the `(` of a call whose name, possibly qualified, starts behind `n` tokens. Reserved
words that are functions are `LEFT`, `RIGHT` and `CAST`.
-/
def argumentsAt? (a : Lookahead) (n : Nat) : Option Nat :=
  if a.isName n || a.isOneOf n [.LEFT, .RIGHT, .CAST] then
    let opened := n + 1 + partsExtent (a.rest.drop (n + 1))
    if a.isKind opened .leftParen then some opened else none
  else
    none

def overClause : Parser Rule Unit :=
  production .overClause do
    bump
    if ← sees (·.isKind 0 .leftParen) then
      bumpGroup
    else
      expectName

/--
A call with arguments, possibly followed by `WITHIN GROUP`, `FILTER` and `OVER`.
-/
def call : Parser Rule Unit :=
  production .funcExpr do
    bump
    whileSees (·.isKind 0 .dot) (bumpN 2)
    bumpGroup
    ifSees (fun a => a.isWord 0 "WITHIN" && a.isKeyword 1 .GROUP) do
      bumpN 2
      bumpGroup
    ifSees (fun a => a.isWord 0 "FILTER" && a.isKind 1 .leftParen) do
      bump
      bumpGroup
    ifKeyword .OVER overClause

end SqlScript.Postgres
