import SqlScript.MySql.Rule
import SqlScript.Parsing.Parser

/-!
Function calls in MySQL. The arguments, the body of a `CASE` and the window of an `OVER` clause are
kept as runs of tokens. `CASE` and the names of functions without arguments count as calls.
-/

namespace SqlScript.MySql

open SqlScript.Parser

/--
Reserved words that are functions all the same when a parenthesis follows.
-/
def functionKeywords : List Keyword := [
  .IF, .LEFT, .RIGHT, .REPLACE, .INSERT, .VALUES, .DEFAULT, .MOD, .DATABASE, .SCHEMA, .CAST]

def bareFunctions : List String := [
  "CURRENT_DATE", "CURRENT_TIME", "CURRENT_TIMESTAMP", "CURRENT_USER", "LOCALTIME",
  "LOCALTIMESTAMP", "UTC_DATE", "UTC_TIME", "UTC_TIMESTAMP"]

/--
The index behind the call that starts behind `n` tokens, if one starts there.
-/
def callExtent? (a : Lookahead) (n : Nat) : Option Nat :=
  if a.isKeyword n .CASE then
    a.caseExtent? n
  else if bareFunctions.any (a.isWord n) && !a.isKind (n + 1) .leftParen then
    some (n + 1)
  else if a.isName n || a.isOneOf n functionKeywords then do
    let qualified := a.isKind (n + 1) .dot && a.isNamePart (n + 2)
    let close ← a.matchingParen? (if qualified then n + 3 else n + 1)
    let close ← if a.isWord (close + 1) "AGAINST" then a.matchingParen? (close + 2) else some close
    if a.isKeyword (close + 1) .OVER then
      if a.isKind (close + 2) .leftParen then
        (· + 1) <$> a.matchingParen? (close + 2)
      else
        some (close + 3)
    else
      some (close + 1)
  else
    none

def overClause : Parser Rule Unit :=
  production .overClause do
    bump
    if ← sees (·.isKind 0 .leftParen) then
      bumpGroup
    else
      expectName

def callArguments : Parser Rule Unit := do
  if ← eat .dot then
    bump
  bumpGroup
  ifSees (·.isWord 0 "AGAINST") do
    bump
    bumpGroup
  ifKeyword .OVER overClause

def functionCall : Parser Rule Unit :=
  production .functionCall do
    if ← sees (·.isKeyword 0 .CASE) then
      bumpCase
    else
      bump
      ifSees (fun a => a.isKind 0 .leftParen || a.isKind 0 .dot) callArguments

end SqlScript.MySql
