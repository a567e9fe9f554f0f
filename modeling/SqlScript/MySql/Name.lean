import SqlScript.MySql.Rule
import SqlScript.Parsing.Parser

/-!
Names in MySQL: single names, dotted names of up to three parts, aliases.
-/

namespace SqlScript.MySql

open SqlScript.Parser

/--
The index behind a dotted name of up to three parts whose first part stands behind `n` tokens.
-/
def nameExtent (a : Lookahead) (n : Nat) : Nat :=
  if hasPart (n + 1) then
    if hasPart (n + 3) then n + 5 else n + 3
  else
    n + 1
where
  hasPart (n : Nat) : Bool :=
    a.isKind n .dot && a.isNamePart (n + 1)

def dottedName : Parser Rule Unit := do
  expectName
  ifSees (nameExtent.hasPart · 0) do
    bumpN 2
    ifSees (nameExtent.hasPart · 0) (bumpN 2)

def tableName : Parser Rule Unit :=
  production .tableName (production .fullId dottedName)

def columnName : Parser Rule Unit :=
  production .fullColumnName dottedName

/--
Can the token in front be a single name? A string can.
-/
def startsUid (a : Lookahead) : Bool :=
  a.isName 0 || a.isKind 0 .string

def uid : Parser Rule Unit :=
  production .uid (expectIf startsUid "identifier")

def uidList : Parser Rule Unit :=
  production .uidList (commaSeparated uid)

def optionalAlias : Parser Rule Unit := do
  if ← eatKeyword .AS then
    uid
  else
    ifSees startsUid uid

def aliasedNameExtent? (a : Lookahead) (n : Nat) : Option Nat :=
  if a.isName n then
    let n := nameExtent a n
    let n := if a.isKeyword n .AS then n + 1 else n
    some (if a.isName n then n + 1 else n)
  else
    none

end SqlScript.MySql
