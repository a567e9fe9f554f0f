import SqlScript.Statement.Excerpt
import SqlScript.Text.Class

/-!
Names: undoing their quotes, and splitting dotted names into owner and identifier.
-/

namespace SqlScript

structure Identifier where
  value : String
  /-- Was it written in quotes? -/
  quoted : Bool
  deriving DecidableEq, Repr, Inhabited

namespace Identifier

def closing? (c : Char) : Option Char :=
  if c == '\x60' || c == '"' || c == '\'' then some c
  else if c == '[' then some ']'
  else none

/--
Leave out every second one of two equal characters `c` that follow each other.
-/
def collapse (c : Char) : List Char → List Char
  | a :: b :: cs => if a = c ∧ b = c then c :: collapse c cs else a :: collapse c (b :: cs)
  | cs => cs

/--
Read a part as it is written. A quote that is not closed belongs to the name.
-/
def ofRaw (raw : String) : Identifier :=
  match raw.toList with
  | first :: inner =>
    match closing? first, inner.getLast? with
    | some close, some last =>
      if last == close then
        ⟨String.ofList (collapse close inner.dropLast), true⟩
      else
        ⟨raw, false⟩
    | _, _ => ⟨raw, false⟩
  | [] => ⟨raw, false⟩

end Identifier

structure DottedName where
  excerpt : Excerpt
  parts : List String
  deriving DecidableEq, Repr, Inhabited

structure TableName where
  excerpt : Excerpt
  owner : Option String
  identifier : String
  deriving DecidableEq, Repr, Inhabited

structure ColumnName where
  excerpt : Excerpt
  owner : Option String
  identifier : String
  attributes : List String
  deriving DecidableEq, Repr, Inhabited

namespace DottedName

def identifiers (name : DottedName) : List Identifier :=
  name.parts.map .ofRaw

/--
Owner, identifier and what follows. A single part is the identifier, of two or more the first is the
owner.
-/
def split (name : DottedName) : Option String × String × List String :=
  match name.identifiers.map (·.value) with
  | [] => (none, "", [])
  | [identifier] => (none, identifier, [])
  | owner :: identifier :: rest => (some owner, identifier, rest)

/--
The table of this name. Parts behind the second are left out.
-/
def toTableName (name : DottedName) : TableName :=
  let (owner, identifier, _) := name.split
  ⟨name.excerpt, owner, identifier⟩

def toColumnName (name : DottedName) : ColumnName :=
  let (owner, identifier, attributes) := name.split
  ⟨name.excerpt, owner, identifier, attributes⟩

end DottedName

def TableName.qualified (name : TableName) : String :=
  match name.owner with
  | some owner => owner ++ "." ++ name.identifier
  | none => name.identifier

namespace Context

variable {ρ : Type} (c : Context)

def nameOfTokens (span : Span) (tokens : List Token) : DottedName :=
  ⟨c.excerpt span, (tokens.filter (·.kind != .dot)).map c.tokenText⟩

def dottedName (n : Tree.Node ρ) : DottedName :=
  c.nameOfTokens n.span n.tokens

def identifier (n : Tree.Node ρ) : Identifier :=
  .ofRaw (c.text n)

def integer? (t : Token) : Option Nat :=
  match t.kind with
  | .integer => Text.count? (c.tokenText t)
  | _ => none

end Context

end SqlScript
