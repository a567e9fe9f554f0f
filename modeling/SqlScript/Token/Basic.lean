import SqlScript.Source.Span
import SqlScript.Text.Class
import SqlScript.Token.Keyword

/-!
Tokens: what kinds there are, how messages speak of them, and where they lie in the text.
-/

namespace SqlScript

/--
The kind of a token. The text of literals is not part of the kind, it is read off the span.
-/
inductive TokenKind where
  -- Literals
  | integer
  /-- A number with a point or an exponent. -/
  | float
  | string
  | hexString
  | bitString
  -- Names
  /-- A bare name, as written. -/
  | identifier (name : String)
  /-- A quoted name, without its quotes and with doubled quotes undone. -/
  | quotedIdentifier (name : String)
  | keyword (word : Keyword)
  /-- A user or system variable, `@x` or `@@session.x`. -/
  | atVariable
  /-- A numbered parameter, `$1`. -/
  | parameter
  -- Operators
  | plus
  | minus
  | star
  | slash
  | percent
  | caret
  | eq
  | nullSafeEq
  | notEq
  | lt
  | ltEq
  | gt
  | gtEq
  | concat
  | logicalAnd
  | bitAnd
  | bitOr
  | bitNot
  | bang
  | leftShift
  | rightShift
  | arrow
  | longArrow
  | assign
  /-- An operator with no kind of its own. -/
  | operator
  -- Delimiters
  | leftParen
  | rightParen
  | leftBracket
  | rightBracket
  | comma
  | semicolon
  | dot
  | colon
  | doubleColon
  | question
  -- Others
  | eof
  /-- Text that is no token, with what is wrong about it. -/
  | invalid (reason : String)
  deriving DecidableEq, Inhabited

namespace TokenKind

def name : TokenKind → String
  | integer => "Integer"
  | float => "Float"
  | string => "String"
  | hexString => "HexString"
  | bitString => "BitString"
  | identifier _ => "Identifier"
  | quotedIdentifier _ => "QuotedIdentifier"
  | keyword _ => "Keyword"
  | atVariable => "Variable"
  | parameter => "Parameter"
  | plus => "Plus"
  | minus => "Minus"
  | star => "Star"
  | slash => "Slash"
  | percent => "Percent"
  | caret => "Caret"
  | eq => "Eq"
  | nullSafeEq => "NullSafeEq"
  | notEq => "NotEq"
  | lt => "Lt"
  | ltEq => "LtEq"
  | gt => "Gt"
  | gtEq => "GtEq"
  | concat => "Concat"
  | logicalAnd => "LogicalAnd"
  | bitAnd => "BitAnd"
  | bitOr => "BitOr"
  | bitNot => "BitNot"
  | bang => "Bang"
  | leftShift => "LeftShift"
  | rightShift => "RightShift"
  | arrow => "Arrow"
  | longArrow => "LongArrow"
  | assign => "Assign"
  | operator => "Operator"
  | leftParen => "LeftParen"
  | rightParen => "RightParen"
  | leftBracket => "LeftBracket"
  | rightBracket => "RightBracket"
  | comma => "Comma"
  | semicolon => "Semicolon"
  | dot => "Dot"
  | colon => "Colon"
  | doubleColon => "DoubleColon"
  | question => "Question"
  | eof => "Eof"
  | invalid _ => "Error"

def bare : List TokenKind := [
  integer, float, string, hexString, bitString, atVariable, parameter,
  plus, minus, star, slash, percent, caret, eq, nullSafeEq, notEq, lt, ltEq, gt, gtEq, concat,
  logicalAnd, bitAnd, bitOr, bitNot, bang, leftShift, rightShift, arrow, longArrow, assign,
  operator, leftParen, rightParen, leftBracket, rightBracket, comma, semicolon, dot, colon,
  doubleColon, question, eof]

/--
Do two kinds agree, leaving aside what they carry?
-/
def alike (a b : TokenKind) : Bool :=
  a.ctorIdx == b.ctorIdx

def describe : TokenKind → String
  | integer | float => "number"
  | string | hexString | bitString => "string"
  | identifier _ | quotedIdentifier _ => "identifier"
  | keyword word => word.spelling
  | atVariable => "variable"
  | parameter => "parameter"
  | plus => "'+'"
  | minus => "'-'"
  | star => "'*'"
  | slash => "'/'"
  | percent => "'%'"
  | caret => "'^'"
  | eq => "'='"
  | nullSafeEq => "'<=>'"
  | notEq => "'<>'"
  | lt => "'<'"
  | ltEq => "'<='"
  | gt => "'>'"
  | gtEq => "'>='"
  | concat => "'||'"
  | logicalAnd => "'&&'"
  | bitAnd => "'&'"
  | bitOr => "'|'"
  | bitNot => "'~'"
  | bang => "'!'"
  | leftShift => "'<<'"
  | rightShift => "'>>'"
  | arrow => "'->'"
  | longArrow => "'->>'"
  | assign => "':='"
  | operator => "operator"
  | leftParen => "'('"
  | rightParen => "')'"
  | leftBracket => "'['"
  | rightBracket => "']'"
  | comma => "','"
  | semicolon => "';'"
  | dot => "'.'"
  | colon => "':'"
  | doubleColon => "'::'"
  | question => "'?'"
  | eof => "end of input"
  | invalid _ => "invalid token"

@[simp]
theorem alike_self (a : TokenKind) : a.alike a := by
  simp [alike]

end TokenKind

structure Token where
  kind : TokenKind
  span : Span
  deriving DecidableEq, Inhabited

namespace Token

def eof (size : Nat) : Token :=
  ⟨.eof, .empty size⟩

def isEof (t : Token) : Bool :=
  t.kind.alike .eof

def keyword? (t : Token) : Option Keyword :=
  match t.kind with
  | .keyword word => some word
  | _ => none

def isKeyword (t : Token) (word : Keyword) : Bool :=
  t.keyword? == some word

def isOneOf (t : Token) (words : List Keyword) : Bool :=
  match t.keyword? with
  | some word => words.contains word
  | none => false

/--
Is the token the bare word `word`, be it a name or a keyword, whatever the case of its letters?
-/
def isWord (t : Token) (word : String) : Bool :=
  match t.kind with
  | .identifier name => Text.sameLetters name word
  | .keyword k => Text.sameLetters k.spelling word
  | _ => false

/--
Can the token follow a dot in a dotted name? Any word can, reserved or not.
-/
def isNamePart (t : Token) : Bool :=
  match t.kind with
  | .identifier _ | .quotedIdentifier _ | .keyword _ => true
  | _ => false

def text (t : Token) (source : String) : String :=
  t.span.slice source

end Token

end SqlScript
