import SqlScript.Text.Class
import SqlScript.Token.Basic

/-!
Lexemes whose extent is found by looking for their end: strings, quoted names, numbers, variables
and dollar-quoted texts.

Every scanner is given the characters from the first one of the token on, or those behind it, and
answers how many of them belong to the token. A token takes at least its first character, so the
scanners only count what follows it.
-/

namespace SqlScript.Token

/--
What stands at the start of a text: a kind of token, and how many characters follow its first one.
-/
structure Lexeme where
  kind : TokenKind
  more : Nat
  deriving DecidableEq, Inhabited

/--
The number of characters up to the closing quote, that quote included, with `n` characters counted
before. A doubled quote does not close; neither does one that a backslash takes with it.
-/
def closingQuote? (quote : Char) (escapes : Bool) (n : Nat) : List Char → Option Nat
  | [] => none
  | c :: cs =>
    if escapes && c == '\\' then
      match cs with
      | [] => none
      | _ :: rest => closingQuote? quote escapes (n + 2) rest
    else if c == quote then
      match cs with
      | [] => some (n + 1)
      | next :: rest =>
        if next == quote then closingQuote? quote escapes (n + 2) rest else some (n + 1)
    else
      closingQuote? quote escapes (n + 1) cs

/--
A literal whose opening quote stands behind `before` of the characters `cs` that follow the first
one of the token.
-/
def quotedLiteral (kind : TokenKind) (quote : Char) (escapes : Bool) (before : Nat)
    (cs : List Char) : Lexeme :=
  match closingQuote? quote escapes before (cs.drop before) with
  | some n => ⟨kind, n⟩
  | none => ⟨.invalid "Unterminated string literal", cs.length⟩

def undouble (quote : Char) : List Char → List Char
  | [] => []
  | c :: cs =>
    match cs with
    | [] => [c]
    | next :: rest =>
      if c == quote && next == quote then
        quote :: undouble quote rest
      else
        c :: undouble quote (next :: rest)

/--
A name in quotes; `cs` follows the opening quote. The name must not be empty.
-/
def quotedName (quote : Char) (cs : List Char) : Lexeme :=
  match closingQuote? quote false 0 cs with
  | some n =>
    match undouble quote (cs.take (n - 1)) with
    | [] => ⟨.invalid "Empty quoted identifier", n⟩
    | name => ⟨.quotedIdentifier (String.ofList name), n⟩
  | none => ⟨.invalid "Unterminated quoted identifier", cs.length⟩

def countDigits (cs : List Char) : Nat :=
  (cs.takeWhile Char.isDigit).length

def isBit (c : Char) : Bool :=
  c == '0' || c == '1'

/--
The length of a point and the digits behind it. A point that a letter follows belongs to a dotted
name.
-/
def fraction? : List Char → Option Nat
  | '.' :: cs => if cs.head?.any Text.isLetter then none else some (countDigits cs + 1)
  | _ => none

def exponent? : List Char → Option Nat
  | c :: cs =>
    if c == 'e' || c == 'E' then
      match cs with
      | sign :: rest =>
        if sign == '+' || sign == '-' then
          if rest.head?.any Char.isDigit then some (countDigits rest + 2) else none
        else if sign.isDigit then
          some (countDigits cs + 1)
        else
          none
      | [] => none
    else
      none
  | [] => none

def decimal (cs : List Char) : Lexeme :=
  let whole := countDigits cs
  let fraction := fraction? (cs.drop whole)
  let mantissa := whole + fraction.getD 0
  let exponent := exponent? (cs.drop mantissa)
  let kind := if fraction.isSome || exponent.isSome then TokenKind.float else .integer
  ⟨kind, mantissa + exponent.getD 0 - 1⟩

/--
A number, in base sixteen or two if `0x` or `0b` and a digit of that base start it.
-/
def number (cs : List Char) : Lexeme :=
  match cs with
  | '0' :: base :: digit :: rest =>
    if (base == 'x' || base == 'X') && Text.isHexDigit digit then
      ⟨.hexString, (rest.takeWhile Text.isHexDigit).length + 2⟩
    else if (base == 'b' || base == 'B') && isBit digit then
      ⟨.bitString, (rest.takeWhile isBit).length + 2⟩
    else
      decimal cs
  | _ => decimal cs

def indexOf? (pattern : List Char) (n : Nat) : List Char → Option Nat
  | [] => if pattern.isEmpty then some n else none
  | c :: cs =>
    if pattern.isPrefixOf (c :: cs) then some n else indexOf? pattern (n + 1) cs

/--
A parameter `$1` or a text between two equal marks `$tag$`; `cs` follows the first dollar sign.
-/
def dollar (cs : List Char) : Lexeme :=
  if cs.head?.any Char.isDigit then
    ⟨.parameter, countDigits cs⟩
  else
    let tag := cs.takeWhile fun c => Text.isAlphanumeric c || c == '_'
    match cs.drop tag.length with
    | '$' :: body =>
      let mark := '$' :: (tag ++ ['$'])
      match indexOf? mark 0 body with
      | some n => ⟨.string, tag.length + 1 + n + mark.length⟩
      | none => ⟨.invalid "Unterminated dollar-quoted string", cs.length⟩
    | _ => ⟨.invalid "Unexpected character: $", tag.length⟩

/--
A variable, `@name`, `@'any text'` or `@@scope.name`; `cs` follows the first at sign.
-/
def variableName (cs : List Char) : Lexeme :=
  let signs := if cs.head? == some '@' then 1 else 0
  match cs.drop signs with
  | c :: rest =>
    if c == '\'' || c == '"' || c == '\x60' then
      quotedLiteral .atVariable c true (signs + 1) cs
    else if Text.isAlphanumeric c || c == '_' || c == '$' then
      let tail := rest.takeWhile fun c => Text.isAlphanumeric c || c == '_' || c == '$' || c == '.'
      ⟨.atVariable, signs + 1 + tail.length⟩
    else
      ⟨.invalid "Expected variable name after '@'", signs⟩
  | [] => ⟨.invalid "Expected variable name after '@'", signs⟩

end SqlScript.Token
