import SqlScript.Dialect
import SqlScript.Token.Basic

/-!
What a grammar can see of the tokens in front of it. Looking ahead never consumes anything; behind
the last token the end of the text is seen for ever.
-/

namespace SqlScript

structure Setting where
  dialect : Dialect
  /-- How deep statements may nest. -/
  limit : Nat
  /-- The end of the text. -/
  stop : Token

/--
The tokens in front of a parser, without the end of the text.
-/
structure Lookahead extends Setting where
  rest : List Token

namespace Lookahead

variable (a : Lookahead)

def token (n : Nat) : Token :=
  a.rest[n]?.getD a.stop

def kind (n : Nat) : TokenKind :=
  (a.token n).kind

def keyword? (n : Nat) : Option Keyword :=
  (a.token n).keyword?

/--
Is a token of this kind, leaving aside what it carries?
-/
def isKind (n : Nat) (kind : TokenKind) : Bool :=
  (a.kind n).alike kind

def isKeyword (n : Nat) (word : Keyword) : Bool :=
  (a.token n).isKeyword word

def isOneOf (n : Nat) (words : List Keyword) : Bool :=
  (a.token n).isOneOf words

def isWord (n : Nat) (word : String) : Bool :=
  (a.token n).isWord word

/--
Can a token be a name: bare, quoted, or a keyword that the dialect does not reserve?
-/
def isName (n : Nat) : Bool :=
  match a.kind n with
  | .identifier _ | .quotedIdentifier _ => true
  | .keyword word => !a.dialect.isReserved word
  | _ => false

def isNamePart (n : Nat) : Bool :=
  (a.token n).isNamePart

def atEnd : Bool :=
  (a.token 0).isEof

def atStatementEnd : Bool :=
  a.isKind 0 .semicolon || a.atEnd

/--
The index of the `)` that closes the innermost of `depth` open parentheses, where the first of these
tokens has the given index.
-/
def closingParen? (depth index : Nat) : List Token → Option Nat
  | [] => none
  | t :: ts =>
    match t.kind with
    | .leftParen => closingParen? (depth + 1) (index + 1) ts
    | .rightParen => if depth ≤ 1 then some index else closingParen? (depth - 1) (index + 1) ts
    | _ => closingParen? depth (index + 1) ts

/--
The index of the `)` that closes the `(` behind `n` tokens. Brackets and separators are passed over.
-/
def matchingParen? (n : Nat) : Option Nat :=
  if a.isKind n .leftParen then closingParen? 0 n (a.rest.drop n) else none

def closingEnd? (depth index : Nat) : List Token → Option Nat
  | [] => none
  | t :: ts =>
    match t.kind with
    | .keyword .CASE => closingEnd? (depth + 1) (index + 1) ts
    | .keyword .END =>
      if depth ≤ 1 then some (index + 1) else closingEnd? (depth - 1) (index + 1) ts
    | _ => closingEnd? depth (index + 1) ts

/--
The index behind the `END` that closes the `CASE` behind `n` tokens.
-/
def caseExtent? (n : Nat) : Option Nat :=
  if a.isKeyword n .CASE then closingEnd? 0 n (a.rest.drop n) else none

def continuesQuery (word : Keyword) : Bool :=
  [.UNION, .EXCEPT, .INTERSECT, .ORDER, .LIMIT, .OFFSET, .FETCH, .FOR, .LOCK].contains word

/--
Is the group that opens behind `n` tokens followed by what may follow a parenthesized query inside
another one?
-/
def groupMayBeQuery (n : Nat) : Bool :=
  match a.matchingParen? n with
  | none => false
  | some close =>
    match a.kind (close + 1) with
    | .rightParen => true
    | .keyword word => continuesQuery word
    | _ => false

/--
Does the `(` behind `n` tokens open a subquery? The last of the parentheses that open there must be
followed by one of `starts`, and every group inside the first by `)` or a word that continues a
query; so `((SELECT 1) + 1)` is none. A run of more parentheses than may nest counts as a subquery,
for the depth to be complained about where it is exceeded.
-/
def opensSubquery (n : Nat) (starts : List Keyword) : Bool :=
  let opened := ((a.rest.drop n).takeWhile (·.kind.alike .leftParen)).length
  0 < opened && a.isOneOf (n + opened) starts &&
    (a.limit < opened || (List.range' (n + 1) (opened - 1)).all a.groupMayBeQuery)

/--
Is there a token that satisfies `p` before the end of the statement or of the group around it, and
inside no further group? `depth` groups are open.
-/
def anyAtTop (p : Token → Bool) (depth : Nat) : List Token → Bool
  | [] => false
  | t :: ts =>
    match t.kind with
    | .leftParen | .leftBracket => anyAtTop p (depth + 1) ts
    | .rightParen | .rightBracket =>
      match depth with
      | 0 => false
      | depth + 1 => anyAtTop p depth ts
    | .semicolon => if depth == 0 then false else anyAtTop p depth ts
    | _ => (depth == 0 && p t) || anyAtTop p depth ts

def topLevelAny (p : Token → Bool) : Bool :=
  anyAtTop p 0 a.rest

/--
Take tokens as long as parentheses and brackets stay balanced, up to a token outside of all groups
that satisfies `stop`, to the end of the statement, or to a delimiter that closes nothing. `closers`
are awaited, the innermost first, and `n` tokens have been taken. The answer is how many are taken
and, if something else stands in its place, the closing delimiter that is missing.
-/
def balancedRun (stop : Token → Bool) (closers : List TokenKind) (n : Nat) :
    List Token → Nat × Option TokenKind
  | [] => (n, closers.head?)
  | t :: ts =>
    match t.kind with
    | .leftParen => balancedRun stop (.rightParen :: closers) (n + 1) ts
    | .leftBracket => balancedRun stop (.rightBracket :: closers) (n + 1) ts
    | .rightParen | .rightBracket =>
      match closers with
      | [] => (n, none)
      | closer :: outer =>
        if t.kind == closer then balancedRun stop outer (n + 1) ts else (n, some closer)
    | .semicolon => if closers.isEmpty then (n, none) else balancedRun stop closers (n + 1) ts
    | _ =>
      if closers.isEmpty && stop t then (n, none) else balancedRun stop closers (n + 1) ts

@[simp]
theorem token_of_rest_eq_nil {a : Lookahead} (h : a.rest = []) (n : Nat) : a.token n = a.stop := by
  simp [token, h]

end Lookahead

end SqlScript
