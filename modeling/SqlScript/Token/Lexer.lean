import SqlScript.Dialect
import SqlScript.Text.Class
import SqlScript.Token.Operator

/-!
Cutting a text into tokens. Gaps, which are blanks and comments, are skipped; a block comment that
is not closed is no part of a gap. What is no token becomes an invalid one, and the end of the text
is marked by one last token; so the tokens and the gaps between them are the whole text.
-/

namespace SqlScript.Token

def startsLineComment (d : Dialect) : List Char → Bool
  | '-' :: '-' :: cs =>
    !d.dashCommentNeedsSpace ||
      match cs with
      | [] => true
      | c :: _ => Text.isBlank c
  | '#' :: _ => d.hashComments
  | _ => false

/--
The number of characters up to the end of a block comment, the `*/` included, where `depth` comments
are open around the one we are in and `n` characters have been counted before. There is none if the
comment is not closed.
-/
def commentEnd? (nested : Bool) (depth n : Nat) : List Char → Option Nat
  | [] => none
  | c :: cs =>
    match c, cs with
    | '*', '/' :: rest =>
      match depth with
      | 0 => some (n + 2)
      | depth + 1 => commentEnd? nested depth (n + 2) rest
    | '/', '*' :: rest =>
      if nested then
        commentEnd? nested (depth + 1) (n + 2) rest
      else
        commentEnd? nested depth (n + 1) ('*' :: rest)
    | _, cs => commentEnd? nested depth (n + 1) cs

/--
Of a blank or a whole comment that starts with `c`, the number of characters behind `c`.
-/
def gapItem? (d : Dialect) (c : Char) (cs : List Char) : Option Nat :=
  if Text.isBlank c then
    some 0
  else if startsLineComment d (c :: cs) then
    some (cs.takeWhile (· ≠ '\n')).length
  else
    match c, cs with
    | '/', '*' :: rest => commentEnd? d.nestedBlockComments 0 1 rest
    | _, _ => none

def gapLength (d : Dialect) : List Char → Nat
  | [] => 0
  | c :: cs =>
    match gapItem? d c cs with
    | some more => more + 1 + gapLength d (cs.drop more)
    | none => 0
termination_by cs => cs.length
decreasing_by
  simp only [List.length_drop, List.length_cons]
  exact Nat.lt_succ_of_le (Nat.sub_le _ _)

@[simp]
theorem gapLength_nil (d : Dialect) : gapLength d [] = 0 := by
  rw [gapLength]

variable {d : Dialect} {c : Char} {cs : List Char}

theorem gapLength_some {more : Nat} (h : gapItem? d c cs = some more) :
    gapLength d (c :: cs) = more + 1 + gapLength d (cs.drop more) := by
  rw [gapLength, h]

theorem gapLength_none (h : gapItem? d c cs = none) : gapLength d (c :: cs) = 0 := by
  rw [gapLength, h]

theorem gapLength_blank (hc : Text.isBlank c) (cs : List Char) :
    gapLength d (c :: cs) = 1 + gapLength d cs := by
  have hitem : gapItem? d c cs = some 0 := by
    unfold gapItem?
    rw [if_pos hc]
  rw [gapLength_some hitem, Nat.zero_add, List.drop_zero]

def delimiter? : Char → Option TokenKind
  | '(' => some .leftParen
  | ')' => some .rightParen
  | '[' => some .leftBracket
  | ']' => some .rightBracket
  | ',' => some .comma
  | ';' => some .semicolon
  | _ => none

/--
Does a character end a name, so that a point behind it qualifies that name?
-/
def endsName (c : Char) : Bool :=
  Text.isAlphanumeric c || c == '_' || c == '"' || c == '\x60' || c == ')'

/--
Of a literal with letters before its opening quote, its kind and how many characters stand between
the first letter and the quote.
-/
def literalPrefix? (d : Dialect) (c : Char) (cs : List Char) : Option (TokenKind × Nat) :=
  match c.toLower, cs with
  | 'x', '\'' :: _ => some (.hexString, 0)
  | 'b', '\'' :: _ => some (.bitString, 0)
  | 'n', '\'' :: _ => some (.string, 0)
  | 'e', '\'' :: _ => if d.dollarQuoting then some (.string, 0) else none
  | 'u', '&' :: '\'' :: _ => if d.dollarQuoting then some (.string, 1) else none
  | _, _ => none

def word (c : Char) (cs : List Char) : Lexeme :=
  let tail := cs.takeWhile fun c => Text.isAlphanumeric c || c == '_' || c == '$'
  let text := String.ofList (c :: tail)
  match Keyword.ofString? text with
  | some k => ⟨.keyword k, tail.length⟩
  | none => ⟨.identifier text, tail.length⟩

/--
The token that starts with `c` and goes on into `cs`. If `glued`, the text before it ends a name.
-/
def lexeme (d : Dialect) (glued : Bool) (c : Char) (cs : List Char) : Lexeme :=
  match delimiter? c with
  | some kind => ⟨kind, 0⟩
  | none =>
    if c == '/' && cs.head? == some '*' then
      ⟨.invalid "Unterminated block comment", cs.length⟩
    else if c == '.' then
      if cs.head?.any Char.isDigit && !glued then number (c :: cs) else ⟨.dot, 0⟩
    else if c == ':' then
      if cs.head? == some ':' then ⟨.doubleColon, 1⟩
      else if cs.head? == some '=' && d.atVariables then ⟨.assign, 1⟩
      else ⟨.colon, 0⟩
    else if c == '\'' || (c == '"' && d.doubleQuotedStrings) then
      quotedLiteral .string c d.backslashEscapes 0 cs
    else if c == '"' || (c == '\x60' && d.identifierQuote == '\x60') then
      quotedName c cs
    else if c == '$' && d.dollarQuoting then
      dollar cs
    else if c == '@' && d.atVariables then
      variableName cs
    else if c.isDigit then
      number (c :: cs)
    else if Text.isLetter c || c == '_' then
      match literalPrefix? d c cs with
      | some (kind, between) =>
        quotedLiteral kind '\'' (d.backslashEscapes || c.toLower == 'e') (between + 1) cs
      | none => word c cs
    else if isOperatorChar c then
      if d.customOperators then customOperator c cs else fixedOperator c cs
    else
      ⟨unexpectedChar c, 0⟩

def byteLength (cs : List Char) : Nat :=
  cs.foldl (fun n c => n + c.utf8Size) 0

/--
The tokens of the part `cs` of a text that starts at `offset`; `before` is the character in front of
it.
-/
def scan (d : Dialect) (offset : Nat) (before : Option Char) (cs : List Char) : List Token :=
  let gap := cs.take (gapLength d cs)
  match _h : cs.drop (gapLength d cs) with
  | [] => []
  | c :: rest =>
    let before := gap.getLast?.or before
    let lexeme := lexeme d (before.any endsName) c rest
    let tail := rest.take lexeme.more
    let start := offset + byteLength gap
    let stop := start + byteLength (c :: tail)
    ⟨lexeme.kind, start, stop⟩ :: scan d stop (tail.getLast?.or (some c)) (rest.drop lexeme.more)
termination_by cs.length
decreasing_by
  have := congrArg List.length _h
  simp at this ⊢
  omega

def tokenize (d : Dialect) (source : String) : List Token :=
  scan d 0 none source.toList ++ [eof source.utf8ByteSize]

end SqlScript.Token
