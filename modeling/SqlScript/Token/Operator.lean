import SqlScript.Token.Literal

/-!
Operators. A dialect either has a fixed list of them, of which the longest that fits is taken, or
lets any run of operator characters be an operator, cut where a comment starts and short of trailing
signs.
-/

namespace SqlScript.Token

/--
Characters that allow a run of operator characters to end in a sign.
-/
def allowsSignEnd (c : Char) : Bool :=
  ['~', '!', '@', '#', '%', '^', '&', '|', '\x60', '?'].contains c

def isOperatorChar (c : Char) : Bool :=
  ['+', '-', '*', '/', '<', '>', '='].contains c || allowsSignEnd c

/--
The operators of dialects with a fixed list, none behind one that it starts with.
-/
def fixedOperators : List (String × TokenKind) := [
  ("<=>", .nullSafeEq), ("->>", .longArrow), ("<=", .ltEq), ("<>", .notEq), ("<<", .leftShift),
  (">=", .gtEq), (">>", .rightShift), ("!=", .notEq), ("->", .arrow), ("&&", .logicalAnd),
  ("||", .concat), ("<", .lt), (">", .gt), ("=", .eq), ("!", .bang), ("+", .plus), ("-", .minus),
  ("*", .star), ("/", .slash), ("%", .percent), ("^", .caret), ("&", .bitAnd), ("|", .bitOr),
  ("~", .bitNot), ("?", .question)]

/--
The operators with a kind of their own in dialects where any run of operator characters is one.
-/
def namedOperators : List (String × TokenKind) := [
  ("+", .plus), ("-", .minus), ("*", .star), ("/", .slash), ("%", .percent), ("^", .caret),
  ("=", .eq), ("<>", .notEq), ("!=", .notEq), ("<", .lt), ("<=", .ltEq), (">", .gt), (">=", .gtEq),
  ("||", .concat), ("&&", .logicalAnd), ("&", .bitAnd), ("|", .bitOr), ("~", .bitNot), ("!", .bang),
  ("<<", .leftShift), (">>", .rightShift), ("->", .arrow), ("->>", .longArrow), ("?", .question)]

def unexpectedChar (c : Char) : TokenKind :=
  .invalid ("Unexpected character: " ++ c.toString)

def fixedOperator (c : Char) (cs : List Char) : Lexeme :=
  match fixedOperators.find? fun (text, _) => text.toList.isPrefixOf (c :: cs) with
  | some (text, kind) => ⟨kind, text.length - 1⟩
  | none => ⟨unexpectedChar c, 0⟩

theorem fixedOperator_eq (c : Char) (cs : List Char) :
    fixedOperator c cs =
      match fixedOperators.find? fun op => op.1.toList.isPrefixOf (c :: cs) with
      | some op => ⟨op.2, op.1.length - 1⟩
      | none => ⟨unexpectedChar c, 0⟩ := by
  unfold fixedOperator
  split
  · rename_i text kind hfind
    rw [show fixedOperators.find? (fun op => op.1.toList.isPrefixOf (c :: cs)) = _ from hfind]
  · rename_i hfind
    rw [show fixedOperators.find? (fun op => op.1.toList.isPrefixOf (c :: cs)) = _ from hfind]

/--
Cut a run of operator characters where `mark` first occurs, unless the run starts with it.
-/
def cutAt (mark run : List Char) : List Char :=
  match indexOf? mark 0 run with
  | some n => if 0 < n then run.take n else run
  | none => run

/--
Take leading signs off, as long as something is left.
-/
def dropSigns : List Char → List Char
  | c :: next :: rest =>
    if c == '+' || c == '-' then dropSigns (next :: rest) else c :: next :: rest
  | cs => cs

/--
An operator must not end in a sign, unless it holds one of the characters that allow it.
-/
def trimSigns (run : List Char) : List Char :=
  if run.any allowsSignEnd then run else (dropSigns run.reverse).reverse

def munch (run : List Char) : List Char :=
  trimSigns (cutAt ['/', '*'] (cutAt ['-', '-'] run))

def customOperator (c : Char) (cs : List Char) : Lexeme :=
  let op := munch ((c :: cs).takeWhile isOperatorChar)
  let text := String.ofList op
  match namedOperators.find? (·.1 == text) with
  | some (_, kind) => ⟨kind, op.length - 1⟩
  | none => ⟨.operator, op.length - 1⟩

end SqlScript.Token
