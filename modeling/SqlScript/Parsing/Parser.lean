import SqlScript.Parsing.Error
import SqlScript.Parsing.Lookahead
import SqlScript.Token.Lexer
import SqlScript.Tree.Builder

/-!
Parsers over a token buffer. A parser takes tokens from the front of the buffer into the tree under
construction, or fails with a complaint about the token it stands at; alternatives are told apart by
looking ahead, so nothing is ever taken back.
-/

namespace SqlScript

structure Options where
  /-- Line number of the first line. -/
  baseline : Nat := 1
  /-- How deep expressions, subqueries and parentheses may nest. -/
  maxDepth : Nat := 200
  deriving DecidableEq, Repr, Inhabited

namespace Options

/--
Lines are counted from one at least.
-/
def withBaseline (options : Options) (line : Nat) : Options :=
  { options with baseline := max line 1 }

def withMaxDepth (options : Options) (depth : Nat) : Options :=
  { options with maxDepth := depth }

end Options

structure ParserState (ρ : Type) where
  rest : List Token
  builder : Tree.Builder ρ

/--
A parser keeps its state even when it fails.
-/
abbrev Parser (ρ : Type) := ReaderT Setting (EStateM Failure (ParserState ρ))

namespace Parser

variable {ρ σ : Type}

def ahead : Parser ρ Lookahead := do
  return { toSetting := ← read, rest := (← get).rest }

def sees (question : Lookahead → α) : Parser ρ α :=
  question <$> ahead

def complain (complaint : Complaint) : Parser ρ α := do
  throw ⟨complaint, (← ahead).token 0⟩

def expected (what : String) : Parser ρ α :=
  complain (.expected what)

def tooDeep : Parser ρ α := do
  complain (.tooDeep (← read).limit)

def build (step : Tree.Builder ρ → Tree.Builder ρ) : Parser ρ Unit :=
  modify fun s => { s with builder := step s.builder }

def checkpoint : Parser ρ Nat := do
  return (← get).builder.checkpoint

def start (rule : ρ) : Parser ρ Unit :=
  build (·.start rule)

def startAt (checkpoint : Nat) (rule : ρ) : Parser ρ Unit :=
  build (·.startAt checkpoint rule)

def finish : Parser ρ Unit :=
  build (·.finish)

def production (rule : ρ) (body : Parser ρ Unit) : Parser ρ Unit := do
  start rule
  body
  finish

def productionAt (checkpoint : Nat) (rule : ρ) (body : Parser ρ Unit) : Parser ρ Unit := do
  startAt checkpoint rule
  body
  finish

def bump : Parser ρ Unit :=
  modify fun s =>
    match s.rest with
    | [] => s
    | t :: ts => { s with rest := ts, builder := s.builder.token t }

def bumpN : Nat → Parser ρ Unit
  | 0 => pure ()
  | n + 1 => do
    bump
    bumpN n

def eatIf (question : Lookahead → Bool) : Parser ρ Bool := do
  if ← sees question then
    bump
    return true
  else
    return false

def eat (kind : TokenKind) : Parser ρ Bool :=
  eatIf (·.isKind 0 kind)

def eatKeyword (word : Keyword) : Parser ρ Bool :=
  eatIf (·.isKeyword 0 word)

def eatOneOf (words : List Keyword) : Parser ρ Bool :=
  eatIf (·.isOneOf 0 words)

def eatWord (word : String) : Parser ρ Bool :=
  eatIf (·.isWord 0 word)

def expectIf (question : Lookahead → Bool) (what : String) : Parser ρ Unit := do
  if ← eatIf question then
    return ()
  else
    expected what

def expect (kind : TokenKind) : Parser ρ Unit :=
  expectIf (·.isKind 0 kind) kind.describe

def expectKeyword (word : Keyword) : Parser ρ Unit :=
  expectIf (·.isKeyword 0 word) word.spelling

def expectName : Parser ρ Unit :=
  expectIf (·.isName 0) "identifier"

def expectOneOf (words : List Keyword) (what : String) : Parser ρ Unit :=
  expectIf (·.isOneOf 0 words) what

def optionalKeyword (word : Keyword) : Parser ρ Unit :=
  discard (eatKeyword word)

def optionalOneOf (words : List Keyword) : Parser ρ Unit :=
  discard (eatOneOf words)

/--
Go through rounds as long as the step gives a new state. There is a round for every token left and
one for the end of the text, which is enough for steps that take a token whenever they go on.
-/
def iterate (step : σ → Parser ρ (Option σ)) (init : σ) : Parser ρ σ := do
  let a ← ahead
  go (a.stop :: a.rest) init
where
  go : List Token → σ → Parser ρ σ
  | [], state => pure state
  | _ :: rounds, state => do
    match ← step state with
    | some next => go rounds next
    | none => return state

def repeatWhile (step : Parser ρ Bool) : Parser ρ Unit :=
  discard (iterate (fun _ : Unit => do return if ← step then some () else none) ())

def whileSees (question : Lookahead → Bool) (body : Parser ρ Unit) : Parser ρ Unit :=
  repeatWhile do
    if ← sees question then
      body
      return true
    else
      return false

def commaSeparatedFrom (first item : Parser ρ Unit) : Parser ρ Unit := do
  first
  repeatWhile do
    if ← eat .comma then
      item
      return true
    else
      return false

def commaSeparated (item : Parser ρ Unit) : Parser ρ Unit :=
  commaSeparatedFrom item item

def ifSees (question : Lookahead → Bool) (body : Parser ρ Unit) : Parser ρ Unit := do
  if ← sees question then
    body

def ifKeyword (word : Keyword) (body : Parser ρ Unit) : Parser ρ Unit :=
  ifSees (·.isKeyword 0 word) body

def afterKeyword (word : Keyword) (body : Parser ρ Unit) : Parser ρ Unit := do
  if ← eatKeyword word then
    body

/--
Take a balanced run of tokens, up to one outside of all groups that satisfies `stop`, the end of the
statement, or a delimiter that closes nothing.
-/
def bumpBalancedUntil (stop : Token → Bool) : Parser ρ Unit := do
  let (n, missing) := Lookahead.balancedRun stop [] 0 (← ahead).rest
  bumpN n
  match missing with
  | some closer => expected closer.describe
  | none => return ()

def bumpBalanced : Parser ρ Unit :=
  bumpBalancedUntil fun _ => false

def bumpGroup : Parser ρ Unit := do
  let kind ← sees (·.kind 0)
  match kind with
  | .leftParen => group .rightParen
  | .leftBracket => group .rightBracket
  | _ => expected "'('"
where
  group (closer : TokenKind) : Parser ρ Unit := do
    bump
    bumpBalanced
    expect closer

def parenthesized (body : Parser ρ Unit) : Parser ρ Unit := do
  expect .leftParen
  body
  expect .rightParen

def bumpCase : Parser ρ Unit := do
  expectKeyword .CASE
  discard (iterate round 1)
where
  round (depth : Nat) : Parser ρ (Option Nat) := do
    bumpBalancedUntil (·.isOneOf [.CASE, .END])
    if ← eatKeyword .CASE then
      return some (depth + 1)
    else if ← eatKeyword .END then
      return if depth ≤ 1 then none else some (depth - 1)
    else
      expected "END"

/--
What a parser starts from: the tokens of a text, unless one of them is invalid.
-/
def begin (dialect : Dialect) (limit : Nat) (tokens : List Token) :
    Except Failure (Setting × ParserState ρ) :=
  match tokens.findSome? invalid? with
  | some failure => .error failure
  | none =>
    let stop := tokens.getLast?.getD (.eof 0)
    .ok (⟨dialect, limit, stop⟩, ⟨tokens.dropLast, .empty⟩)
where
  invalid? (t : Token) : Option Failure :=
    match t.kind with
    | .invalid reason => some ⟨.said reason, t⟩
    | _ => none

/--
The tree that was built. All tokens must have been taken.
-/
def takeTree : Parser ρ (Tree.Node ρ) := do
  let a ← ahead
  if a.atEnd then
    match ((← get).builder.setOffset a.stop.span.start).tree? with
    | some root => return root
    | none => complain (.said "Empty syntax tree")
  else
    expected "end of input"

def parseTree (grammar : Parser ρ Unit) (dialect : Dialect) (source : String) (options : Options) :
    Except ParseError (SyntaxTree ρ) :=
  let tokens := Token.tokenize dialect source
  match run tokens with
  | .ok root => .ok ⟨root, tokens⟩
  | .error failure => .error (failure.toError source (.ofString source options.baseline))
where
  run (tokens : List Token) : Except Failure (Tree.Node ρ) := do
    let (setting, state) ← begin dialect options.maxDepth tokens
    match (do grammar; takeTree : Parser ρ (Tree.Node ρ)) setting state with
    | .ok root _ => .ok root
    | .error failure _ => .error failure

end Parser

end SqlScript
