import SqlScript.Parsing.Parser

/-!
A parser driven by hand, one step at a time. Unlike a grammar, which is built to nest no deeper than
allowed, a session counts the levels it has entered.
-/

namespace SqlScript

structure Session where
  source : String
  lines : LineIndex
  setting : Setting
  state : ParserState String
  /-- How many levels have been entered and not left. -/
  depth : Nat

namespace Session

def ofText (dialect : Dialect) (source : String) (options : Options) : Except ParseError Session :=
  let lines := LineIndex.ofString source options.baseline
  match Parser.begin dialect options.maxDepth (Token.tokenize dialect source) with
  | .ok (setting, state) => .ok ⟨source, lines, setting, state, 0⟩
  | .error failure => .error (failure.toError source lines)

def ahead (s : Session) : Lookahead :=
  { toSetting := s.setting, rest := s.state.rest }

/--
Run a parser. The session goes on from where it stopped, also if it failed.
-/
def run (s : Session) (p : Parser String α) : Except ParseError α × Session :=
  match p s.setting s.state with
  | .ok a state => (.ok a, { s with state })
  | .error failure state => (.error (failure.toError s.source s.lines), { s with state })

/--
Enter one more level. The level counts as entered even if it is one too many.
-/
def enter (s : Session) : Except ParseError Unit × Session :=
  let s := { s with depth := s.depth + 1 }
  if s.setting.limit < s.depth then s.run Parser.tooDeep else (.ok (), s)

def leave (s : Session) : Session :=
  { s with depth := s.depth - 1 }

end Session

end SqlScript
