import SqlScript.Source.LineIndex
import SqlScript.Token.Basic

/-!
What can be wrong with a script. A grammar knows only the token it stumbled over and why; the text
and the place of that token are added once, from the source, when the error leaves the parser.
-/

namespace SqlScript

inductive Complaint where
  /-- Something else is needed here. -/
  | expected (what : String)
  /-- The statement nests deeper than `limit`. -/
  | tooDeep (limit : Nat)
  /-- A complaint that is told by its text alone. -/
  | said (text : String)
  deriving DecidableEq, Repr, Inhabited

structure Failure where
  complaint : Complaint
  token : Token
  deriving DecidableEq, Inhabited

inductive ParseError.Cause where
  | said (text : String)
  | unexpected (expected found : String)
  | unexpectedEnd (expected : String)
  deriving DecidableEq, Repr, Inhabited

/--
An error in a script, and where it is. The line counts from the baseline of the script.
-/
structure ParseError where
  cause : ParseError.Cause
  line : Nat
  column : Nat
  span : Span
  deriving DecidableEq, Repr, Inhabited

namespace ParseError

def Cause.message : Cause → String
  | said text => text
  | unexpected expected found =>
    "Unexpected token: expected " ++ expected ++ ", found '" ++ found ++ "'"
  | unexpectedEnd expected => "Unexpected end of input: expected " ++ expected

def Cause.expected? : Cause → Option String
  | said _ => none
  | unexpected expected _ => some expected
  | unexpectedEnd expected => some expected

def Cause.found? : Cause → Option String
  | unexpected _ found => some found
  | _ => none

def message (e : ParseError) : String :=
  e.cause.message

def display (e : ParseError) : String :=
  e.message ++ " at line " ++ toString e.line ++ ", column " ++ toString e.column

end ParseError

def Complaint.cause (complaint : Complaint) (token : Token) (source : String) : ParseError.Cause :=
  match complaint with
  | expected what =>
    if token.isEof then .unexpectedEnd what else .unexpected what (token.text source)
  | tooDeep limit => .said ("Statement is nested too deeply (limit " ++ toString limit ++ ")")
  | said text => .said text

def Failure.toError (f : Failure) (source : String) (lines : LineIndex) : ParseError :=
  let position := lines.position f.token.span.start
  ⟨f.complaint.cause f.token source, position.line, position.column, f.token.span⟩

theorem ParseError.found?_eq_none_of_expected?_eq_none (c : ParseError.Cause)
    (h : c.expected? = none) : c.found? = none := by
  cases c <;> simp_all [Cause.expected?, Cause.found?]

end SqlScript
