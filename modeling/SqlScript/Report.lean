import SqlScript.Parsing.Error
import SqlScript.Statement.Encoding
import SqlScript.Statement.Part

/-!
Reports on scripts: the statements as a JSON document or one line for each, or the error.
-/

namespace SqlScript.Report

def position (p : Position) : Json :=
  .object [("line", .number p.line), ("column", .number p.column), ("offset", .number p.offset)]

def excerpt (e : Excerpt) : Json :=
  .object [
    ("start", position e.start),
    ("stop", position e.stop),
    ("text", .string e.text),
    ("dialect", .string e.flavor.tag)]

def span (s : Span) : Json :=
  .object [("start", .number s.start), ("end", .number s.stop)]

def parseError (e : ParseError) : Json :=
  .object [
    ("message", .string e.message),
    ("line", .number e.line),
    ("column", .number e.column),
    ("span", span e.span),
    ("expected", .optional .string e.cause.expected?),
    ("found", .optional .string e.cause.found?)]

def json (flavor : Flavor) (statements : List Statement) (pretty : Bool) : String :=
  Json.render pretty <| .object [
    ("dialect", .string flavor.tag),
    ("statements", .list (Statement.toJson excerpt) statements)]

def jsonError (flavor : Flavor) (error : ParseError) (pretty : Bool) : String :=
  Json.render pretty <| .object [("dialect", .string flavor.tag), ("error", parseError error)]

/--
Where a statement starts, its kind, and the tables in it.
-/
def summaryLine (s : Statement) : String :=
  let start := s.excerpt.start
  let line := toString start.line ++ ":" ++ toString start.column ++ " " ++ s.kind
  match s.tables with
  | [] => line
  | tables => line ++ " " ++ ",".intercalate (tables.map (·.qualified))

def summary (statements : List Statement) : String :=
  "\n".intercalate (statements.map summaryLine)

end SqlScript.Report
