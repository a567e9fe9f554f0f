import SqlScript.CommandLine.Parameter
import SqlScript.CommandLine.Request
import SqlScript.Folder
import SqlScript.Report
import SqlScript.Script

/-!
What is printed for those who ask for help or for the version, and what a run of the program ends
with. Nothing here reads or prints; the input is handed in and the output handed back.
-/

namespace SqlScript.CommandLine

/--
The part of a line on a parameter or flag that says how to write it. The long names stand below one
another, with or without a letter in front.
-/
def spelling (short? : Option Char) (long : String) : String :=
  match short? with
  | some c => "-" ++ String.singleton c ++ ", --" ++ long
  | none => "    --" ++ long

def Parameter.remarks (environment : String → Option String) (p : Parameter) : List String :=
  (p.environment?.map fun name =>
    "[env: " ++ name ++ "=" ++ (environment name).getD "" ++ "]").toList ++
  (p.default?.map fun value => "[default: " ++ value ++ "]").toList ++
  if p.choices.isEmpty then []
  else ["[possible values: " ++ ", ".intercalate p.choices ++ "]"]

def optionRows (environment : String → Option String) : List (String × String) :=
  (Parameter.all.map fun p =>
    (spelling p.short? (p.long ++ " <" ++ p.valueName ++ ">"),
      " ".intercalate (p.description :: p.remarks environment))) ++
  Flag.all.map fun f => (spelling f.short? f.long, f.description)

/--
Rows of two columns, of which the second starts two blanks behind the widest of the first.
-/
def table (rows : List (String × String)) : String :=
  let width := (rows.map (·.1.length)).foldl max 0
  String.join <| rows.map fun (left, right) =>
    "  " ++ left ++ "".pushn ' ' (width - left.length) ++ "  " ++ right ++ "\n"

def help (environment : String → Option String) : String :=
  "Command-line front end that prints the statement AST of MySQL or PostgreSQL scripts\n\n" ++
  "Usage: sqlstmt [OPTIONS] [INPUT]\n\n" ++
  "Arguments:\n" ++ table [("[INPUT]", "SQL file to parse (stdin if not specified)")] ++
  "\nOptions:\n" ++ table (optionRows environment)

def version : String :=
  "sqlstmt 0.1.0\n"

def Topic.text (environment : String → Option String) : Topic → String
  | help => CommandLine.help environment
  | version => CommandLine.version

inductive Outcome where
  | usage (error : UsageError)
  | success (output : String)
  /-- The report on the failure goes to the error output. -/
  | failure (output report : String)

def Outcome.exitCode : Outcome → Nat
  | usage _ => 2
  | success _ => 0
  | failure _ _ => 1

namespace Given

def options (given : Given) : Options :=
  let options := ({} : Options).withBaseline (given.baseline.getD 1)
  match given.maxDepth with
  | some depth => options.withMaxDepth depth
  | none => options

def origin (given : Given) : String :=
  given.input.getD "<stdin>"

end Given

def indentFurther (text : String) : String :=
  String.ofList (text.toList.flatMap fun c => if c == '\n' then "\n    ".toList else [c])

def failureReport (message cause : String) : String :=
  "Error: " ++ message ++ "\n\nCaused by:\n    " ++ indentFurther cause ++ "\n"

def printed (text : String) : String :=
  if text.isEmpty then "" else text ++ "\n"

def report (given : Given) (input : Except ReadError String) : Outcome :=
  match input with
  | .error error =>
    .failure "" <| failureReport ("Cannot read " ++ given.origin ++ ": " ++ error.message)
      error.message
  | .ok source =>
    let flavor := given.flavor.getD .mySql
    let format := given.format.getD .json
    match parse flavor source given.options with
    | .error error =>
      let output :=
        match format with
        | .json => printed (Report.jsonError flavor error given.pretty)
        | .summary => ""
      .failure output (failureReport (given.origin ++ ": " ++ error.display) error.display)
    | .ok statements =>
      match format with
      | .json => .success (printed (Report.json flavor statements given.pretty))
      | .summary => .success (printed (Report.summary statements))

/--
Run on arguments, with the environment and the inputs at hand. Without a path, the input is the
standard input.
-/
def run (args : List String) (environment : String → Option String)
    (read : Option String → Except ReadError String) : Outcome :=
  match request args environment with
  | .error error => .usage error
  | .ok (.inform topic) => .success (topic.text environment)
  | .ok (.report given) => report given (read given.input)

end SqlScript.CommandLine
