import SqlScript.CommandLine.Parameter
import SqlScript.Dialect
import SqlScript.Parsing.Parser
import SqlScript.Text.Class

/-!
What the arguments and the environment ask for.
-/

namespace SqlScript.CommandLine

inductive UsageError where
  | unknown (argument : String)
  | missingValue (parameter : Parameter)
  | invalidValue (parameter : Parameter) (value : String)
  | needlessValue (flag : Flag)
  | repeatedParameter (parameter : Parameter)
  | repeatedFlag (flag : Flag)
  | emptyInput
  | secondInput (path : String)
  deriving Repr

def UsageError.message : UsageError → String
  | unknown argument => "unexpected argument '" ++ argument ++ "'"
  | missingValue p => "a value is required for '--" ++ p.long ++ "'"
  | invalidValue p value => "invalid value '" ++ value ++ "' for '--" ++ p.long ++ "'"
  | needlessValue f => "'--" ++ f.long ++ "' takes no value"
  | repeatedParameter p => "'--" ++ p.long ++ "' cannot be used multiple times"
  | repeatedFlag f => "'--" ++ f.long ++ "' cannot be used multiple times"
  | emptyInput => "the input path is empty"
  | secondInput path => "unexpected second input '" ++ path ++ "'"

structure Given where
  flavor : Option Flavor := none
  baseline : Option Nat := none
  maxDepth : Option Nat := none
  format : Option Format := none
  pretty : Bool := false
  verbose : Bool := false
  input : Option String := none

def flavor? (value : String) : Option Flavor :=
  if value == "mysql" then some .mySql
  else if ["postgres", "postgresql", "pg"].contains value then some .postgreSql
  else none

def format? (value : String) : Option Format :=
  if value == "json" then some .json
  else if value == "summary" then some .summary
  else none

namespace Given

def has (given : Given) : Parameter → Bool
  | .dialect => given.flavor.isSome
  | .baseline => given.baseline.isSome
  | .maxDepth => given.maxDepth.isSome
  | .format => given.format.isSome

def set (given : Given) (p : Parameter) (value : String) : Except UsageError Given :=
  let changed : Option Given :=
    match p with
    | .dialect => (flavor? value).map fun v => { given with flavor := some v }
    | .baseline => (Text.count? value).map fun v => { given with baseline := some v }
    | .maxDepth => (Text.count? value).map fun v => { given with maxDepth := some v }
    | .format => (format? value).map fun v => { given with format := some v }
  match changed with
  | some given => .ok given
  | none => .error (.invalidValue p value)

def setOnce (given : Given) (p : Parameter) (value : String) : Except UsageError Given :=
  if given.has p then .error (.repeatedParameter p) else given.set p value

def setInput (given : Given) (path : String) : Except UsageError Given :=
  if path.isEmpty then .error .emptyInput
  else if given.input.isSome then .error (.secondInput path)
  else .ok { given with input := some path }

end Given

inductive Progress where
  | given (given : Given)
  /-- The next argument is the value of a parameter. -/
  | awaiting (given : Given) (parameter : Parameter)
  /-- Something is asked for that ends all reading. -/
  | asked (topic : Topic)

def raise (given : Given) (f : Flag) : Except UsageError Progress :=
  match f with
  | .pretty =>
    if given.pretty then .error (.repeatedFlag f) else .ok (.given { given with pretty := true })
  | .verbose =>
    if given.verbose then .error (.repeatedFlag f) else .ok (.given { given with verbose := true })
  | .inform topic => .ok (.asked topic)

def long (given : Given) (name : String) (value? : Option String) : Except UsageError Progress :=
  match Parameter.all.find? (·.long == name), Flag.all.find? (·.long == name) with
  | some p, _ =>
    match value? with
    | some value => .given <$> given.setOnce p value
    | none => .ok (.awaiting given p)
  | none, some f =>
    match value? with
    | some _ => .error (.needlessValue f)
    | none => raise given f
  | none, none => .error (.unknown name)

/--
Read the letters of a short argument. Behind the letter of a parameter stands its value, possibly
with an equals sign in front.
-/
def letters (given : Given) : List Char → Except UsageError Progress
  | [] => .ok (.given given)
  | c :: cs =>
    match Parameter.all.find? (·.short? == some c), Flag.all.find? (·.short? == some c) with
    | some p, _ =>
      match cs with
      | [] => .ok (.awaiting given p)
      | '=' :: value => .given <$> given.setOnce p (String.ofList value)
      | value => .given <$> given.setOnce p (String.ofList value)
    | none, some f => do
      match ← raise given f with
      | .given given => letters given cs
      | other => return other
    | none, none => .error (.unknown (String.singleton c))

def argument (given : Given) (arg : String) : Except UsageError Progress :=
  match arg.toList with
  | '-' :: '-' :: cs =>
    match cs.dropWhile (· != '=') with
    | _ :: value =>
      long given (String.ofList (cs.takeWhile (· != '='))) (some (String.ofList value))
    | [] => long given (String.ofList cs) none
  | '-' :: c :: cs => letters given (c :: cs)
  | _ => .given <$> given.setInput arg

/--
Does an argument start a new option, so that it cannot be the value of one?
-/
def startsOption (arg : String) : Bool :=
  match arg.toList with
  | '-' :: _ :: _ => true
  | _ => false

/--
Read arguments. Behind `--` all of them are inputs.
-/
def arguments (progress : Progress) : List String → Except UsageError Progress
  | [] =>
    match progress with
    | .awaiting _ p => .error (.missingValue p)
    | _ => .ok progress
  | arg :: args => do
    match progress with
    | .asked _ => return progress
    | .awaiting given p =>
      if startsOption arg then
        throw (.missingValue p)
      else
        arguments (.given (← given.setOnce p arg)) args
    | .given given =>
      if arg == "--" then
        .given <$> args.foldlM Given.setInput given
      else
        arguments (← argument given arg) args

/--
Take from the environment what was not said.
-/
def complete (environment : String → Option String) (given : Given) : Except UsageError Given :=
  Parameter.all.foldlM (fun given p =>
    match p.environment? >>= environment with
    | some value => if given.has p then .ok given else given.set p value
    | none => .ok given) given

inductive Request where
  | report (given : Given)
  | inform (topic : Topic)

def request (args : List String) (environment : String → Option String) :
    Except UsageError Request := do
  match ← arguments (.given {}) args with
  | .given given => .report <$> complete environment given
  | .awaiting _ p => throw (.missingValue p)
  | .asked topic => return .inform topic

end SqlScript.CommandLine
