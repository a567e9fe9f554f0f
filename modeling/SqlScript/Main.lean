import SqlScript.CommandLine.Outcome

/-!
The program: prints the statements of the script that it is given.
-/

namespace SqlScript.CommandLine

/--
The number that the system has for an error. It may be told as its negative in 32 bits.
-/
def codeOf? (error : IO.Error) : Option Nat :=
  match error with
  | .alreadyExists _ code _ | .noFileOrDirectory _ code _ | .invalidArgument _ code _
  | .permissionDenied _ code _ | .resourceExhausted _ code _ | .inappropriateType _ code _
  | .noSuchThing _ code _ | .interrupted _ code _ | .otherError code _ | .resourceBusy code _
  | .resourceVanished code _ | .unsupportedOperation code _ | .hardwareFault code _
  | .unsatisfiedConstraints code _ | .illegalOperation code _ | .protocolError code _
  | .timeExpired code _ => some (min code (-code)).toNat
  | .unexpectedEof | .userError _ => none

def readErrorOf (error : IO.Error) : ReadError :=
  (codeOf? error >>= ReadError.ofCode?).getD (.other (toString error))

def readInput (input : Option String) : IO (Except ReadError String) := do
  try
    match input with
    | some path => return decodeText (← IO.FS.readBinFile path)
    | none => return decodeText (← (← IO.getStdin).readBinToEnd)
  catch error =>
    return .error (readErrorOf error)

def readEnvironment : IO (List (String × String)) := do
  Parameter.all.filterMapM fun p => do
    match p.environment? with
    | some name => return (← IO.getEnv name).map (name, ·)
    | none => return none

def finish (outcome : Outcome) : IO UInt32 := do
  match outcome with
  | .usage error => IO.eprintln ("error: " ++ error.message)
  | .success output => IO.print output
  | .failure output report =>
    IO.print output
    IO.eprint report
  return outcome.exitCode.toUInt32

end SqlScript.CommandLine

open SqlScript.CommandLine in
def main (args : List String) : IO UInt32 := do
  let environment ← readEnvironment
  let value := (List.lookup · environment)
  let input ←
    match request args value with
    | .ok (.report given) => readInput given.input
    | _ => pure (.ok "")
  finish (run args value fun _ => input)
