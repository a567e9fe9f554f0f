/-!
What can be said on the command line: parameters, which take a value, and flags, which take none.
-/

namespace SqlScript.CommandLine

inductive Format where
  | json
  | summary
  deriving DecidableEq, Repr

inductive Parameter where
  | dialect
  | baseline
  | maxDepth
  | format
  deriving DecidableEq, Repr

inductive Topic where
  | help
  | version
  deriving DecidableEq, Repr

inductive Flag where
  | pretty
  | verbose
  | inform (topic : Topic)
  deriving DecidableEq, Repr

namespace Parameter

def all : List Parameter := [dialect, baseline, maxDepth, format]

def long : Parameter → String
  | dialect => "dialect"
  | baseline => "baseline"
  | maxDepth => "max-depth"
  | format => "format"

def short? : Parameter → Option Char
  | dialect => some 'd'
  | baseline => some 'b'
  | maxDepth => none
  | format => some 'f'

def environment? : Parameter → Option String
  | dialect => some "SQLSTMT_DIALECT"
  | baseline => some "SQLSTMT_BASELINE"
  | maxDepth => some "SQLSTMT_MAX_DEPTH"
  | format => none

def valueName : Parameter → String
  | dialect => "DIALECT"
  | baseline => "BASELINE"
  | maxDepth => "MAX_DEPTH"
  | format => "FORMAT"

def default? : Parameter → Option String
  | dialect => some "mysql"
  | baseline => some "1"
  | maxDepth => none
  | format => some "json"

/--
The values to choose from, if they are few. A dialect has further names, which are not shown.
-/
def choices : Parameter → List String
  | dialect => ["mysql", "postgres"]
  | format => ["json", "summary"]
  | baseline | maxDepth => []

def description : Parameter → String
  | dialect => "SQL dialect of the input"
  | baseline => "Line number of the first input line"
  | maxDepth => "Maximum nesting of expressions and subqueries"
  | format => "Output format"

end Parameter

namespace Flag

def all : List Flag := [pretty, verbose, inform .help, inform .version]

def long : Flag → String
  | pretty => "pretty"
  | verbose => "verbose"
  | inform .help => "help"
  | inform .version => "version"

def short? : Flag → Option Char
  | pretty => none
  | verbose => some 'v'
  | inform .help => some 'h'
  | inform .version => some 'V'

def description : Flag → String
  | pretty => "Indent JSON output"
  | verbose => "Enable verbose output"
  | inform .help => "Print help"
  | inform .version => "Print version"

end Flag

end SqlScript.CommandLine
