import SqlScript.MySql.Reading
import SqlScript.MySql.Script
import SqlScript.Postgres.Reading
import SqlScript.Postgres.Script

/-!
Scripts of any flavor: from text to statements.
-/

namespace SqlScript

/--
The statements of a script, or the first error in it.
-/
def parse (flavor : Flavor) (source : String) (options : Options) :
    Except ParseError (List Statement) :=
  let context := Context.ofString source options.baseline flavor
  match flavor with
  | .mySql => (MySql.statementsOf context ·.root) <$> MySql.parseTree source options
  | .postgreSql => (Postgres.statementsOf context ·.root) <$> Postgres.parseTree source options

end SqlScript
