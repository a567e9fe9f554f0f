import SqlScript.CommandLine.Outcome
import SqlScript.CommandLine.Parameter
import SqlScript.CommandLine.Request
import SqlScript.Dialect
import SqlScript.Folder
import SqlScript.Json
import SqlScript.MySql.Call
import SqlScript.MySql.Change
import SqlScript.MySql.Clause
import SqlScript.MySql.Condition
import SqlScript.MySql.Name
import SqlScript.MySql.Operand
import SqlScript.MySql.Operator
import SqlScript.MySql.Query
import SqlScript.MySql.Reading
import SqlScript.MySql.Rule
import SqlScript.MySql.Script
import SqlScript.MySql.Source
import SqlScript.Parsing.Chain
import SqlScript.Parsing.Error
import SqlScript.Parsing.Lookahead
import SqlScript.Parsing.Parser
import SqlScript.Parsing.Session
import SqlScript.Postgres.Call
import SqlScript.Postgres.Change
import SqlScript.Postgres.Clause
import SqlScript.Postgres.Condition
import SqlScript.Postgres.Name
import SqlScript.Postgres.Operand
import SqlScript.Postgres.Operator
import SqlScript.Postgres.Query
import SqlScript.Postgres.Reading
import SqlScript.Postgres.Rule
import SqlScript.Postgres.Script
import SqlScript.Postgres.Source
import SqlScript.Report
import SqlScript.Script
import SqlScript.Source.LineIndex
import SqlScript.Source.Span
import SqlScript.Statement.Basic
import SqlScript.Statement.Encoding
import SqlScript.Statement.Excerpt
import SqlScript.Statement.Name
import SqlScript.Statement.Part
import SqlScript.Statement.Query
import SqlScript.Statement.Reading
import SqlScript.Text.Bisect
import SqlScript.Text.Class
import SqlScript.Text.Ranges
import SqlScript.Token.Basic
import SqlScript.Token.Lexer
import SqlScript.Token.Keyword
import SqlScript.Token.Literal
import SqlScript.Token.Operator
import SqlScript.Tree.Basic
import SqlScript.Tree.Builder
import SqlScript.Tree.Edit
import SqlScript.Tree.Listing
import SqlScript.Main
import SqlScript.Proofs.Nesting
import SqlScript.Proofs.Simulation.Lookahead
import SqlScript.Proofs.Simulation.Basic
import SqlScript.Proofs.Simulation.Loop
import SqlScript.Proofs.Simulation.Group
import SqlScript.Proofs.MySql.Lookahead
import SqlScript.Proofs.Group
import SqlScript.Proofs.MySql.Operand
import SqlScript.Proofs.MySql.Condition
import SqlScript.Proofs.MySql.Source
import SqlScript.Proofs.MySql.Query
import SqlScript.Proofs.MySql.Call
import SqlScript.Proofs.MySql.Script
import SqlScript.Proofs.Postgres.Lookahead
import SqlScript.Proofs.Postgres.Operand
import SqlScript.Proofs.Postgres.Condition
import SqlScript.Proofs.Postgres.Source
import SqlScript.Proofs.Postgres.Query
import SqlScript.Proofs.Postgres.Script
import SqlScript.Proofs.Simulation.Script
import SqlScript.Proofs.Lockstep
import SqlScript.Proofs.Depth
import SqlScript.Proofs.Tokens
import SqlScript.Proofs.Layout
import SqlScript.Proofs.Lossless
import SqlScript.Proofs.Excerpt
import SqlScript.Proofs.Parts
import SqlScript.Proofs.Reading
import SqlScript.Proofs.MySql.Reading
import SqlScript.Proofs.Postgres.Reading
import SqlScript.Proofs.Fidelity
import SqlScript.Proofs.Inventory
import SqlScript.Proofs.Joined.Lexeme
import SqlScript.Proofs.Joined.Tokens
import SqlScript.Proofs.Joined.Entries
import SqlScript.Proofs.Joined.First
import SqlScript.Proofs.Joined.Second
import SqlScript.Proofs.Joined.Heedless
import SqlScript.Proofs.MySql.Heedless
import SqlScript.Proofs.Postgres.Heedless
import SqlScript.Proofs.Joined.Script
import SqlScript.Proofs.Recast.Statement
import SqlScript.Proofs.Recast.Reading
import SqlScript.Proofs.MySql.Recast
import SqlScript.Proofs.Postgres.Recast
import SqlScript.Proofs.Joined.Statements
import SqlScript.Proofs.Shape.Basic
import SqlScript.Proofs.Shape.Forms
import SqlScript.Proofs.Shape.Loops
import SqlScript.Proofs.Shape.Chain
import SqlScript.Proofs.Postgres.Shape
import SqlScript.Proofs.Postgres.Forms.Operand
import SqlScript.Proofs.Postgres.Forms.Condition
import SqlScript.Proofs.Postgres.Forms.Clause
import SqlScript.Proofs.Postgres.Forms.Query
import SqlScript.Proofs.Shape.Slots
import SqlScript.Proofs.Postgres.Forms.Script
import SqlScript.Proofs.MySql.Shape
import SqlScript.Proofs.MySql.Forms.Operand
import SqlScript.Proofs.MySql.Forms.Condition
import SqlScript.Proofs.MySql.Forms.Clause
import SqlScript.Proofs.MySql.Forms.Query
import SqlScript.Proofs.MySql.Forms.Script
import SqlScript.Proofs.Quoted
import SqlScript.Proofs.Lineage.Marks
import SqlScript.Proofs.Lineage.Reading
import SqlScript.Proofs.MySql.Lineage
import SqlScript.Proofs.Tiling
import SqlScript.Proofs.Spacing.Lexeme
import SqlScript.Proofs.Spacing.Tokens
import SqlScript.Proofs.Spacing.Tree
import SqlScript.Proofs.Recased.Lexeme
import SqlScript.Proofs.Recased.Tokens
import SqlScript.Proofs.Recased.Tree
import SqlScript.Proofs.Recased.Script
import SqlScript.Proofs.Pairing
import SqlScript.Proofs.Shape.Pairs
import SqlScript.Proofs.MySql.Balance
import SqlScript.Proofs.Postgres.Balance
import SqlScript.Proofs.Balance
import SqlScript.Proofs.Lineage.Statement
import SqlScript.Proofs.MySql.Telling
import SqlScript.Proofs.Postgres.Lineage
import SqlScript.Proofs.Postgres.Telling
import SqlScript.Proofs.Refusal
import SqlScript.Proofs.Mirror.Basic
import SqlScript.Proofs.Mirror.Reading
import SqlScript.Proofs.Mirror.Statement
import SqlScript.Proofs.MySql.Mirror
import SqlScript.Proofs.Postgres.Mirror
import SqlScript.Proofs.Mirror.Script
import SqlScript.Proofs.Precedence.Basic
import SqlScript.Proofs.MySql.Precedence
import SqlScript.Proofs.Postgres.Precedence
import SqlScript.Proofs.Precedence.Script
import SqlScript.Proofs.Baseline
import SqlScript.Proofs.Filled
import SqlScript.Proofs.MySql.Filled
import SqlScript.Proofs.Postgres.Filled
import SqlScript.Proofs.Postgres.Operation
import SqlScript.Proofs.Precedence.Operation
import SqlScript.Proofs.Excised.Tokens
import SqlScript.Proofs.Excised.Statement
import SqlScript.Proofs.Excised.Script
import SqlScript.Proofs.Excised.Excerpt
import SqlScript.Proofs.Excised.Statements
import SqlScript.Proofs.Case
import SqlScript.Proofs.Precedence.Operand
import SqlScript.Proofs.Subquery
import SqlScript.Proofs.BalancedRun
import SqlScript.Proofs.MySql.SelectList
import SqlScript.Proofs.Escaped
import SqlScript.Proofs.Munch
import SqlScript.Proofs.Limit
import SqlScript.Proofs.Postgres.Assignment
import SqlScript.Proofs.Levels
import SqlScript.Proofs.Summary
import SqlScript.Proofs.Creation
import SqlScript.Proofs.Issued
import SqlScript.Proofs.MySql.Issued
import SqlScript.Proofs.Postgres.Issued
import SqlScript.Proofs.Building
import SqlScript.Proofs.Exposed
