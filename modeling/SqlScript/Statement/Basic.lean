import SqlScript.Statement.Query

/-!
The statements of a script. Statements of kinds that are not looked into are kept as text.
-/

namespace SqlScript

structure Assignment where
  excerpt : Excerpt
  column : ColumnName
  value : Expr

structure InsertedRows where
  excerpt : Excerpt
  rows : List (List Expr)

inductive InsertSource where
  | values (rows : InsertedRows)
  | select (select : Select)
  /-- One row, given column by column. -/
  | set (assignments : List Assignment)
  | defaultValues (excerpt : Excerpt)

structure Insert where
  excerpt : Excerpt
  table : TableName
  columns : List String
  source : InsertSource
  /-- What is assigned if a row with the same key exists. -/
  onDuplicate : List Assignment
  onConflict : Option Unstructured
  returning : Option Unstructured

structure Update where
  excerpt : Excerpt
  tables : TableSources
  assignments : List Assignment
  condition : Option Expr
  orderBy : Option Unstructured
  limit : Option Limit
  returning : Option Unstructured

structure Delete where
  excerpt : Excerpt
  tables : TableSources
  /-- The tables of which rows are deleted, where this is not all of them. -/
  targets : List TableName
  condition : Option Expr
  orderBy : Option Unstructured
  limit : Option Limit
  returning : Option Unstructured

structure CreateDatabase where
  excerpt : Excerpt
  name : Identifier
  ifNotExists : Bool
  deriving DecidableEq, Repr, Inhabited

inductive Statement where
  | select (select : Select)
  | insert (insert : Insert)
  | update (update : Update)
  | delete (delete : Delete)
  /-- What defines tables and the like. -/
  | definition (body : Unstructured)
  /-- What changes rows in a way that is not looked into. -/
  | manipulation (body : Unstructured)
  | createDatabase (create : CreateDatabase)
  /-- What only shows or explains something. -/
  | otherRead (body : Unstructured)
  | unclassified (body : Unstructured)
  /-- A semicolon with no statement before it. -/
  | empty (excerpt : Excerpt)

namespace Statement

def excerpt : Statement → Excerpt
  | select s => s.excerpt
  | insert s => s.excerpt
  | update s => s.excerpt
  | delete s => s.excerpt
  | createDatabase s => s.excerpt
  | definition body | manipulation body | otherRead body | unclassified body => body.excerpt
  | empty e => e

def selectKind : Select → String
  | .simple _ => "SimpleSelect"
  | .union _ => "UnionSelect"
  | .parenthesis _ => "ParenthesisSelect"

def kind : Statement → String
  | select s => selectKind s
  | insert _ => "Insert"
  | update _ => "Update"
  | delete _ => "Delete"
  | definition _ => "Ddl"
  | manipulation _ => "Dml"
  | createDatabase _ => "CreateDatabase"
  | otherRead _ => "OtherRead"
  | unclassified _ => "Unclassified"
  | empty _ => "Empty"

def asSelect : Statement → Option Select
  | select s => some s
  | _ => none

def isSelect (s : Statement) : Bool :=
  s.asSelect.isSome

@[simp]
theorem asSelect_select (s : Select) : (select s).asSelect = some s :=
  rfl

end Statement

end SqlScript
