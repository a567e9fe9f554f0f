import SqlScript.Statement.Name

/-!
Queries, tables and expressions. They contain each other: a table can be a query, and an expression
can ask a query. Of expressions only connectives, comparisons, `IN`, literals and columns are looked
into.
-/

namespace SqlScript

inductive LogicalOperator where
  | and
  | or
  | xor
  deriving DecidableEq, Repr, Inhabited

namespace LogicalOperator

def all : List LogicalOperator := [and, or, xor]

def spelling : LogicalOperator → String
  | and => "AND"
  | or => "OR"
  | xor => "XOR"

def sign? : LogicalOperator → Option String
  | and => some "&&"
  | or => some "||"
  | xor => none

def ofText? (text : String) : Option LogicalOperator :=
  all.find? fun operator =>
    Text.sameLetters text operator.spelling || operator.sign? == some text

end LogicalOperator

inductive JoinSide where
  | left
  | right
  | full
  deriving DecidableEq, Repr, Inhabited

/--
How many rows are taken, and how many are passed over before. What is no plain number is left out.
-/
structure Limit where
  excerpt : Excerpt
  rowCount : Option Nat
  offset : Option Nat
  deriving DecidableEq, Repr, Inhabited

structure StarElement where
  excerpt : Excerpt
  qualifier : Option DottedName
  deriving DecidableEq, Repr, Inhabited

structure ColumnElement where
  excerpt : Excerpt
  column : ColumnName
  asName : Option String
  deriving DecidableEq, Repr, Inhabited

inductive SelectElement where
  | star (element : StarElement)
  | column (element : ColumnElement)
  | function (body : Unstructured)
  | expression (body : Unstructured)
  deriving DecidableEq, Repr, Inhabited

/--
What is selected. A star in the first place is no element, but a mark of the list.
-/
structure SelectElements where
  excerpt : Excerpt
  star : Bool
  elements : List SelectElement
  deriving DecidableEq, Repr, Inhabited

structure Constant where
  excerpt : Excerpt
  value : String
  deriving DecidableEq, Repr, Inhabited

inductive Atom where
  | constant (excerpt : Excerpt) (constant : Constant)
  | column (name : ColumnName)
  | unstructured (body : Unstructured)
  deriving DecidableEq, Repr, Inhabited

structure NamedTable where
  excerpt : Excerpt
  name : TableName
  asName : Option String
  deriving DecidableEq, Repr, Inhabited

mutual

inductive Select where
  | simple (select : SimpleSelect)
  | union (select : UnionSelect)
  | parenthesis (select : ParenthesisSelect)

structure SimpleSelect where
  excerpt : Excerpt
  query : QuerySpecification
  /-- What locks the rows that are read. -/
  lock : Option Unstructured

structure QuerySpecification where
  excerpt : Excerpt
  distinct : Bool
  elements : SelectElements
  tables : Option TableSources
  condition : Option Expr
  groupBy : Option Unstructured
  having : Option Expr
  orderBy : Option Unstructured
  limit : Option Limit

structure UnionSelect where
  excerpt : Excerpt
  first : QueryOperand
  parts : List UnionPart
  orderBy : Option Unstructured
  limit : Option Limit

/--
An operand behind the operator that brings it in, which is kept as written.
-/
structure UnionPart where
  excerpt : Excerpt
  operator : String
  operand : QueryOperand

inductive QueryOperand where
  | specification (query : QuerySpecification)
  | group (group : QueryGroup)
  /-- A set operation that binds more strongly. -/
  | union (select : UnionSelect)
  | unstructured (body : Unstructured)

structure ParenthesisSelect where
  excerpt : Excerpt
  group : QueryGroup
  orderBy : Option Unstructured
  limit : Option Limit

structure QueryGroup where
  excerpt : Excerpt
  body : QueryBody

inductive QueryBody where
  | specification (query : QuerySpecification)
  | union (select : UnionSelect)
  | nested (group : QueryGroup)

structure TableSources where
  excerpt : Excerpt
  sources : List TableSource

inductive TableSource where
  | base (source : JoinedTable)
  | unstructured (body : Unstructured)

structure JoinedTable where
  excerpt : Excerpt
  item : TableItem
  joins : List Join

inductive TableItem where
  | named (table : NamedTable)
  | subquery (table : SubqueryTable)
  /-- A list of tables in parentheses. -/
  | nested (tables : TableSources)
  | unstructured (body : Unstructured)

structure SubqueryTable where
  excerpt : Excerpt
  lateral : Bool
  select : Select
  asName : Option String

inductive Join where
  | inner (excerpt : Excerpt) (item : TableItem) (condition : Option JoinCondition)
  | straight (excerpt : Excerpt) (item : TableItem) (condition : Option JoinCondition)
  | outer (excerpt : Excerpt) (side : JoinSide) (item : TableItem)
      (condition : Option JoinCondition)
  | natural (excerpt : Excerpt) (side : Option JoinSide) (item : TableItem)

inductive JoinCondition where
  | on (excerpt : Excerpt) (condition : Expr)
  /-- Columns of the same names have equal values. -/
  | sharing (excerpt : Excerpt) (columns : List String)

inductive Expr where
  | logical (excerpt : Excerpt) (operator : LogicalOperator) (operands : List Expr)
  | predicate (excerpt : Excerpt) (predicate : Predicate)
  | unstructured (body : Unstructured)

inductive Predicate where
  | comparison (excerpt : Excerpt) (left right : Predicate) (operator : String)
  | among (excerpt : Excerpt) (subject : Predicate) (negated : Bool) (source : InSource)
  | atom (excerpt : Excerpt) (atom : Atom)
  | unstructured (body : Unstructured)

inductive InSource where
  | list (items : List Expr)
  | select (select : Select)

end

def Select.excerpt : Select → Excerpt
  | simple s => s.excerpt
  | union s => s.excerpt
  | parenthesis s => s.excerpt

def SelectElement.excerpt : SelectElement → Excerpt
  | star e => e.excerpt
  | column e => e.excerpt
  | function body | expression body => body.excerpt

def QueryOperand.excerpt : QueryOperand → Excerpt
  | specification q => q.excerpt
  | group g => g.excerpt
  | union s => s.excerpt
  | unstructured body => body.excerpt

def TableSource.excerpt : TableSource → Excerpt
  | base s => s.excerpt
  | unstructured body => body.excerpt

def TableItem.excerpt : TableItem → Excerpt
  | named t => t.excerpt
  | subquery t => t.excerpt
  | nested t => t.excerpt
  | unstructured body => body.excerpt

namespace Join

def excerpt : Join → Excerpt
  | inner e _ _ | straight e _ _ | outer e _ _ _ | natural e _ _ => e

def item : Join → TableItem
  | inner _ i _ | straight _ i _ | outer _ _ i _ | natural _ _ i => i

def condition : Join → Option JoinCondition
  | inner _ _ c | straight _ _ c | outer _ _ _ c => c
  | natural _ _ _ => none

end Join

def JoinCondition.excerpt : JoinCondition → Excerpt
  | on e _ | sharing e _ => e

namespace Expr

def excerpt : Expr → Excerpt
  | logical e _ _ | predicate e _ => e
  | unstructured body => body.excerpt

def asPredicate : Expr → Option Predicate
  | predicate _ p => some p
  | _ => none

end Expr

def Predicate.excerpt : Predicate → Excerpt
  | comparison e _ _ _ | among e _ _ _ | atom e _ => e
  | unstructured body => body.excerpt

def Atom.excerpt : Atom → Excerpt
  | constant e _ => e
  | column name => name.excerpt
  | unstructured body => body.excerpt

end SqlScript
