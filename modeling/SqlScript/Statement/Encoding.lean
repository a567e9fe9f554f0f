import SqlScript.Json
import SqlScript.Statement.Basic

/-!
Statements as JSON. How an excerpt is written is left open, all else is fixed: a part is an object
with one member for each of its fields, and a part that has several forms is an object with one
member, named for the form.
-/

namespace SqlScript

namespace Encoding

open Json

def texts (items : List String) : Json :=
  list string items

def identifier (i : Identifier) : Json :=
  object [("value", string i.value), ("quoted", bool i.quoted)]

def logicalOperator : LogicalOperator → Json
  | .and => string "And"
  | .or => string "Or"
  | .xor => string "Xor"

def joinSide : JoinSide → Json
  | .left => string "Left"
  | .right => string "Right"
  | .full => string "Full"

section

variable (excerpt : Excerpt → Json)

def unstructured (u : Unstructured) : Json :=
  object [("node", excerpt u.excerpt), ("production", string u.production)]

def dottedName (name : DottedName) : Json :=
  object [("node", excerpt name.excerpt), ("parts", texts name.parts)]

def tableName (name : TableName) : Json :=
  object [
    ("node", excerpt name.excerpt),
    ("owner", optional string name.owner),
    ("identifier", string name.identifier)]

def columnName (name : ColumnName) : Json :=
  object [
    ("node", excerpt name.excerpt),
    ("owner", optional string name.owner),
    ("identifier", string name.identifier),
    ("nested_object_attrs", texts name.attributes)]

def limit (l : Limit) : Json :=
  object [
    ("node", excerpt l.excerpt),
    ("row_count", optional number l.rowCount),
    ("offset", optional number l.offset)]

def selectElement : SelectElement → Json
  | .star e => tagged "Star" <| object [
    ("node", excerpt e.excerpt),
    ("qualifier", optional (dottedName excerpt) e.qualifier)]
  | .column e => tagged "Column" <| object [
    ("node", excerpt e.excerpt),
    ("column", columnName excerpt e.column),
    ("alias", optional string e.asName)]
  | .function body => tagged "Function" (unstructured excerpt body)
  | .expression body => tagged "Expression" (unstructured excerpt body)

def selectElements (es : SelectElements) : Json :=
  object [
    ("node", excerpt es.excerpt),
    ("star", bool es.star),
    ("elements", list (selectElement excerpt) es.elements)]

def constant (c : Constant) : Json :=
  object [("node", excerpt c.excerpt), ("value", string c.value)]

def atom : Atom → Json
  | .constant e c => tagged "Constant" <| object [
    ("node", excerpt e),
    ("constant", constant excerpt c)]
  | .column name => tagged "Column" (columnName excerpt name)
  | .unstructured body => tagged "Unstructured" (unstructured excerpt body)

def namedTable (t : NamedTable) : Json :=
  object [
    ("node", excerpt t.excerpt),
    ("table_name", tableName excerpt t.name),
    ("alias", optional string t.asName)]

mutual

def select : Select → Json
  | .simple s => tagged "Simple" (simpleSelect s)
  | .union s => tagged "Union" (unionSelect s)
  | .parenthesis s => tagged "Parenthesis" (parenthesisSelect s)

def simpleSelect : SimpleSelect → Json
  | ⟨e, query, lock⟩ => object [
    ("node", excerpt e),
    ("query", specification query),
    ("lock", optional (unstructured excerpt) lock)]

def specification : QuerySpecification → Json
  | ⟨e, distinct, elements, tables, condition, groupBy, having, orderBy, l⟩ => object [
    ("node", excerpt e),
    ("distinct", bool distinct),
    ("select_elements", selectElements excerpt elements),
    ("from", optionalTables tables),
    ("where_clause", optionalExpr condition),
    ("group_by", optional (unstructured excerpt) groupBy),
    ("having", optionalExpr having),
    ("order_by", optional (unstructured excerpt) orderBy),
    ("limit", optional (limit excerpt) l)]

def unionSelect : UnionSelect → Json
  | ⟨e, first, parts, orderBy, l⟩ => object [
    ("node", excerpt e),
    ("first", operand first),
    ("union_parts", array (unionParts parts)),
    ("order_by", optional (unstructured excerpt) orderBy),
    ("limit", optional (limit excerpt) l)]

def unionParts : List UnionPart → List Json
  | [] => []
  | p :: ps => unionPart p :: unionParts ps

def unionPart : UnionPart → Json
  | ⟨e, operator, o⟩ => object [
    ("node", excerpt e),
    ("union_type", string operator),
    ("operand", operand o)]

def operand : QueryOperand → Json
  | .specification q => tagged "Specification" (specification q)
  | .group g => tagged "Expression" (group g)
  | .union s => tagged "Union" (unionSelect s)
  | .unstructured body => tagged "Unstructured" (unstructured excerpt body)

def parenthesisSelect : ParenthesisSelect → Json
  | ⟨e, g, orderBy, l⟩ => object [
    ("node", excerpt e),
    ("query_expr", group g),
    ("order_by", optional (unstructured excerpt) orderBy),
    ("limit", optional (limit excerpt) l)]

def group : QueryGroup → Json
  | ⟨e, b⟩ => object [("node", excerpt e), ("body", body b)]

def body : QueryBody → Json
  | .specification q => tagged "Specification" (specification q)
  | .union s => tagged "Union" (unionSelect s)
  | .nested g => tagged "Nested" (group g)

def optionalTables : Option TableSources → Json
  | some ts => tables ts
  | none => null

def tables : TableSources → Json
  | ⟨e, ss⟩ => object [("node", excerpt e), ("sources", array (sources ss))]

def sources : List TableSource → List Json
  | [] => []
  | s :: ss => source s :: sources ss

def source : TableSource → Json
  | .base s => tagged "Base" (joinedTable s)
  | .unstructured body => tagged "Unstructured" (unstructured excerpt body)

def joinedTable : JoinedTable → Json
  | ⟨e, i, js⟩ => object [("node", excerpt e), ("item", item i), ("joins", array (joins js))]

def joins : List Join → List Json
  | [] => []
  | j :: js => join j :: joins js

def item : TableItem → Json
  | .named t => tagged "Atom" (namedTable excerpt t)
  | .subquery t => tagged "Subquery" (subquery t)
  | .nested ts => tagged "Nested" (tables ts)
  | .unstructured body => tagged "Unstructured" (unstructured excerpt body)

def subquery : SubqueryTable → Json
  | ⟨e, lateral, s, asName⟩ => object [
    ("node", excerpt e),
    ("lateral", bool lateral),
    ("select", select s),
    ("alias", optional string asName)]

def join : Join → Json
  | .inner e i c => tagged "Inner" <| object [
    ("node", excerpt e), ("item", item i), ("condition", optionalCondition c)]
  | .straight e i c => tagged "Straight" <| object [
    ("node", excerpt e), ("item", item i), ("condition", optionalCondition c)]
  | .outer e side i c => tagged "Outer" <| object [
    ("node", excerpt e),
    ("side", joinSide side),
    ("item", item i),
    ("condition", optionalCondition c)]
  | .natural e side i => tagged "Natural" <| object [
    ("node", excerpt e), ("side", optional joinSide side), ("item", item i)]

def optionalCondition : Option JoinCondition → Json
  | some c => joinCondition c
  | none => null

def joinCondition : JoinCondition → Json
  | .on e condition => tagged "On" <| object [("node", excerpt e), ("expr", expr condition)]
  | .sharing e columns => tagged "Using" <| object [
    ("node", excerpt e), ("columns", texts columns)]

def optionalExpr : Option Expr → Json
  | some x => expr x
  | none => null

def exprs : List Expr → List Json
  | [] => []
  | x :: xs => expr x :: exprs xs

def expr : Expr → Json
  | .logical e operator operands => tagged "Logical" <| object [
    ("node", excerpt e),
    ("operator", logicalOperator operator),
    ("exprs", array (exprs operands))]
  | .predicate e p => tagged "Predicate" <| object [("node", excerpt e), ("predicate", predicate p)]
  | .unstructured body => tagged "Unstructured" (unstructured excerpt body)

def predicate : Predicate → Json
  | .comparison e left right operator => tagged "BinaryComparison" <| object [
    ("node", excerpt e),
    ("left", predicate left),
    ("right", predicate right),
    ("operator", string operator)]
  | .among e subject negated source => tagged "In" <| object [
    ("node", excerpt e),
    ("predicate", predicate subject),
    ("negated", bool negated),
    ("source", inSource source)]
  | .atom e a => tagged "ExprAtom" <| object [("node", excerpt e), ("atom", atom excerpt a)]
  | .unstructured body => tagged "Unstructured" (unstructured excerpt body)

def inSource : InSource → Json
  | .list items => tagged "Exprs" (array (exprs items))
  | .select s => tagged "Select" (select s)

end

def assignment (a : Assignment) : Json :=
  object [
    ("node", excerpt a.excerpt),
    ("column", columnName excerpt a.column),
    ("value", expr excerpt a.value)]

def insertSource : InsertSource → Json
  | .values rows => tagged "Values" <| object [
    ("node", excerpt rows.excerpt),
    ("rows", list (list (expr excerpt)) rows.rows)]
  | .select s => tagged "Select" (select excerpt s)
  | .set assignments => tagged "Set" (list (assignment excerpt) assignments)
  | .defaultValues e => tagged "DefaultValues" (excerpt e)

def insert (i : Insert) : Json :=
  object [
    ("node", excerpt i.excerpt),
    ("table_name", tableName excerpt i.table),
    ("columns", texts i.columns),
    ("source", insertSource excerpt i.source),
    ("on_duplicate", list (assignment excerpt) i.onDuplicate),
    ("on_conflict", optional (unstructured excerpt) i.onConflict),
    ("returning", optional (unstructured excerpt) i.returning)]

def update (u : Update) : Json :=
  object [
    ("node", excerpt u.excerpt),
    ("table_sources", tables excerpt u.tables),
    ("updated_elements", list (assignment excerpt) u.assignments),
    ("where_clause", optional (expr excerpt) u.condition),
    ("order_by", optional (unstructured excerpt) u.orderBy),
    ("limit", optional (limit excerpt) u.limit),
    ("returning", optional (unstructured excerpt) u.returning)]

def delete (d : Delete) : Json :=
  object [
    ("node", excerpt d.excerpt),
    ("table_sources", tables excerpt d.tables),
    ("targets", list (tableName excerpt) d.targets),
    ("where_clause", optional (expr excerpt) d.condition),
    ("order_by", optional (unstructured excerpt) d.orderBy),
    ("limit", optional (limit excerpt) d.limit),
    ("returning", optional (unstructured excerpt) d.returning)]

def createDatabase (s : CreateDatabase) : Json :=
  object [
    ("node", excerpt s.excerpt),
    ("name", identifier s.name),
    ("if_not_exists", bool s.ifNotExists)]

def content : Statement → Json
  | .select (.simple s) => simpleSelect excerpt s
  | .select (.union s) => unionSelect excerpt s
  | .select (.parenthesis s) => parenthesisSelect excerpt s
  | .insert s => insert excerpt s
  | .update s => update excerpt s
  | .delete s => delete excerpt s
  | .definition body | .manipulation body | .otherRead body =>
    object [("body", unstructured excerpt body)]
  | .createDatabase s => createDatabase excerpt s
  | .unclassified body => unstructured excerpt body
  | .empty e => excerpt e

end

end Encoding

def Statement.toJson (excerpt : Excerpt → Json) (s : Statement) : Json :=
  .tagged s.kind (Encoding.content excerpt s)

end SqlScript
