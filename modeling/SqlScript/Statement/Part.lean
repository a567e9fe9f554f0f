import SqlScript.Statement.Basic

/-!
The parts of statements. Whatever a statement is made of can be listed part by part, each before the
parts inside it and in the order of the source; the excerpts of all parts are parts themselves.
-/

namespace SqlScript

/--
Anything that a statement can be made of, the statement included.
-/
inductive Part where
  | statement (statement : Statement)
  | select (select : Select)
  | simpleSelect (select : SimpleSelect)
  | unionSelect (select : UnionSelect)
  | parenthesisSelect (select : ParenthesisSelect)
  | specification (query : QuerySpecification)
  | operand (operand : QueryOperand)
  | group (group : QueryGroup)
  | elements (elements : SelectElements)
  | element (element : SelectElement)
  | tables (tables : TableSources)
  | source (source : TableSource)
  | item (item : TableItem)
  | join (join : Join)
  | joinCondition (condition : JoinCondition)
  | insert (insert : Insert)
  | update (update : Update)
  | delete (delete : Delete)
  | assignment (assignment : Assignment)
  | createDatabase (create : CreateDatabase)
  | expr (expr : Expr)
  | predicate (predicate : Predicate)
  | atom (atom : Atom)
  | tableName (name : TableName)
  | columnName (name : ColumnName)
  | dottedName (name : DottedName)
  | limit (limit : Limit)
  | unstructured (body : Unstructured)
  | excerpt (excerpt : Excerpt)

/-!
The pieces of a part are the parts of which it directly consists.
-/

namespace Part

def optional (part : α → Part) : Option α → List Part
  | some a => [part a]
  | none => []

def tail (orderBy : Option Unstructured) (limit : Option Limit) : List Part :=
  optional .unstructured orderBy ++ optional .limit limit

end Part

open SqlScript.Part (optional tail)

def Select.pieces : Select → List Part
  | simple s => [.simpleSelect s]
  | union s => [.unionSelect s]
  | parenthesis s => [.parenthesisSelect s]

def SimpleSelect.pieces (s : SimpleSelect) : List Part :=
  [.excerpt s.excerpt, .specification s.query] ++ optional .unstructured s.lock

def UnionPart.pieces (p : UnionPart) : List Part :=
  [.excerpt p.excerpt, .operand p.operand]

def UnionSelect.pieces (s : UnionSelect) : List Part :=
  [.excerpt s.excerpt, .operand s.first] ++ s.parts.flatMap UnionPart.pieces ++
    tail s.orderBy s.limit

def ParenthesisSelect.pieces (s : ParenthesisSelect) : List Part :=
  [.excerpt s.excerpt, .group s.group] ++ tail s.orderBy s.limit

def QuerySpecification.pieces (q : QuerySpecification) : List Part :=
  [.excerpt q.excerpt, .elements q.elements] ++ optional .tables q.tables ++
    optional .expr q.condition ++ optional .unstructured q.groupBy ++ optional .expr q.having ++
    tail q.orderBy q.limit

def QueryOperand.pieces : QueryOperand → List Part
  | specification q => [.specification q]
  | group g => [.group g]
  | union s => [.unionSelect s]
  | unstructured body => [.unstructured body]

def QueryBody.pieces : QueryBody → List Part
  | specification q => [.specification q]
  | union s => [.unionSelect s]
  | nested g => [.group g]

def QueryGroup.pieces (g : QueryGroup) : List Part :=
  .excerpt g.excerpt :: g.body.pieces

def SelectElements.pieces (es : SelectElements) : List Part :=
  .excerpt es.excerpt :: es.elements.map .element

def SelectElement.pieces : SelectElement → List Part
  | star e => .excerpt e.excerpt :: optional .dottedName e.qualifier
  | column e => [.excerpt e.excerpt, .columnName e.column]
  | function body | expression body => [.unstructured body]

def TableSources.pieces (ts : TableSources) : List Part :=
  .excerpt ts.excerpt :: ts.sources.map .source

def TableSource.pieces : TableSource → List Part
  | base s => [.excerpt s.excerpt, .item s.item] ++ s.joins.map .join
  | unstructured body => [.unstructured body]

def TableItem.pieces : TableItem → List Part
  | named t => [.excerpt t.excerpt, .tableName t.name]
  | subquery t => [.excerpt t.excerpt, .select t.select]
  | nested ts => [.tables ts]
  | unstructured body => [.unstructured body]

def Join.pieces (j : Join) : List Part :=
  [.excerpt j.excerpt, .item j.item] ++ optional .joinCondition j.condition

def JoinCondition.pieces : JoinCondition → List Part
  | on e condition => [.excerpt e, .expr condition]
  | sharing e _ => [.excerpt e]

def InsertSource.pieces : InsertSource → List Part
  | values rows => .excerpt rows.excerpt :: rows.rows.flatten.map .expr
  | select s => [.select s]
  | set assignments => assignments.map .assignment
  | defaultValues e => [.excerpt e]

def Insert.pieces (i : Insert) : List Part :=
  [.excerpt i.excerpt, .tableName i.table] ++ i.source.pieces ++
    i.onDuplicate.map .assignment ++ optional .unstructured i.onConflict ++
    optional .unstructured i.returning

def Update.pieces (u : Update) : List Part :=
  [.excerpt u.excerpt, .tables u.tables] ++ u.assignments.map .assignment ++
    optional .expr u.condition ++ tail u.orderBy u.limit ++ optional .unstructured u.returning

def Delete.pieces (d : Delete) : List Part :=
  .excerpt d.excerpt :: d.targets.map .tableName ++ [.tables d.tables] ++
    optional .expr d.condition ++ tail d.orderBy d.limit ++ optional .unstructured d.returning

def Assignment.pieces (a : Assignment) : List Part :=
  [.excerpt a.excerpt, .columnName a.column, .expr a.value]

def Expr.pieces : Expr → List Part
  | logical e _ operands => .excerpt e :: operands.map .expr
  | predicate e p => [.excerpt e, .predicate p]
  | unstructured body => [.unstructured body]

def InSource.pieces : InSource → List Part
  | list items => items.map .expr
  | select s => [.select s]

def Predicate.pieces : Predicate → List Part
  | comparison e left right _ => [.excerpt e, .predicate left, .predicate right]
  | among e subject _ source => [.excerpt e, .predicate subject] ++ source.pieces
  | atom e a => [.excerpt e, .atom a]
  | unstructured body => [.unstructured body]

def Atom.pieces : Atom → List Part
  | constant e literal => [.excerpt e, .excerpt literal.excerpt]
  | column name => [.columnName name]
  | unstructured body => [.unstructured body]

def Statement.pieces : Statement → List Part
  | select s => s.pieces
  | insert s => [.insert s]
  | update s => [.update s]
  | delete s => [.delete s]
  | createDatabase s => [.createDatabase s]
  | definition body | manipulation body | otherRead body | unclassified body =>
    [.unstructured body]
  | empty e => [.excerpt e]

namespace Part

def pieces : Part → List Part
  | statement s => s.pieces
  | select s => s.pieces
  | simpleSelect s => s.pieces
  | unionSelect s => s.pieces
  | parenthesisSelect s => s.pieces
  | specification q => q.pieces
  | operand o => o.pieces
  | group g => g.pieces
  | elements es => es.pieces
  | element e => e.pieces
  | tables ts => ts.pieces
  | source s => s.pieces
  | item i => i.pieces
  | join j => j.pieces
  | joinCondition c => c.pieces
  | insert s => s.pieces
  | update s => s.pieces
  | delete s => s.pieces
  | assignment a => a.pieces
  | createDatabase s => [.excerpt s.excerpt]
  | expr x => x.pieces
  | predicate p => p.pieces
  | atom a => a.pieces
  | tableName name => [.excerpt name.excerpt]
  | columnName name => [.excerpt name.excerpt]
  | dottedName name => [.excerpt name.excerpt]
  | limit l => [.excerpt l.excerpt]
  | unstructured body => [.excerpt body.excerpt]
  | excerpt _ => []

end Part

theorem UnionPart.sizeOf_le_of_mem_pieces {p : UnionPart} {q : Part} (h : q ∈ p.pieces) :
    sizeOf q ≤ sizeOf p := by
  cases p
  simp only [pieces, List.mem_cons, List.not_mem_nil, or_false] at h
  rcases h with rfl | rfl <;> simp <;> omega

theorem InSource.sizeOf_le_of_mem_pieces {s : InSource} {q : Part} (h : q ∈ s.pieces) :
    sizeOf q ≤ sizeOf s := by
  cases s <;> simp only [pieces, List.mem_map, List.mem_singleton] at h
  · obtain ⟨a, ha, rfl⟩ := h
    have := List.sizeOf_lt_of_mem ha
    simp
    omega
  · subst h
    simp

theorem InsertSource.sizeOf_le_of_mem_pieces {s : InsertSource} {q : Part} (h : q ∈ s.pieces) :
    sizeOf q ≤ sizeOf s := by
  cases s with
  | values rows =>
    cases rows
    simp only [pieces, List.mem_cons, List.mem_map, List.mem_flatten] at h
    rcases h with rfl | ⟨a, ⟨row, hr, ha⟩, rfl⟩
    · simp
      omega
    · have := List.sizeOf_lt_of_mem ha
      have := List.sizeOf_lt_of_mem hr
      simp
      omega
  | select s =>
    simp only [pieces, List.mem_singleton] at h
    subst h
    simp
  | set assignments =>
    obtain ⟨a, ha, rfl⟩ := List.mem_map.1 h
    have := List.sizeOf_lt_of_mem ha
    simp
    omega
  | defaultValues e =>
    simp only [pieces, List.mem_singleton] at h
    subst h
    simp

namespace Part

theorem forall_mem_optional {α : Type} {part : α → Part} {a? : Option α} {P : Part → Prop} :
    (∀ p ∈ optional part a?, P p) ↔ ∀ a, a? = some a → P (part a) := by
  cases a? <;> simp [optional]

theorem sizeOf_lt_of_mem_pieces {p : Part} : ∀ {q : Part}, q ∈ p.pieces → sizeOf q < sizeOf p := by
  cases p <;> rename_i s <;> cases s <;> (try (rename_i s; cases s)) <;>
    simp only [Part.pieces, tail, Select.pieces, SimpleSelect.pieces, UnionSelect.pieces,
      ParenthesisSelect.pieces, QuerySpecification.pieces, QueryOperand.pieces, QueryBody.pieces,
      QueryGroup.pieces, SelectElements.pieces, SelectElement.pieces, TableSources.pieces,
      TableSource.pieces, TableItem.pieces, Join.pieces, Join.condition, Join.item, Join.excerpt,
      JoinCondition.pieces, Insert.pieces, Update.pieces, Delete.pieces, Assignment.pieces,
      Expr.pieces, Predicate.pieces, Atom.pieces, Statement.pieces, List.forall_mem_append,
      List.forall_mem_cons, List.forall_mem_map, List.forall_mem_flatMap, forall_mem_optional,
      List.not_mem_nil, false_implies, implies_true, and_true]
  all_goals simp
  all_goals
    grind [→ List.sizeOf_lt_of_mem, → UnionPart.sizeOf_le_of_mem_pieces,
      → InSource.sizeOf_le_of_mem_pieces, → InsertSource.sizeOf_le_of_mem_pieces]

/--
A part and what is inside it. Where `descend` does not hold, what is inside is left out.
-/
def walk (descend : Part → Bool) (p : Part) : List Part :=
  p :: if descend p then p.pieces.attach.flatMap fun ⟨q, _⟩ => q.walk descend else []
termination_by sizeOf p
decreasing_by exact sizeOf_lt_of_mem_pieces ‹_›

theorem walk_eq (descend : Part → Bool) (p : Part) :
    p.walk descend = p :: if descend p then p.pieces.flatMap (walk descend) else [] := by
  rw [walk]
  congr 1
  split
  · exact List.flatMap_subtype (fun _ _ => rfl) |>.trans (by simp)
  · rfl

def all (p : Part) : List Part :=
  p.walk fun _ => true

def origin : Part → Excerpt
  | statement s => s.excerpt
  | select s => s.excerpt
  | simpleSelect s => s.excerpt
  | unionSelect s => s.excerpt
  | parenthesisSelect s => s.excerpt
  | specification q => q.excerpt
  | operand o => o.excerpt
  | group g => g.excerpt
  | elements es => es.excerpt
  | element e => e.excerpt
  | tables ts => ts.excerpt
  | source s => s.excerpt
  | item i => i.excerpt
  | join j => j.excerpt
  | joinCondition c => c.excerpt
  | insert s => s.excerpt
  | update s => s.excerpt
  | delete s => s.excerpt
  | assignment a => a.excerpt
  | createDatabase s => s.excerpt
  | expr x => x.excerpt
  | predicate p => p.excerpt
  | atom a => a.excerpt
  | tableName name => name.excerpt
  | columnName name => name.excerpt
  | dottedName name => name.excerpt
  | limit l => l.excerpt
  | unstructured body => body.excerpt
  | excerpt e => e

def asExcerpt : Part → Option Excerpt
  | excerpt e => some e
  | _ => none

def asTableName : Part → Option TableName
  | tableName name => some name
  | _ => none

def excerpts (p : Part) : List Excerpt :=
  p.all.filterMap asExcerpt

end Part

namespace Statement

def parts (s : Statement) : List Part :=
  (Part.statement s).all

def excerpts (s : Statement) : List Excerpt :=
  (Part.statement s).excerpts

/--
The tables that a statement names in what is looked into, in the order of the walk.
-/
def tables (s : Statement) : List TableName :=
  s.parts.filterMap Part.asTableName

end Statement

end SqlScript
