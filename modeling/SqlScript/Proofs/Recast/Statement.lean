import SqlScript.Statement.Basic

/-!
Statements with their excerpts replaced and the words in them written otherwise: names, aliases,
literals, and the operators between queries. Replacing every excerpt by itself and leaving the words
as they are changes nothing.
-/

namespace SqlScript

section

variable (f : Excerpt → Excerpt) (w : String → String)

def Unstructured.relocate (u : Unstructured) : Unstructured :=
  { u with excerpt := f u.excerpt }

def Limit.relocate (l : Limit) : Limit :=
  { l with excerpt := f l.excerpt }

def Identifier.recast (i : Identifier) : Identifier :=
  { i with value := w i.value }

def DottedName.recast (name : DottedName) : DottedName where
  excerpt := f name.excerpt
  parts := name.parts.map w

def TableName.recast (name : TableName) : TableName where
  excerpt := f name.excerpt
  owner := name.owner.map w
  identifier := w name.identifier

def ColumnName.recast (name : ColumnName) : ColumnName where
  excerpt := f name.excerpt
  owner := name.owner.map w
  identifier := w name.identifier
  attributes := name.attributes.map w

def SelectElement.recast : SelectElement → SelectElement
  | star e => .star ⟨f e.excerpt, e.qualifier.map (DottedName.recast f w)⟩
  | column e => .column ⟨f e.excerpt, e.column.recast f w, e.asName.map w⟩
  | function body => .function (body.relocate f)
  | expression body => .expression (body.relocate f)

def SelectElements.recast (es : SelectElements) : SelectElements where
  excerpt := f es.excerpt
  star := es.star
  elements := es.elements.map (SelectElement.recast f w)

def Atom.recast : Atom → Atom
  | constant e literal => .constant (f e) ⟨f literal.excerpt, w literal.value⟩
  | column name => .column (name.recast f w)
  | unstructured body => .unstructured (body.relocate f)

def NamedTable.recast (t : NamedTable) : NamedTable where
  excerpt := f t.excerpt
  name := t.name.recast f w
  asName := t.asName.map w

mutual

def Select.recast : Select → Select
  | .simple s => .simple s.recast
  | .union s => .union s.recast
  | .parenthesis s => .parenthesis s.recast

def SimpleSelect.recast : SimpleSelect → SimpleSelect
  | ⟨e, query, lock⟩ => ⟨f e, query.recast, lock.map (Unstructured.relocate f)⟩

def QuerySpecification.recast : QuerySpecification → QuerySpecification
  | ⟨e, distinct, elements, tables, condition, groupBy, having, orderBy, limit⟩ => {
    excerpt := f e
    distinct
    elements := elements.recast f w
    tables := recastTables tables
    condition := recastCondition condition
    groupBy := groupBy.map (Unstructured.relocate f)
    having := recastCondition having
    orderBy := orderBy.map (Unstructured.relocate f)
    limit := limit.map (Limit.relocate f) }

def UnionSelect.recast : UnionSelect → UnionSelect
  | ⟨e, first, parts, orderBy, limit⟩ =>
    ⟨f e, first.recast, recastParts parts, orderBy.map (Unstructured.relocate f),
      limit.map (Limit.relocate f)⟩

def recastParts : List UnionPart → List UnionPart
  | [] => []
  | p :: ps => p.recast :: recastParts ps

def UnionPart.recast : UnionPart → UnionPart
  | ⟨e, operator, operand⟩ => ⟨f e, w operator, operand.recast⟩

def QueryOperand.recast : QueryOperand → QueryOperand
  | .specification q => .specification q.recast
  | .group g => .group g.recast
  | .union s => .union s.recast
  | .unstructured body => .unstructured (body.relocate f)

def ParenthesisSelect.recast : ParenthesisSelect → ParenthesisSelect
  | ⟨e, g, orderBy, limit⟩ =>
    ⟨f e, g.recast, orderBy.map (Unstructured.relocate f), limit.map (Limit.relocate f)⟩

def QueryGroup.recast : QueryGroup → QueryGroup
  | ⟨e, body⟩ => ⟨f e, body.recast⟩

def QueryBody.recast : QueryBody → QueryBody
  | .specification q => .specification q.recast
  | .union s => .union s.recast
  | .nested g => .nested g.recast

def recastTables : Option TableSources → Option TableSources
  | some ts => some ts.recast
  | none => none

def TableSources.recast : TableSources → TableSources
  | ⟨e, sources⟩ => ⟨f e, recastSources sources⟩

def recastSources : List TableSource → List TableSource
  | [] => []
  | s :: ss => s.recast :: recastSources ss

def TableSource.recast : TableSource → TableSource
  | .base s => .base s.recast
  | .unstructured body => .unstructured (body.relocate f)

def JoinedTable.recast : JoinedTable → JoinedTable
  | ⟨e, item, joins⟩ => ⟨f e, item.recast, recastJoins joins⟩

def recastJoins : List Join → List Join
  | [] => []
  | j :: js => j.recast :: recastJoins js

def TableItem.recast : TableItem → TableItem
  | .named t => .named (t.recast f w)
  | .subquery t => .subquery t.recast
  | .nested ts => .nested ts.recast
  | .unstructured body => .unstructured (body.relocate f)

def SubqueryTable.recast : SubqueryTable → SubqueryTable
  | ⟨e, lateral, s, asName⟩ => ⟨f e, lateral, s.recast, asName.map w⟩

def Join.recast : Join → Join
  | .inner e i c => .inner (f e) i.recast (recastJoinCondition c)
  | .straight e i c => .straight (f e) i.recast (recastJoinCondition c)
  | .outer e side i c => .outer (f e) side i.recast (recastJoinCondition c)
  | .natural e side i => .natural (f e) side i.recast

def recastJoinCondition : Option JoinCondition → Option JoinCondition
  | some c => some c.recast
  | none => none

def JoinCondition.recast : JoinCondition → JoinCondition
  | .on e condition => .on (f e) condition.recast
  | .sharing e columns => .sharing (f e) (columns.map w)

def recastCondition : Option Expr → Option Expr
  | some x => some x.recast
  | none => none

def recastExprs : List Expr → List Expr
  | [] => []
  | x :: xs => x.recast :: recastExprs xs

def Expr.recast : Expr → Expr
  | .logical e operator operands => .logical (f e) operator (recastExprs operands)
  | .predicate e p => .predicate (f e) p.recast
  | .unstructured body => .unstructured (body.relocate f)

def Predicate.recast : Predicate → Predicate
  | .comparison e left right operator => .comparison (f e) left.recast right.recast operator
  | .among e subject negated source => .among (f e) subject.recast negated source.recast
  | .atom e a => .atom (f e) (a.recast f w)
  | .unstructured body => .unstructured (body.relocate f)

def InSource.recast : InSource → InSource
  | .list items => .list (recastExprs items)
  | .select s => .select s.recast

end

theorem recastParts_eq (ps : List UnionPart) :
    recastParts f w ps = ps.map (UnionPart.recast f w) := by
  induction ps with
  | nil => rfl
  | cons p ps ih => rw [recastParts, ih, List.map_cons]

theorem recastTables_eq (ts : Option TableSources) :
    recastTables f w ts = ts.map (TableSources.recast f w) := by
  cases ts <;> rfl

theorem recastSources_eq (ss : List TableSource) :
    recastSources f w ss = ss.map (TableSource.recast f w) := by
  induction ss with
  | nil => rfl
  | cons s ss ih => rw [recastSources, ih, List.map_cons]

theorem recastJoins_eq (js : List Join) : recastJoins f w js = js.map (Join.recast f w) := by
  induction js with
  | nil => rfl
  | cons j js ih => rw [recastJoins, ih, List.map_cons]

theorem recastJoinCondition_eq (c : Option JoinCondition) :
    recastJoinCondition f w c = c.map (JoinCondition.recast f w) := by
  cases c <;> rfl

theorem recastCondition_eq (x : Option Expr) :
    recastCondition f w x = x.map (Expr.recast f w) := by
  cases x <;> rfl

theorem recastExprs_eq (xs : List Expr) : recastExprs f w xs = xs.map (Expr.recast f w) := by
  induction xs with
  | nil => rfl
  | cons x xs ih => rw [recastExprs, ih, List.map_cons]

def Assignment.recast (a : Assignment) : Assignment where
  excerpt := f a.excerpt
  column := a.column.recast f w
  value := a.value.recast f w

def InsertSource.recast : InsertSource → InsertSource
  | values rows => .values ⟨f rows.excerpt, rows.rows.map (·.map (Expr.recast f w))⟩
  | select s => .select (s.recast f w)
  | set assignments => .set (assignments.map (Assignment.recast f w))
  | defaultValues e => .defaultValues (f e)

def Insert.recast (i : Insert) : Insert where
  excerpt := f i.excerpt
  table := i.table.recast f w
  columns := i.columns.map w
  source := i.source.recast f w
  onDuplicate := i.onDuplicate.map (Assignment.recast f w)
  onConflict := i.onConflict.map (Unstructured.relocate f)
  returning := i.returning.map (Unstructured.relocate f)

def Update.recast (u : Update) : Update where
  excerpt := f u.excerpt
  tables := u.tables.recast f w
  assignments := u.assignments.map (Assignment.recast f w)
  condition := u.condition.map (Expr.recast f w)
  orderBy := u.orderBy.map (Unstructured.relocate f)
  limit := u.limit.map (Limit.relocate f)
  returning := u.returning.map (Unstructured.relocate f)

def Delete.recast (d : Delete) : Delete where
  excerpt := f d.excerpt
  tables := d.tables.recast f w
  targets := d.targets.map (TableName.recast f w)
  condition := d.condition.map (Expr.recast f w)
  orderBy := d.orderBy.map (Unstructured.relocate f)
  limit := d.limit.map (Limit.relocate f)
  returning := d.returning.map (Unstructured.relocate f)

def CreateDatabase.recast (s : CreateDatabase) : CreateDatabase where
  excerpt := f s.excerpt
  name := s.name.recast w
  ifNotExists := s.ifNotExists

/--
The same statement read from another place and otherwise written. Which operators it has, except
those between queries, and what is only said by keywords stays the same.
-/
def Statement.recast : Statement → Statement
  | select s => .select (s.recast f w)
  | insert s => .insert (s.recast f w)
  | update s => .update (s.recast f w)
  | delete s => .delete (s.recast f w)
  | definition body => .definition (body.relocate f)
  | manipulation body => .manipulation (body.relocate f)
  | createDatabase s => .createDatabase (s.recast f w)
  | otherRead body => .otherRead (body.relocate f)
  | unclassified body => .unclassified (body.relocate f)
  | empty e => .empty (f e)

def Statement.relocate (s : Statement) : Statement :=
  s.recast f id

end

/-! Nothing is changed where every excerpt and every word stays what it is. -/

section

@[simp]
theorem Unstructured.relocate_id : relocate id = id :=
  rfl

@[simp]
theorem DottedName.recast_id : recast id id = id := by
  funext name
  simp [recast]

@[simp]
theorem TableName.recast_id : recast id id = id := by
  funext name
  simp [recast]

@[simp]
theorem ColumnName.recast_id : recast id id = id := by
  funext name
  simp [recast]

@[simp]
theorem Limit.relocate_id : relocate id = id :=
  rfl

@[simp]
theorem SelectElement.recast_id : recast id id = id := by
  funext e
  cases e <;> simp [recast]

@[simp]
theorem SelectElements.recast_id : recast id id = id := by
  funext es
  simp [recast]

@[simp]
theorem Atom.recast_id : recast id id = id := by
  funext a
  cases a <;> simp [recast]

@[simp]
theorem NamedTable.recast_id : recast id id = id := by
  funext t
  simp [recast]

mutual

@[simp]
theorem Select.recast_id : ∀ s : Select, s.recast id id = s
  | .simple s => by rw [Select.recast, s.recast_id]
  | .union s => by rw [Select.recast, s.recast_id]
  | .parenthesis s => by rw [Select.recast, s.recast_id]

theorem SimpleSelect.recast_id : ∀ s : SimpleSelect, s.recast id id = s
  | ⟨e, query, lock⟩ => by simp [SimpleSelect.recast, query.recast_id]

theorem QuerySpecification.recast_id : ∀ q : QuerySpecification, q.recast id id = q
  | ⟨e, distinct, elements, tables, condition, groupBy, having, orderBy, limit⟩ => by
    simp [QuerySpecification.recast, recastTables_id tables, recastCondition_id condition,
      recastCondition_id having]

theorem UnionSelect.recast_id : ∀ s : UnionSelect, s.recast id id = s
  | ⟨e, first, parts, orderBy, limit⟩ => by
    simp [UnionSelect.recast, first.recast_id, recastParts_id parts]

theorem recastParts_id : ∀ ps : List UnionPart, recastParts id id ps = ps
  | [] => rfl
  | p :: ps => by rw [recastParts, p.recast_id, recastParts_id ps]

theorem UnionPart.recast_id : ∀ p : UnionPart, p.recast id id = p
  | ⟨e, operator, operand⟩ => by simp [UnionPart.recast, operand.recast_id]

theorem QueryOperand.recast_id : ∀ o : QueryOperand, o.recast id id = o
  | .specification q => by rw [QueryOperand.recast, q.recast_id]
  | .group g => by rw [QueryOperand.recast, g.recast_id]
  | .union s => by rw [QueryOperand.recast, s.recast_id]
  | .unstructured body => by simp [QueryOperand.recast]

theorem ParenthesisSelect.recast_id : ∀ s : ParenthesisSelect, s.recast id id = s
  | ⟨e, g, orderBy, limit⟩ => by simp [ParenthesisSelect.recast, g.recast_id]

theorem QueryGroup.recast_id : ∀ g : QueryGroup, g.recast id id = g
  | ⟨e, body⟩ => by simp [QueryGroup.recast, body.recast_id]

theorem QueryBody.recast_id : ∀ b : QueryBody, b.recast id id = b
  | .specification q => by rw [QueryBody.recast, q.recast_id]
  | .union s => by rw [QueryBody.recast, s.recast_id]
  | .nested g => by rw [QueryBody.recast, g.recast_id]

theorem recastTables_id : ∀ ts : Option TableSources, recastTables id id ts = ts
  | some ts => by rw [recastTables, ts.recast_id]
  | none => rfl

theorem TableSources.recast_id : ∀ ts : TableSources, ts.recast id id = ts
  | ⟨e, sources⟩ => by simp [TableSources.recast, recastSources_id sources]

theorem recastSources_id : ∀ ss : List TableSource, recastSources id id ss = ss
  | [] => rfl
  | s :: ss => by rw [recastSources, s.recast_id, recastSources_id ss]

theorem TableSource.recast_id : ∀ s : TableSource, s.recast id id = s
  | .base s => by rw [TableSource.recast, s.recast_id]
  | .unstructured body => by simp [TableSource.recast]

theorem JoinedTable.recast_id : ∀ s : JoinedTable, s.recast id id = s
  | ⟨e, item, joins⟩ => by simp [JoinedTable.recast, item.recast_id, recastJoins_id joins]

theorem recastJoins_id : ∀ js : List Join, recastJoins id id js = js
  | [] => rfl
  | j :: js => by rw [recastJoins, j.recast_id, recastJoins_id js]

theorem TableItem.recast_id : ∀ i : TableItem, i.recast id id = i
  | .named t => by simp [TableItem.recast]
  | .subquery t => by rw [TableItem.recast, t.recast_id]
  | .nested ts => by rw [TableItem.recast, ts.recast_id]
  | .unstructured body => by simp [TableItem.recast]

theorem SubqueryTable.recast_id : ∀ t : SubqueryTable, t.recast id id = t
  | ⟨e, lateral, s, asName⟩ => by simp [SubqueryTable.recast, s.recast_id]

theorem Join.recast_id : ∀ j : Join, j.recast id id = j
  | .inner e i c => by simp [Join.recast, i.recast_id, recastJoinCondition_id c]
  | .straight e i c => by simp [Join.recast, i.recast_id, recastJoinCondition_id c]
  | .outer e side i c => by simp [Join.recast, i.recast_id, recastJoinCondition_id c]
  | .natural e side i => by simp [Join.recast, i.recast_id]

theorem recastJoinCondition_id : ∀ c : Option JoinCondition, recastJoinCondition id id c = c
  | some c => by rw [recastJoinCondition, c.recast_id]
  | none => rfl

theorem JoinCondition.recast_id : ∀ c : JoinCondition, c.recast id id = c
  | .on e condition => by simp [JoinCondition.recast, condition.recast_id]
  | .sharing e columns => by simp [JoinCondition.recast]

theorem recastCondition_id : ∀ x : Option Expr, recastCondition id id x = x
  | some x => by rw [recastCondition, x.recast_id]
  | none => rfl

theorem recastExprs_id : ∀ xs : List Expr, recastExprs id id xs = xs
  | [] => rfl
  | x :: xs => by rw [recastExprs, x.recast_id, recastExprs_id xs]

theorem Expr.recast_id : ∀ x : Expr, x.recast id id = x
  | .logical e operator operands => by simp [Expr.recast, recastExprs_id operands]
  | .predicate e p => by simp [Expr.recast, p.recast_id]
  | .unstructured body => by simp [Expr.recast]

theorem Predicate.recast_id : ∀ p : Predicate, p.recast id id = p
  | .comparison e left right operator => by
    simp [Predicate.recast, left.recast_id, right.recast_id]
  | .among e subject negated source => by
    simp [Predicate.recast, subject.recast_id, source.recast_id]
  | .atom e a => by simp [Predicate.recast]
  | .unstructured body => by simp [Predicate.recast]

theorem InSource.recast_id : ∀ s : InSource, s.recast id id = s
  | .list items => by rw [InSource.recast, recastExprs_id items]
  | .select s => by rw [InSource.recast, s.recast_id]

end

@[simp]
theorem Expr.recast_id_eq : Expr.recast id id = id :=
  funext Expr.recast_id

@[simp]
theorem Assignment.recast_id : recast id id = id := by
  funext a
  simp [recast]

theorem InsertSource.recast_id (s : InsertSource) : s.recast id id = s := by
  cases s <;> simp [recast]

theorem Statement.relocate_id (s : Statement) : s.relocate id = s := by
  unfold relocate
  cases s with
  | insert i => simp [recast, Insert.recast, i.source.recast_id]
  | update u => simp [recast, Update.recast, u.tables.recast_id]
  | delete d => simp [recast, Delete.recast, d.tables.recast_id]
  | createDatabase s => rfl
  | _ => simp [recast]

end

end SqlScript
