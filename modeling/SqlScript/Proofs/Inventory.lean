import SqlScript.Statement.Part
import Mathlib.Data.List.Perm.Basic

/-!
What statements hold: the excerpt of each value, with those of the values in its fields. The walk
through a statement, which knows nothing of its fields, meets exactly these excerpts, each as often
as it is held and before the excerpts inside it.
-/

namespace SqlScript

/--
The excerpt of a value and the inventories of the values inside it.
-/
inductive Inventory where
  | mk (excerpt : Excerpt) (inside : List Inventory)

namespace Inventory

mutual

def excerpts : Inventory → List Excerpt
  | ⟨e, inside⟩ => e :: excerptsOf inside

def excerptsOf : List Inventory → List Excerpt
  | [] => []
  | i :: is => i.excerpts ++ excerptsOf is

end

mutual

/--
The list goes through the inventory: the excerpt of the value is in front, and what is inside
follows value by value, in any order of the values.
-/
inductive Visited : Inventory → List Excerpt → Prop
  | intro {e : Excerpt} {inside order : List Inventory} {rest : List Excerpt} :
    order.Perm inside → AllVisited order rest → Visited ⟨e, inside⟩ (e :: rest)

inductive AllVisited : List Inventory → List Excerpt → Prop
  | nil : AllVisited [] []
  | cons {i : Inventory} {is : List Inventory} {es rest : List Excerpt} :
    Visited i es → AllVisited is rest → AllVisited (i :: is) (es ++ rest)

end

theorem excerptsOf_eq (is : List Inventory) : excerptsOf is = is.flatMap excerpts := by
  induction is with
  | nil => rfl
  | cons i is ih => rw [excerptsOf, ih, List.flatMap_cons]

mutual

theorem Visited.perm {i : Inventory} {es : List Excerpt} : i.Visited es → es.Perm i.excerpts
  | .intro horder hrest => by
    rw [excerpts, List.perm_cons, excerptsOf_eq]
    exact hrest.perm.trans (horder.flatMap fun _ _ => .refl _)

theorem AllVisited.perm {is : List Inventory} {es : List Excerpt} :
    AllVisited is es → es.Perm (is.flatMap excerpts)
  | .nil => .nil
  | .cons hfirst hrest => by
    rw [List.flatMap_cons]
    exact hfirst.perm.append hrest.perm

end

theorem AllVisited.append {is js : List Inventory} {es fs : List Excerpt} :
    AllVisited is es → AllVisited js fs → AllVisited (is ++ js) (es ++ fs)
  | .nil, hjs => hjs
  | .cons hi his, hjs => by
    rw [List.append_assoc]
    exact .cons hi (his.append hjs)

end Inventory

-- What the values of each type hold, field by field

def Unstructured.inventory (u : Unstructured) : Inventory :=
  ⟨u.excerpt, []⟩

def DottedName.inventory (name : DottedName) : Inventory :=
  ⟨name.excerpt, []⟩

def TableName.inventory (name : TableName) : Inventory :=
  ⟨name.excerpt, []⟩

def ColumnName.inventory (name : ColumnName) : Inventory :=
  ⟨name.excerpt, []⟩

def Limit.inventory (l : Limit) : Inventory :=
  ⟨l.excerpt, []⟩

def Constant.inventory (literal : Constant) : Inventory :=
  ⟨literal.excerpt, []⟩

def SelectElement.inventory : SelectElement → Inventory
  | star e => ⟨e.excerpt, (e.qualifier.map DottedName.inventory).toList⟩
  | column e => ⟨e.excerpt, [e.column.inventory]⟩
  | function body => body.inventory
  | expression body => body.inventory

def SelectElements.inventory (es : SelectElements) : Inventory :=
  ⟨es.excerpt, es.elements.map SelectElement.inventory⟩

def Atom.inventory : Atom → Inventory
  | constant e literal => ⟨e, [literal.inventory]⟩
  | column name => name.inventory
  | unstructured body => body.inventory

def NamedTable.inventory (t : NamedTable) : Inventory :=
  ⟨t.excerpt, [t.name.inventory]⟩

def tailInventory (orderBy : Option Unstructured) (limit : Option Limit) : List Inventory :=
  (orderBy.map Unstructured.inventory).toList ++ (limit.map Limit.inventory).toList

mutual

def Select.inventory : Select → Inventory
  | .simple s => s.inventory
  | .union s => s.inventory
  | .parenthesis s => s.inventory

def SimpleSelect.inventory : SimpleSelect → Inventory
  | ⟨e, query, lock⟩ => ⟨e, query.inventory :: (lock.map Unstructured.inventory).toList⟩

def QuerySpecification.inventory : QuerySpecification → Inventory
  | ⟨e, _, elements, tables, condition, groupBy, having, orderBy, limit⟩ =>
    ⟨e, elements.inventory :: (tablesInventory tables ++ conditionInventory condition ++
      (groupBy.map Unstructured.inventory).toList ++ conditionInventory having ++
      tailInventory orderBy limit)⟩

def UnionSelect.inventory : UnionSelect → Inventory
  | ⟨e, first, parts, orderBy, limit⟩ =>
    ⟨e, first.inventory :: (partInventories parts ++ tailInventory orderBy limit)⟩

def partInventories : List UnionPart → List Inventory
  | [] => []
  | p :: ps => p.inventory :: partInventories ps

def UnionPart.inventory : UnionPart → Inventory
  | ⟨e, _, operand⟩ => ⟨e, [operand.inventory]⟩

def QueryOperand.inventory : QueryOperand → Inventory
  | .specification q => q.inventory
  | .group g => g.inventory
  | .union s => s.inventory
  | .unstructured body => body.inventory

def ParenthesisSelect.inventory : ParenthesisSelect → Inventory
  | ⟨e, g, orderBy, limit⟩ => ⟨e, g.inventory :: tailInventory orderBy limit⟩

def QueryGroup.inventory : QueryGroup → Inventory
  | ⟨e, body⟩ => ⟨e, [body.inventory]⟩

def QueryBody.inventory : QueryBody → Inventory
  | .specification q => q.inventory
  | .union s => s.inventory
  | .nested g => g.inventory

def tablesInventory : Option TableSources → List Inventory
  | none => []
  | some ts => [ts.inventory]

def TableSources.inventory : TableSources → Inventory
  | ⟨e, sources⟩ => ⟨e, sourceInventories sources⟩

def sourceInventories : List TableSource → List Inventory
  | [] => []
  | s :: ss => s.inventory :: sourceInventories ss

def TableSource.inventory : TableSource → Inventory
  | .base s => s.inventory
  | .unstructured body => body.inventory

def JoinedTable.inventory : JoinedTable → Inventory
  | ⟨e, item, joins⟩ => ⟨e, item.inventory :: joinInventories joins⟩

def joinInventories : List Join → List Inventory
  | [] => []
  | j :: js => j.inventory :: joinInventories js

def TableItem.inventory : TableItem → Inventory
  | .named t => t.inventory
  | .subquery t => t.inventory
  | .nested ts => ts.inventory
  | .unstructured body => body.inventory

def SubqueryTable.inventory : SubqueryTable → Inventory
  | ⟨e, _, select, _⟩ => ⟨e, [select.inventory]⟩

def Join.inventory : Join → Inventory
  | .inner e item condition => ⟨e, item.inventory :: joinConditionInventory condition⟩
  | .straight e item condition => ⟨e, item.inventory :: joinConditionInventory condition⟩
  | .outer e _ item condition => ⟨e, item.inventory :: joinConditionInventory condition⟩
  | .natural e _ item => ⟨e, [item.inventory]⟩

def joinConditionInventory : Option JoinCondition → List Inventory
  | none => []
  | some condition => [condition.inventory]

def JoinCondition.inventory : JoinCondition → Inventory
  | .on e condition => ⟨e, [condition.inventory]⟩
  | .sharing e _ => ⟨e, []⟩

def conditionInventory : Option Expr → List Inventory
  | none => []
  | some condition => [condition.inventory]

def exprInventories : List Expr → List Inventory
  | [] => []
  | x :: xs => x.inventory :: exprInventories xs

def Expr.inventory : Expr → Inventory
  | .logical e _ operands => ⟨e, exprInventories operands⟩
  | .predicate e p => ⟨e, [p.inventory]⟩
  | .unstructured body => body.inventory

def Predicate.inventory : Predicate → Inventory
  | .comparison e left right _ => ⟨e, [left.inventory, right.inventory]⟩
  | .among e subject _ source => ⟨e, subject.inventory :: source.inventories⟩
  | .atom e a => ⟨e, [a.inventory]⟩
  | .unstructured body => body.inventory

def InSource.inventories : InSource → List Inventory
  | .list items => exprInventories items
  | .select s => [s.inventory]

end

def Assignment.inventory (a : Assignment) : Inventory :=
  ⟨a.excerpt, [a.column.inventory, a.value.inventory]⟩

def InsertedRows.inventory (rows : InsertedRows) : Inventory :=
  ⟨rows.excerpt, rows.rows.flatten.map Expr.inventory⟩

def InsertSource.inventories : InsertSource → List Inventory
  | values rows => [rows.inventory]
  | select s => [s.inventory]
  | set assignments => assignments.map Assignment.inventory
  | defaultValues e => [⟨e, []⟩]

def Insert.inventory (i : Insert) : Inventory :=
  ⟨i.excerpt, i.table.inventory :: (i.source.inventories ++
    i.onDuplicate.map Assignment.inventory ++ (i.onConflict.map Unstructured.inventory).toList ++
    (i.returning.map Unstructured.inventory).toList)⟩

def Update.inventory (u : Update) : Inventory :=
  ⟨u.excerpt, u.tables.inventory :: (u.assignments.map Assignment.inventory ++
    conditionInventory u.condition ++ tailInventory u.orderBy u.limit ++
    (u.returning.map Unstructured.inventory).toList)⟩

def Delete.inventory (d : Delete) : Inventory :=
  ⟨d.excerpt, d.tables.inventory :: (d.targets.map TableName.inventory ++
    conditionInventory d.condition ++ tailInventory d.orderBy d.limit ++
    (d.returning.map Unstructured.inventory).toList)⟩

def Statement.inventory : Statement → Inventory
  | select s => s.inventory
  | insert s => s.inventory
  | update s => s.inventory
  | delete s => s.inventory
  | createDatabase s => ⟨s.excerpt, []⟩
  | definition body => body.inventory
  | manipulation body => body.inventory
  | otherRead body => body.inventory
  | unclassified body => body.inventory
  | empty e => ⟨e, []⟩

-- The walk

namespace Part

variable {e : Excerpt} {p q : Part} {ps qs : List Part} {is js : List Inventory}

theorem excerpts_eq (p : Part) :
    p.excerpts = p.asExcerpt.toList ++ p.pieces.flatMap excerpts := by
  unfold excerpts all
  rw [walk_eq]
  cases h : p.asExcerpt <;> simp [h, List.filterMap_flatMap]

@[simp]
theorem excerpts_excerpt (e : Excerpt) : (excerpt e).excerpts = [e] := by
  rw [excerpts_eq]
  rfl

theorem excerpts_of_pieces (hp : p.pieces = q :: ps) :
    p.excerpts = q.excerpts ++ ps.flatMap excerpts := by
  rw [excerpts_eq, hp]
  cases p with
  | excerpt e => contradiction
  | _ => rfl

def Hold (ps : List Part) (is : List Inventory) : Prop :=
  Inventory.AllVisited is (ps.flatMap excerpts)

namespace Hold

variable {i : Inventory}

theorem nil : Hold [] [] :=
  Inventory.AllVisited.nil

theorem cons (hp : i.Visited p.excerpts) (hps : Hold ps is) : Hold (p :: ps) (i :: is) :=
  Inventory.AllVisited.cons hp hps

theorem single (hp : i.Visited p.excerpts) : Hold [p] [i] := by
  exact cons hp nil

theorem append (hps : Hold ps is) (hqs : Hold qs js) : Hold (ps ++ qs) (is ++ js) := by
  unfold Hold at *
  rw [List.flatMap_append]
  exact hps.append hqs

theorem map {α : Type} {part : α → Part} {inventory : α → Inventory}
    (h : ∀ a, (inventory a).Visited (part a).excerpts) (as : List α) :
    Hold (as.map part) (as.map inventory) := by
  induction as with
  | nil => exact nil
  | cons a as ih => exact cons (h a) ih

theorem optional {α : Type} {part : α → Part} {inventory : α → Inventory}
    (h : ∀ a, (inventory a).Visited (part a).excerpts) (a? : Option α) :
    Hold (Part.optional part a?) (a?.map inventory).toList := by
  cases a? with
  | none => exact nil
  | some a => exact single (h a)

theorem group (hps : Hold ps is) : Hold (excerpt e :: ps) [⟨e, is⟩] := by
  have hvalue : Inventory.Visited ⟨e, is⟩ (e :: ps.flatMap excerpts) := .intro (.refl is) hps
  simpa [Hold] using Inventory.AllVisited.cons hvalue .nil

end Hold

theorem visited_of_perm (hp : p.pieces = excerpt e :: ps) (hps : Hold ps is)
    (horder : is.Perm js) : Inventory.Visited ⟨e, js⟩ p.excerpts := by
  rw [excerpts_of_pieces hp, excerpts_excerpt]
  exact .intro horder hps

theorem visited_of_pieces (hp : p.pieces = excerpt e :: ps) (hps : Hold ps is) :
    Inventory.Visited ⟨e, is⟩ p.excerpts :=
  visited_of_perm hp hps (.refl is)

theorem visited_excerpt (e : Excerpt) : Inventory.Visited ⟨e, []⟩ (excerpt e).excerpts := by
  rw [excerpts_excerpt]
  exact .intro .nil .nil

theorem visited_leaf (hp : p.pieces = [excerpt e]) : Inventory.Visited ⟨e, []⟩ p.excerpts :=
  visited_of_pieces hp Hold.nil

theorem visited_same {i : Inventory} (hp : p.pieces = [q]) (hq : i.Visited q.excerpts) :
    i.Visited p.excerpts := by
  rw [excerpts_of_pieces hp]
  simpa using hq

end Part

open SqlScript.Part (Hold visited_of_pieces visited_leaf visited_same)

-- One lemma for each type

theorem Unstructured.visited (u : Unstructured) :
    u.inventory.Visited (Part.unstructured u).excerpts :=
  visited_leaf rfl

theorem DottedName.visited (name : DottedName) :
    name.inventory.Visited (Part.dottedName name).excerpts :=
  visited_leaf rfl

theorem TableName.visited (name : TableName) :
    name.inventory.Visited (Part.tableName name).excerpts :=
  visited_leaf rfl

theorem ColumnName.visited (name : ColumnName) :
    name.inventory.Visited (Part.columnName name).excerpts :=
  visited_leaf rfl

theorem Limit.visited (l : Limit) : l.inventory.Visited (Part.limit l).excerpts :=
  visited_leaf rfl

theorem CreateDatabase.visited (s : CreateDatabase) :
    Inventory.Visited ⟨s.excerpt, []⟩ (Part.createDatabase s).excerpts :=
  visited_leaf rfl

theorem SelectElement.visited (e : SelectElement) :
    e.inventory.Visited (Part.element e).excerpts := by
  cases e with
  | star e => exact visited_of_pieces rfl (.optional DottedName.visited e.qualifier)
  | column e => exact visited_of_pieces rfl (.single e.column.visited)
  | function body => exact visited_same rfl body.visited
  | expression body => exact visited_same rfl body.visited

theorem SelectElements.visited (es : SelectElements) :
    es.inventory.Visited (Part.elements es).excerpts :=
  visited_of_pieces rfl (.map SelectElement.visited es.elements)

theorem Atom.visited (a : Atom) : a.inventory.Visited (Part.atom a).excerpts := by
  cases a with
  | constant e literal => exact visited_of_pieces rfl (.single (Part.visited_excerpt _))
  | column name => exact visited_same rfl name.visited
  | unstructured body => exact visited_same rfl body.visited

theorem NamedTable.visited (t : NamedTable) :
    t.inventory.Visited (Part.item (.named t)).excerpts :=
  visited_of_pieces rfl (.single t.name.visited)

theorem hold_tail (orderBy : Option Unstructured) (limit : Option Limit) :
    Hold (Part.tail orderBy limit) (tailInventory orderBy limit) :=
  .append (.optional Unstructured.visited orderBy) (.optional Limit.visited limit)

mutual

theorem Select.visited : ∀ s : Select, s.inventory.Visited (Part.select s).excerpts
  | .simple s => visited_same rfl s.visited
  | .union s => visited_same rfl s.visited
  | .parenthesis s => visited_same rfl s.visited

theorem SimpleSelect.visited :
    ∀ s : SimpleSelect, s.inventory.Visited (Part.simpleSelect s).excerpts
  | ⟨_, query, lock⟩ =>
    visited_of_pieces rfl (.cons query.visited (.optional Unstructured.visited lock))

theorem QuerySpecification.visited :
    ∀ q : QuerySpecification, q.inventory.Visited (Part.specification q).excerpts
  | ⟨_, _, elements, tables, condition, groupBy, having, orderBy, limit⟩ => by
    have hclauses := (hold_tables tables).append (hold_condition condition)
      |>.append (.optional Unstructured.visited groupBy) |>.append (hold_condition having)
    exact visited_of_pieces rfl (.cons elements.visited (hclauses.append (hold_tail orderBy limit)))

theorem UnionSelect.visited :
    ∀ s : UnionSelect, s.inventory.Visited (Part.unionSelect s).excerpts
  | ⟨_, first, parts, orderBy, limit⟩ => by
    have hparts := (hold_parts parts).append (hold_tail orderBy limit)
    exact visited_of_pieces rfl (.cons first.visited hparts)

theorem hold_parts :
    ∀ ps : List UnionPart, Hold (ps.flatMap UnionPart.pieces) (partInventories ps)
  | [] => .nil
  | p :: ps => p.hold.append (hold_parts ps)

theorem UnionPart.hold : ∀ p : UnionPart, Hold p.pieces [p.inventory]
  | ⟨_, _, operand⟩ => .group (.single operand.visited)

theorem QueryOperand.visited :
    ∀ o : QueryOperand, o.inventory.Visited (Part.operand o).excerpts
  | .specification q => visited_same rfl q.visited
  | .group g => visited_same rfl g.visited
  | .union s => visited_same rfl s.visited
  | .unstructured body => visited_same rfl body.visited

theorem ParenthesisSelect.visited :
    ∀ s : ParenthesisSelect, s.inventory.Visited (Part.parenthesisSelect s).excerpts
  | ⟨_, g, orderBy, limit⟩ =>
    visited_of_pieces rfl (.cons g.visited (hold_tail orderBy limit))

theorem QueryGroup.visited : ∀ g : QueryGroup, g.inventory.Visited (Part.group g).excerpts
  | ⟨_, .specification q⟩ => visited_of_pieces rfl (.single q.visited)
  | ⟨_, .union s⟩ => visited_of_pieces rfl (.single s.visited)
  | ⟨_, .nested g⟩ => visited_of_pieces rfl (.single g.visited)

theorem hold_tables :
    ∀ ts : Option TableSources, Hold (Part.optional .tables ts) (tablesInventory ts)
  | none => .nil
  | some ts => .single ts.visited

theorem TableSources.visited :
    ∀ ts : TableSources, ts.inventory.Visited (Part.tables ts).excerpts
  | ⟨_, sources⟩ => visited_of_pieces rfl (hold_sources sources)

theorem hold_sources :
    ∀ ss : List TableSource, Hold (ss.map .source) (sourceInventories ss)
  | [] => .nil
  | s :: ss => .cons s.visited (hold_sources ss)

theorem TableSource.visited : ∀ s : TableSource, s.inventory.Visited (Part.source s).excerpts
  | .base ⟨_, item, joins⟩ => visited_of_pieces rfl (.cons item.visited (hold_joins joins))
  | .unstructured body => visited_same rfl body.visited

theorem hold_joins : ∀ js : List Join, Hold (js.map .join) (joinInventories js)
  | [] => .nil
  | j :: js => .cons j.visited (hold_joins js)

theorem TableItem.visited : ∀ i : TableItem, i.inventory.Visited (Part.item i).excerpts
  | .named t => t.visited
  | .subquery ⟨_, _, select, _⟩ => visited_of_pieces rfl (.single select.visited)
  | .nested ts => visited_same rfl ts.visited
  | .unstructured body => visited_same rfl body.visited

theorem Join.visited : ∀ j : Join, j.inventory.Visited (Part.join j).excerpts
  | .inner _ item condition =>
    visited_of_pieces rfl (.cons item.visited (hold_joinCondition condition))
  | .straight _ item condition =>
    visited_of_pieces rfl (.cons item.visited (hold_joinCondition condition))
  | .outer _ _ item condition =>
    visited_of_pieces rfl (.cons item.visited (hold_joinCondition condition))
  | .natural _ _ item => visited_of_pieces rfl (.single item.visited)

theorem hold_joinCondition :
    ∀ c : Option JoinCondition, Hold (Part.optional .joinCondition c) (joinConditionInventory c)
  | none => .nil
  | some c => .single c.visited

theorem JoinCondition.visited :
    ∀ c : JoinCondition, c.inventory.Visited (Part.joinCondition c).excerpts
  | .on _ condition => visited_of_pieces rfl (.single condition.visited)
  | .sharing _ _ => visited_leaf rfl

theorem hold_condition :
    ∀ x : Option Expr, Hold (Part.optional .expr x) (conditionInventory x)
  | none => .nil
  | some x => .single x.visited

theorem hold_exprs : ∀ xs : List Expr, Hold (xs.map .expr) (exprInventories xs)
  | [] => .nil
  | x :: xs => .cons x.visited (hold_exprs xs)

theorem Expr.visited : ∀ x : Expr, x.inventory.Visited (Part.expr x).excerpts
  | .logical _ _ operands => visited_of_pieces rfl (hold_exprs operands)
  | .predicate _ p => visited_of_pieces rfl (.single p.visited)
  | .unstructured body => visited_same rfl body.visited

theorem Predicate.visited : ∀ p : Predicate, p.inventory.Visited (Part.predicate p).excerpts
  | .comparison _ left right _ =>
    visited_of_pieces rfl (.cons left.visited (.single right.visited))
  | .among _ subject _ source => visited_of_pieces rfl (.cons subject.visited source.hold)
  | .atom _ a => visited_of_pieces rfl (.single a.visited)
  | .unstructured body => visited_same rfl body.visited

theorem InSource.hold : ∀ s : InSource, Hold s.pieces s.inventories
  | .list items => hold_exprs items
  | .select s => .single s.visited

end

theorem Assignment.visited (a : Assignment) :
    a.inventory.Visited (Part.assignment a).excerpts :=
  visited_of_pieces rfl (.cons a.column.visited (.single a.value.visited))

theorem InsertSource.hold (s : InsertSource) : Hold s.pieces s.inventories := by
  cases s with
  | values rows => exact .group (.map Expr.visited rows.rows.flatten)
  | select s => exact .single s.visited
  | set assignments => exact .map Assignment.visited assignments
  | defaultValues e => exact .single (Part.visited_excerpt e)

theorem Insert.visited (i : Insert) : i.inventory.Visited (Part.insert i).excerpts := by
  have hsource := i.source.hold.append (.map Assignment.visited i.onDuplicate)
    |>.append (.optional Unstructured.visited i.onConflict)
    |>.append (.optional Unstructured.visited i.returning)
  have hpieces : (Part.insert i).pieces = .excerpt i.excerpt :: .tableName i.table ::
      (i.source.pieces ++ i.onDuplicate.map .assignment ++
        Part.optional .unstructured i.onConflict ++ Part.optional .unstructured i.returning) := by
    simp [Part.pieces, Insert.pieces]
  exact visited_of_pieces hpieces (.cons i.table.visited hsource)

theorem Update.visited (u : Update) : u.inventory.Visited (Part.update u).excerpts := by
  have hclauses := (Hold.map Assignment.visited u.assignments).append (hold_condition u.condition)
    |>.append (hold_tail u.orderBy u.limit) |>.append (.optional Unstructured.visited u.returning)
  exact visited_of_pieces rfl (.cons u.tables.visited hclauses)

theorem Delete.visited (d : Delete) : d.inventory.Visited (Part.delete d).excerpts := by
  have htables := (Hold.map TableName.visited d.targets).append (.single d.tables.visited)
    |>.append (hold_condition d.condition) |>.append (hold_tail d.orderBy d.limit)
    |>.append (.optional Unstructured.visited d.returning)
  refine Part.visited_of_perm rfl htables ?_
  simp only [List.append_assoc]
  exact List.perm_middle

theorem Statement.visited (s : Statement) :
    s.inventory.Visited s.excerpts := by
  cases s with
  | select s =>
    cases s with
    | simple s => exact visited_same rfl s.visited
    | union s => exact visited_same rfl s.visited
    | parenthesis s => exact visited_same rfl s.visited
  | insert s => exact visited_same rfl s.visited
  | update s => exact visited_same rfl s.visited
  | delete s => exact visited_same rfl s.visited
  | createDatabase s => exact visited_same rfl s.visited
  | definition body => exact visited_same rfl body.visited
  | manipulation body => exact visited_same rfl body.visited
  | otherRead body => exact visited_same rfl body.visited
  | unclassified body => exact visited_same rfl body.visited
  | empty e => exact visited_leaf rfl

/--
The walk through a statement meets exactly the excerpts that the statement holds, and the excerpt of
each value before the excerpts of the values inside it.
-/
theorem Statement.excerpts_perm_inventory (s : Statement) :
    s.excerpts.Perm s.inventory.excerpts ∧ s.inventory.Visited s.excerpts :=
  ⟨s.visited.perm, s.visited⟩

end SqlScript
